import AsyncMigration.Proofs.Occurrences
import AsyncMigration.Proofs.Printing

/-!
# Where a scan fails

A body is scanned in source order up to the first element that is malformed. That element is what the
scan complains of; what stands below it plays no part. The fault stays with its function, unless it
holds an integer that is too long to be printed: then the whole unit is left without reports.

* `firstFault?_eq_findSome?` — the first fault is that of the first malformed element.
* `firstFault?_prunedForest` — what is below malformed elements is not looked at.
* `ParsedFunction.FirstFault` — the fault that a function has, told from its body alone.
* `SourceUnit.scan_insert` — the reports of a unit with one function more.
* `SourceUnit.tryScan_of_unprintable` — a fault that cannot be printed is one of the whole unit.
* `scan_first_fault` — when a scan fails, with which fault, and what that leaves of the unit.
-/

namespace AsyncMigration

/-! ## The fault of an element by itself -/

/-- What a scan says of a malformed element. Of a node of an unknown kind it says just this, whatever
its line. -/
inductive BodyElement.HasFault : BodyElement → BodyFault → Prop
  | stray (v : Stray) : HasFault (.stray v) (.stray v)
  | unknownKind {kind : String} {line : Int} {checked : Bool} {callee : Option String}
      {children : List BodyElement} (hkind : NodeKind.ofName? kind = none) :
      HasFault (.node kind line checked callee children) (.unknownKind kind line)
  | invalidLine {kind : String} {line : Int} {checked : Bool} {callee : Option String}
      {children : List BodyElement} (hkind : NodeKind.ofName? kind ≠ none) (hline : line < 1) :
      HasFault (.node kind line checked callee children) (.invalidLine kind line)

/-- The fault of an element, whatever it holds. -/
def BodyElement.ownFault? : BodyElement → Option BodyFault
  | .stray v => some (.stray v)
  | .node kind line _ _ _ =>
    if NodeKind.ofName? kind = none then some (.unknownKind kind line)
    else if line < 1 then some (.invalidLine kind line)
    else none

namespace BodyElement

theorem ownFault?_eq_some_iff {x : BodyElement} {fault : BodyFault} :
    x.ownFault? = some fault ↔ x.HasFault fault := by
  constructor
  · intro h
    cases x with
    | stray v =>
      cases h
      exact .stray v
    | node kind line checked callee children =>
      by_cases hkind : NodeKind.ofName? kind = none
      · obtain rfl : .unknownKind kind line = fault := by simpa [ownFault?, hkind] using h
        exact .unknownKind hkind
      · by_cases hline : line < 1
        · obtain rfl : .invalidLine kind line = fault := by simpa [ownFault?, hkind, hline] using h
          exact .invalidLine hkind hline
        · simp [ownFault?, hkind, hline] at h
  · intro h
    cases h with
    | stray v => rfl
    | unknownKind hkind => simp [ownFault?, hkind]
    | invalidLine hkind hline => simp [ownFault?, hkind, hline]

theorem ownFault?_eq_none_iff {x : BodyElement} : x.ownFault? = none ↔ ¬ x.Malformed := by
  cases x with
  | stray v => simp [ownFault?, Malformed]
  | node kind line checked callee children =>
    unfold ownFault? Malformed
    by_cases hkind : NodeKind.ofName? kind = none
    · simp [hkind]
    · by_cases hline : line < 1 <;> simp [hkind, hline]

end BodyElement

/-! ## The first fault of a body -/

mutual

theorem elementFault?_eq_findSome? (enclosing : List BodyElement) (e : BodyElement) :
    elementFault? e = (elementOccurrences enclosing e).findSome? (·.element.ownFault?) := by
  match e with
  | .stray v => rfl
  | .node kind line checked callee children =>
    have hchildren := firstFault?_eq_findSome? (.node kind line checked callee children :: enclosing)
      children
    unfold elementFault? elementOccurrences
    rw [List.findSome?_cons, ← hchildren]
    by_cases hkind : NodeKind.ofName? kind = none
    · simp [BodyElement.ownFault?, hkind]
    · by_cases hline : line < 1 <;> simp [BodyElement.ownFault?, hkind, hline]

/-- The first fault of a body is that of its first malformed element, in source order. -/
theorem firstFault?_eq_findSome? (enclosing es : List BodyElement) :
    firstFault? es = (forestOccurrences enclosing es).findSome? (·.element.ownFault?) := by
  match es with
  | [] => rfl
  | e :: es =>
    unfold firstFault? forestOccurrences
    rw [List.findSome?_append, ← elementFault?_eq_findSome? enclosing e,
      ← firstFault?_eq_findSome? enclosing es]
    cases elementFault? e <;> rfl

end

theorem firstFault?_eq_some_iff {body : List BodyElement} {fault : BodyFault} :
    firstFault? body = some fault ↔ ∃ before o after, occurrences body = before ++ o :: after ∧
      (∀ x ∈ before, ¬ x.element.Malformed) ∧ o.element.HasFault fault := by
  rw [firstFault?_eq_findSome? [] body, List.findSome?_eq_some_iff]
  simp only [BodyElement.ownFault?_eq_some_iff, BodyElement.ownFault?_eq_none_iff]
  constructor
  · rintro ⟨before, o, after, hsplit, hfault, hbefore⟩
    exact ⟨before, o, after, hsplit, hbefore, hfault⟩
  · rintro ⟨before, o, after, hsplit, hbefore, hfault⟩
    exact ⟨before, o, after, hsplit, hfault, hbefore⟩

/-! ## What is below a malformed element -/

mutual

/-- An element without what stands below malformed nodes. -/
def prunedElement : BodyElement → BodyElement
  | .stray v => .stray v
  | .node kind line checked callee children =>
    .node kind line checked callee
      (if NodeKind.ofName? kind = none ∨ line < 1 then [] else prunedForest children)

/-- Elements without what stands below malformed nodes. -/
def prunedForest : List BodyElement → List BodyElement
  | [] => []
  | e :: es => prunedElement e :: prunedForest es

end

mutual

theorem elementFault?_prunedElement (e : BodyElement) :
    elementFault? (prunedElement e) = elementFault? e := by
  match e with
  | .stray v => rfl
  | .node kind line checked callee children =>
    have hchildren := firstFault?_prunedForest children
    unfold prunedElement elementFault?
    by_cases hkind : NodeKind.ofName? kind = none
    · simp [hkind]
    · by_cases hline : line < 1 <;> simp [hkind, hline, hchildren]

/-- What stands below malformed nodes does not change the first fault. -/
theorem firstFault?_prunedForest (es : List BodyElement) :
    firstFault? (prunedForest es) = firstFault? es := by
  match es with
  | [] => rfl
  | e :: es =>
    unfold prunedForest firstFault?
    rw [elementFault?_prunedElement e, firstFault?_prunedForest es]

end

/-! ## Scans that fail -/

/-- The first fault of a function: its body is missing, or else this is the fault of the first malformed
element in source order. -/
inductive ParsedFunction.FirstFault (f : ParsedFunction) : BodyFault → Prop
  | unavailable (hbody : f.body = none) : FirstFault f .unavailable
  | malformed {fault : BodyFault} {body : List BodyElement} {before after : List Occurrence}
      {o : Occurrence} (hbody : f.body = some body) (hsplit : occurrences body = before ++ o :: after)
      (hbefore : ∀ x ∈ before, ¬ x.element.Malformed) (hfault : o.element.HasFault fault) :
      FirstFault f fault

theorem scanFunction_eq_error_iff {f : ParsedFunction} {fault : BodyFault} :
    scanFunction f = .error fault ↔
      (f.body = none ∧ fault = .unavailable) ∨
        ∃ body, f.body = some body ∧ firstFault? body = some fault := by
  rw [scanFunction_eq]
  cases hbody : f.body with
  | none => simp [eq_comm]
  | some body => cases hfault : firstFault? body <;> simp [hfault]

theorem scanFunction_eq_error_iff_firstFault {f : ParsedFunction} {fault : BodyFault} :
    scanFunction f = .error fault ↔ f.FirstFault fault := by
  rw [scanFunction_eq_error_iff]
  constructor
  · rintro (⟨hbody, rfl⟩ | ⟨body, hbody, hfirst⟩)
    · exact .unavailable hbody
    · obtain ⟨before, o, after, hsplit, hbefore, hfault⟩ := firstFault?_eq_some_iff.1 hfirst
      exact .malformed hbody hsplit hbefore hfault
  · intro h
    cases h with
    | unavailable hbody => exact Or.inl ⟨hbody, rfl⟩
    | malformed hbody hsplit hbefore hfault =>
      exact Or.inr ⟨_, hbody, firstFault?_eq_some_iff.2 ⟨_, _, _, hsplit, hbefore, hfault⟩⟩

/-- There is a first fault if the body is missing or something in it is malformed. -/
theorem ParsedFunction.exists_firstFault_iff {f : ParsedFunction} :
    (∃ fault, f.FirstFault fault) ↔
      f.body = none ∨ ∃ body, f.body = some body ∧ ∃ x, OccursIn x body ∧ x.Malformed := by
  have hunsound : ∀ body, (∃ fault, firstFault? body = some fault) ↔
      ∃ x, OccursIn x body ∧ x.Malformed := by
    intro body
    rw [← Option.isSome_iff_exists, Option.isSome_iff_ne_none, Ne, firstFault?_eq_none_iff]
    simp
  simp only [← scanFunction_eq_error_iff_firstFault, scanFunction_eq_error_iff, ← hunsound]
  constructor
  · rintro ⟨fault, ⟨hbody, -⟩ | ⟨body, hbody, hfault⟩⟩
    · exact Or.inl hbody
    · exact Or.inr ⟨body, hbody, fault, hfault⟩
  · rintro (hbody | ⟨body, hbody, fault, hfault⟩)
    · exact ⟨_, Or.inl ⟨hbody, rfl⟩⟩
    · exact ⟨fault, Or.inr ⟨body, hbody, hfault⟩⟩

/-- What stands below malformed nodes does not change what a scan that fails says. -/
theorem scanFunction_of_prunedForest {f : ParsedFunction} {fault : BodyFault}
    {body body' : List BodyElement} (h : scanFunction f = .error fault) (hbody : f.body = some body)
    (hpruned : prunedForest body' = prunedForest body) :
    scanFunction { f with body := some body' } = .error fault := by
  rcases scanFunction_eq_error_iff.1 h with ⟨hnone, -⟩ | ⟨_, hsome, hfirst⟩
  · rw [hnone] at hbody
    cases hbody
  · obtain rfl := Option.some.inj (hsome.symm.trans hbody)
    refine scanFunction_eq_error_iff.2 (Or.inr ⟨body', rfl, ?_⟩)
    rw [← firstFault?_prunedForest, hpruned, firstFault?_prunedForest, hfirst]

/-- What a scan raises is the fault, if this can be printed. -/
theorem ParsedFunction.scan_eq_error_iff {f : ParsedFunction} {e : ScanError} :
    f.scan = .error e ↔ ∃ fault, scanFunction f = .error fault ∧ fault.toError = e := by
  rw [scan, mapError_eq_error_iff]

theorem BodyFault.toError_eq_malformed_iff {fault : BodyFault} {reason : String} :
    fault.toError = .malformed reason ↔
      (∀ i ∈ fault.printed, ¬ Numeral.TooLong i) ∧ fault.message = reason := by
  rw [← Numeral.printing_eq_ok_iff, toError]
  cases Numeral.printing fault.printed fault.message <;> simp

theorem BodyFault.toError_eq_unprintable_iff {fault : BodyFault} {e : Numeral.PrintFault} :
    fault.toError = .unprintable e ↔ ∃ i ∈ fault.printed, Numeral.TooLong i := by
  have hlong : Numeral.printing fault.printed fault.message = .error e ↔
      ∃ i ∈ fault.printed, Numeral.TooLong i := Numeral.printing_eq_error_iff
  rw [← hlong, toError]
  cases Numeral.printing fault.printed fault.message <;> simp

namespace SourceUnit

/-- Each function of a unit has its own report, so that one function more is one report more. -/
theorem scan_insert {u : SourceUnit} {before after : List ParsedFunction} {f : ParsedFunction}
    (h : u.functions = before ++ f :: after) :
    u.scan = ({ u with functions := before ++ after } : SourceUnit).scan.take before.length
      ++ u.scanOf f
      :: ({ u with functions := before ++ after } : SourceUnit).scan.drop before.length := by
  have hothers : ({ u with functions := before ++ after } : SourceUnit).scan
      = before.map u.scanOf ++ after.map u.scanOf := List.map_append
  rw [hothers, scan, h]
  simp

theorem scanOf_of_error {f : ParsedFunction} {fault : BodyFault} (h : scanFunction f = .error fault)
    (u : SourceUnit) :
    u.scanOf f = { function := f.signature.name,
                   failure := some ((u.parseError.map unparsedReason).getD fault.message) } := by
  unfold scanOf
  cases u.parseError with
  | some error => rfl
  | none =>
    dsimp only
    rw [h]
    rfl

/-- One function more is one report more also where reports can fail, unless it is the one that fails. -/
theorem tryScan_insert {u : SourceUnit} {before after : List ParsedFunction} {f : ParsedFunction}
    (h : u.functions = before ++ f :: after) (hf : ∀ i ∈ u.printedOf f, ¬ Numeral.TooLong i) :
    u.tryScan = ({ u with functions := before ++ after } : SourceUnit).tryScan.map fun others =>
      others.take before.length ++ u.scanOf f :: others.drop before.length := by
  have hothers : ({ u with functions := before ++ after } : SourceUnit).printedOf = u.printedOf := rfl
  have hsame : (u.functions.flatMap u.printedOf).all Numeral.printable
      = ((before ++ after).flatMap u.printedOf).all Numeral.printable := by
    simp [h, Numeral.all_printable_iff.2 hf]
  rw [tryScan_eq, tryScan_eq, Numeral.map_printing, ← scan_insert h, hothers]
  simp only [Numeral.printing, hsame]

/-- A fault that cannot be printed leaves no report on any function. -/
theorem tryScan_of_unprintable {u : SourceUnit} {f : ParsedFunction} {e : Numeral.PrintFault}
    (he : f.scan = .error (.unprintable e)) (hf : f ∈ u.functions) (hparsed : u.parseError = none) :
    u.tryScan = .error e := by
  obtain ⟨fault, hfault, htold⟩ := ParsedFunction.scan_eq_error_iff.1 he
  obtain ⟨i, hi, hlong⟩ := BodyFault.toError_eq_unprintable_iff.1 htold
  rw [tryScan_eq]
  exact Numeral.printing_eq_error_iff.2 ⟨i, List.mem_flatMap.2 ⟨f, hf,
    mem_printedOf_iff.2 ⟨hparsed, fault, hfault, hi⟩⟩, hlong⟩

end SourceUnit

/-- **A scan fails at the first fault.** It fails if and only if the body is missing or something in it
is malformed, at any depth. The fault is that of the first malformed element in source order; of an
unknown kind and an invalid line the kind counts. What stands below malformed elements could be
anything else. The reason is given if every integer in it can be printed, and then the function has a
report with a failure and without patterns in its unit, between the reports that the unit gives without
it. If an integer in it is too long, there is no reason, and unless the unit did not parse there is no
report on any of its functions. -/
theorem scan_first_fault (f : ParsedFunction) :
    ((∃ e, f.scan = .error e) ↔
      f.body = none ∨ ∃ body, f.body = some body ∧ ∃ x, OccursIn x body ∧ x.Malformed) ∧
    (∀ reason, f.scan = .error (.malformed reason) ↔
      ∃ fault, f.FirstFault fault ∧ (∀ i ∈ fault.printed, ¬ Numeral.TooLong i) ∧
        fault.message = reason) ∧
    (∀ e, f.scan = .error (.unprintable e) ↔
      ∃ fault, f.FirstFault fault ∧ ∃ i ∈ fault.printed, Numeral.TooLong i) ∧
    (∀ e body body', f.scan = .error e → f.body = some body → prunedForest body' = prunedForest body →
      ({ f with body := some body' } : ParsedFunction).scan = .error e) ∧
    (∀ reason, f.scan = .error (.malformed reason) →
      ∀ (u : SourceUnit) (before after : List ParsedFunction), u.functions = before ++ f :: after →
        u.tryScan = ({ u with functions := before ++ after } : SourceUnit).tryScan.map fun others =>
          others.take before.length
            ++ { function := f.signature.name, patterns := []
                 failure := some ((u.parseError.map unparsedReason).getD reason) }
            :: others.drop before.length) ∧
    (∀ e, f.scan = .error (.unprintable e) →
      ∀ u : SourceUnit, f ∈ u.functions → u.parseError = none → u.tryScan = .error e) := by
  have hscan : ∀ e, f.scan = .error e ↔ ∃ fault, f.FirstFault fault ∧ fault.toError = e := by
    simp only [ParsedFunction.scan_eq_error_iff, scanFunction_eq_error_iff_firstFault, implies_true]
  refine ⟨?_, fun reason => ?_, fun e => ?_, fun e body body' he hbody hpruned => ?_,
    fun reason hreason u before after hfunctions => ?_,
    fun _ he _ hf hparsed => SourceUnit.tryScan_of_unprintable he hf hparsed⟩
  · simp only [hscan, ← f.exists_firstFault_iff]
    constructor
    · rintro ⟨-, fault, hfault, -⟩
      exact ⟨fault, hfault⟩
    · rintro ⟨fault, hfault⟩
      exact ⟨_, fault, hfault, rfl⟩
  · simp only [hscan, BodyFault.toError_eq_malformed_iff]
  · simp only [hscan, BodyFault.toError_eq_unprintable_iff]
  · obtain ⟨fault, hfault, htold⟩ := ParsedFunction.scan_eq_error_iff.1 he
    exact ParsedFunction.scan_eq_error_iff.2
      ⟨fault, scanFunction_of_prunedForest hfault hbody hpruned, htold⟩
  · obtain ⟨fault, hfault, htold⟩ := ParsedFunction.scan_eq_error_iff.1 hreason
    obtain ⟨hshort, rfl⟩ := BodyFault.toError_eq_malformed_iff.1 htold
    rw [← SourceUnit.scanOf_of_error hfault u]
    refine SourceUnit.tryScan_insert hfunctions fun i hi => ?_
    obtain ⟨-, fault', hfault', hi⟩ := SourceUnit.mem_printedOf_iff.1 hi
    obtain rfl := Except.error.inj (hfault.symm.trans hfault')
    exact hshort i hi

/-- A body with three malformed elements, of which the first is malformed in two ways and holds the
second. -/
def faultyBody : List BodyElement :=
  [.node "closure" 2 true none
    [.node "suspension" 3 true none [],
     .node "goto" 0 true none [.stray (.integer 42)]],
   .node "await" 0 true none []]

/-- Of a body with several faults the first one is told, with and without what stands below it, and the
functions before and after are scanned. -/
theorem scan_first_fault_hidden :
    ParsedFunction.scan { signature := { name := "f" }, body := some faultyBody }
      = .error (.malformed "unknown node kind 'goto' at line 0") ∧
    ParsedFunction.scan { signature := { name := "f" }, body := some (prunedForest faultyBody) }
      = .error (.malformed "unknown node kind 'goto' at line 0") ∧
    ({ functions :=
        [{ signature := { name := "d", structured := true } },
         { signature := { name := "f" }, body := some faultyBody },
         { signature := { name := "g", params := [⟨"k", true⟩] } }] } : SourceUnit).tryScan =
      .ok [{ function := "d", patterns := [⟨.nativeStructured, "d", 1, 0, none⟩] },
        { function := "f", failure := some "unknown node kind 'goto' at line 0" },
        { function := "g", patterns := [⟨.callbackParameter, "g", 1, 1, none⟩] }] := by
  obtain ⟨-, htold, -, hbelow, hunit, -⟩ :=
    scan_first_fault { signature := { name := "f" }, body := some faultyBody }
  have hsound : ((occurrences faultyBody).take 2).all (·.element.ownFault?.isNone) = true := rfl
  have hbefore : ∀ x ∈ (occurrences faultyBody).take 2, ¬ x.element.Malformed := fun x hx =>
    BodyElement.ownFault?_eq_none_iff.1 (Option.isNone_iff_eq_none.1 (List.all_eq_true.1 hsound x hx))
  have hfirst : ParsedFunction.FirstFault { signature := { name := "f" }, body := some faultyBody }
      (.unknownKind "goto" 0) :=
    .malformed rfl (List.take_append_drop 2 (occurrences faultyBody)).symm hbefore (.unknownKind rfl)
  have hscan := (htold "unknown node kind 'goto' at line 0").2
    ⟨_, hfirst, Numeral.all_printable_iff.1 (by decide), by decide +kernel⟩
  have hothers : SourceUnit.tryScan { functions := [{ signature := { name := "d", structured := true } },
        { signature := { name := "g", params := [⟨"k", true⟩] } }] }
      = .ok [{ function := "d", patterns := [⟨.nativeStructured, "d", 1, 0, none⟩] },
        { function := "g", patterns := [⟨.callbackParameter, "g", 1, 1, none⟩] }] :=
    (SourceUnit.tryScan_eq_ok (by decide +kernel)).trans (congrArg _ (by decide +kernel))
  exact ⟨hscan, hbelow _ faultyBody (prunedForest faultyBody) hscan rfl rfl,
    (hunit _ hscan _ [_] [_] rfl).trans (congrArg (Except.map _) hothers)⟩

/-- A function with a closure so far above its first line that the line cannot be printed. -/
def farAbove : ParsedFunction :=
  { signature := { name := "f" }, body := some [.node "closure" (-10 ^ Numeral.maxFigures) true none []] }

/-- The body of a function is malformed, and there is no reason; nor is there a report on the function
next to it, which has nothing wrong with it. -/
theorem scan_unprintable_line :
    farAbove.scan = .error (.unprintable .tooLong) ∧
    SourceUnit.tryScan { functions := [{ signature := { name := "d" } }] }
      = .ok [{ function := "d" }] ∧
    SourceUnit.tryScan { functions := [{ signature := { name := "d" } }, farAbove] }
      = .error .tooLong := by
  have hline : (-10 ^ Numeral.maxFigures : Int) < 1 := by
    have hpos : (0 : Int) < 10 ^ Numeral.maxFigures := Int.pow_pos (by decide)
    omega
  have hfault : scanFunction farAbove = .error (.invalidLine "closure" (-10 ^ Numeral.maxFigures)) :=
    scanFunction_eq_error_iff_firstFault.2
      (.malformed rfl (List.nil_append _).symm (by simp) (.invalidLine (by decide) hline))
  have hscan : farAbove.scan = .error (.unprintable .tooLong) :=
    ParsedFunction.scan_eq_error_iff.2 ⟨_, hfault, BodyFault.toError_eq_unprintable_iff.2
      ⟨_, List.mem_singleton_self _, Numeral.tooLong_neg_iff.2 Numeral.tooLong_pow⟩⟩
  refine ⟨hscan, (SourceUnit.tryScan_eq_ok (by decide +kernel)).trans (congrArg _ (by decide +kernel)),
    SourceUnit.tryScan_of_unprintable hscan (by simp) rfl⟩

end AsyncMigration
