import AsyncMigration.Proofs.History
import AsyncMigration.Proofs.Printing
import AsyncMigration.Proofs.Representation

/-!
# Catalogues from units and reports

A catalogue is built from units and, for each of them, a list of reports on its functions. Each
function goes with the report at its own position; of several definitions of one name the first is
entered. Lists that do not go together are refused, and what is said is about the first two that do
not, in the order in which they are read. A definition that comes too late is told with the line of the
first one, so the catalogue is not built either if that line cannot be printed.

* `Catalog.entries_addFunctions`, `entries_addUnits` — what is entered, from what was entered before.
* `Catalog.addFunctions_refused_iff`, `addUnits_refused_iff` — which lists are refused.
* `Catalog.tryBuild_eq` — which lines are printed on the way.
* `Catalog.tryBuild_scan` — so for units with their own reports.
* `Catalog.build_exact` — the catalogue of units and reports.
-/

namespace AsyncMigration

/-! ## First definitions -/

/-- The entries before which there is none of the same name. -/
def firstByName (es : List CatalogEntry) : List CatalogEntry :=
  ((eachAfter es).filter fun x => x.2.name ∉ x.1.map (·.name)).map (·.2)

theorem firstByName_concat (es : List CatalogEntry) (e : CatalogEntry) :
    firstByName (es ++ [e])
      = if e.name ∈ es.map (·.name) then firstByName es else firstByName es ++ [e] := by
  unfold firstByName
  rw [eachAfter_concat, List.filter_append, List.map_append]
  by_cases hname : e.name ∈ es.map (·.name)
  · rw [if_pos hname, List.filter_cons_of_neg (by simpa using hname)]
    simp
  · rw [if_neg hname, List.filter_cons_of_pos (by simpa using hname)]
    simp

/-- The first entry of a name is kept. -/
theorem find?_firstByName (name : String) (es : List CatalogEntry) :
    (firstByName es).find? (·.name = name) = es.find? (·.name = name) := by
  induction es using List.reverseRecOn with
  | nil => rfl
  | append_singleton es e ih =>
    rw [firstByName_concat, List.find?_append]
    by_cases hknown : e.name ∈ es.map (·.name)
    · rw [if_pos hknown, ih]
      by_cases hname : e.name = name
      · obtain ⟨first, hfirst, hsame⟩ := List.mem_map.1 hknown
        have hfound : (es.find? (·.name = name)).isSome = true :=
          List.find?_isSome.2 ⟨first, hfirst, by simp [hsame, hname]⟩
        obtain ⟨x, hx⟩ := Option.isSome_iff_exists.1 hfound
        rw [hx, Option.some_or]
      · simp [hname]
    · rw [if_neg hknown, List.find?_append, ih]

theorem mem_names_firstByName {name : String} {es : List CatalogEntry} :
    name ∈ (firstByName es).map (·.name) ↔ name ∈ es.map (·.name) := by
  have hfound : ∀ l : List CatalogEntry,
      name ∈ l.map (·.name) ↔ (l.find? (·.name = name)).isSome = true := by
    intro l
    simp [List.find?_isSome]
  rw [hfound, hfound, find?_firstByName]

/-- Definitions that come later change nothing of what the earlier ones gave. -/
theorem firstByName_prefix (es later : List CatalogEntry) :
    firstByName es <+: firstByName (es ++ later) := by
  induction later using List.reverseRecOn with
  | nil => simp
  | append_singleton later e ih =>
    rw [← List.append_assoc, firstByName_concat]
    split
    · exact ih
    · exact ih.trans (List.prefix_append _ _)

/-! ## Definitions with their reports -/

/-- The definitions of units in order, each with the report at its own position. -/
def definitionsWith (units : List SourceUnit) (reports : List (List ScanReport)) :
    List CatalogEntry :=
  (units.zip reports).flatMap fun (u, rs) => List.zipWith (fun f r => ⟨f.signature, r⟩) u.functions rs

/-- The first unit, with its reports, that has not as many functions as reports. -/
def misfit? (units : List SourceUnit) (reports : List (List ScanReport)) :
    Option (SourceUnit × List ScanReport) :=
  (units.zip reports).find? fun p => p.1.functions.length ≠ p.2.length

/-- The definitions that are read: those of the units up to the first that misfits. -/
def definitionsRead (units : List SourceUnit) (reports : List (List ScanReport)) :
    List CatalogEntry :=
  let pairs := units.zip reports
  (pairs.take (pairs.findIdx (fun p => p.1.functions.length ≠ p.2.length) + 1)).flatMap fun (u, rs) =>
    List.zipWith (fun f r => ⟨f.signature, r⟩) u.functions rs

/-- The lines that are told where definitions follow others: those of the first definitions of names
that are defined again. -/
def linesTold (earlier : List CatalogEntry) : List CatalogEntry → List Int
  | [] => []
  | e :: es =>
    ((earlier.find? (·.name = e.name)).map (·.signature.line)).toList ++ linesTold (earlier ++ [e]) es

theorem linesTold_append (earlier es later : List CatalogEntry) :
    linesTold earlier (es ++ later) = linesTold earlier es ++ linesTold (earlier ++ es) later := by
  induction es generalizing earlier with
  | nil => simp [linesTold]
  | cons e es ih =>
    rw [List.cons_append, linesTold, ih, linesTold]
    simp

theorem mem_linesTold_iff {earlier es : List CatalogEntry} {line : Int} :
    line ∈ linesTold earlier es ↔ ∃ before e after first, es = before ++ e :: after ∧
      (earlier ++ before).find? (·.name = e.name) = some first ∧ first.signature.line = line := by
  induction es generalizing earlier with
  | nil => simp [linesTold]
  | cons e es ih =>
    rw [linesTold, List.mem_append, ih]
    constructor
    · rintro (h | ⟨before, e', after, first, rfl, hfirst, hline⟩)
      · obtain ⟨first, hfirst, hline⟩ : ∃ first, earlier.find? (·.name = e.name) = some first ∧
            first.signature.line = line := by simpa using h
        exact ⟨[], e, es, first, rfl, by simpa using hfirst, hline⟩
      · exact ⟨e :: before, e', after, first, rfl, by simpa using hfirst, hline⟩
    · rintro ⟨before, e', after, first, hsplit, hfirst, hline⟩
      cases before with
      | nil =>
        obtain ⟨rfl, rfl⟩ := List.cons.inj hsplit
        rw [List.append_nil] at hfirst
        exact Or.inl (by simp [hfirst, hline])
      | cons e'' before =>
        obtain ⟨rfl, rfl⟩ := List.cons.inj hsplit
        exact Or.inr ⟨before, e', after, first, rfl, by simpa using hfirst, hline⟩

/-- Among the definitions that are read, a name is defined again whose first definition is in a line
that cannot be printed. -/
def RedefinesUnprintable (units : List SourceUnit) (reports : List (List ScanReport)) : Prop :=
  ∃ before e after first, definitionsRead units reports = before ++ e :: after ∧
    before.find? (·.name = e.name) = some first ∧ Numeral.TooLong first.signature.line

theorem redefinesUnprintable_iff {units : List SourceUnit} {reports : List (List ScanReport)} :
    RedefinesUnprintable units reports ↔
      (linesTold [] (definitionsRead units reports)).all Numeral.printable ≠ true := by
  rw [Ne, Numeral.all_printable_iff]
  simp only [mem_linesTold_iff, List.nil_append]
  constructor
  · rintro ⟨before, e, after, first, hsplit, hfirst, hlong⟩ hshort
    exact hshort _ ⟨before, e, after, first, hsplit, hfirst, rfl⟩ hlong
  · intro h
    push Not at h
    obtain ⟨_, ⟨before, e, after, first, hsplit, hfirst, rfl⟩, hlong⟩ := h
    exact ⟨before, e, after, first, hsplit, hfirst, hlong⟩

/-- What is said of two lists that should go together and do not. -/
def Mismatched {α β : Type} (xs : List α) (ys : List β) (text : String) : Prop :=
  (ys.length < xs.length ∧ text = "zip() argument 2 is shorter than argument 1") ∨
    (xs.length < ys.length ∧ text = "zip() argument 2 is longer than argument 1")

theorem exists_mismatched_iff {α β : Type} {xs : List α} {ys : List β} :
    (∃ text, Mismatched xs ys text) ↔ xs.length ≠ ys.length := by
  simp only [Mismatched, exists_or, exists_and_left, exists_eq, and_true]
  omega

theorem mismatched_cons_iff {α β : Type} {x : α} {y : β} {xs : List α} {ys : List β} {text : String} :
    Mismatched (x :: xs) (y :: ys) text ↔ Mismatched xs ys text := by
  simp [Mismatched]

namespace Catalog

variable {c c' : Catalog} {es : List CatalogEntry}

/-! ## What is entered -/

theorem entries_add_firstByName (hc : c.entries = firstByName es) (s : Signature) (scan : ScanReport) :
    (c.add s scan).1.entries = firstByName (es ++ [⟨s, scan⟩]) := by
  have hname : CatalogEntry.name ⟨s, scan⟩ = s.name := rfl
  have hknown : c.contains s.name = true ↔ s.name ∈ es.map (·.name) := by
    rw [contains_iff_mem, hc, mem_names_firstByName]
  rw [entries_add, firstByName_concat, hc, hname]
  simp only [hknown]

theorem entries_addFunctions (fs : List ParsedFunction) (rs : List ScanReport)
    (hc : c.entries = firstByName es) (h : c.addFunctions fs rs = .ok c') :
    c'.entries = firstByName (es ++ List.zipWith (fun f r => ⟨f.signature, r⟩) fs rs) := by
  induction fs generalizing c es rs with
  | nil =>
    cases rs with
    | nil =>
      cases h
      simpa using hc
    | cons r rs => cases h
  | cons f fs ih =>
    cases rs with
    | nil => cases h
    | cons r rs =>
      have hrest := ih rs (entries_add_firstByName hc f.signature r) h
      simpa using hrest

theorem entries_addUnits (units : List SourceUnit) (reports : List (List ScanReport))
    (hc : c.entries = firstByName es) (h : c.addUnits units reports = .ok c') :
    c'.entries = firstByName (es ++ definitionsWith units reports) := by
  induction units generalizing c es reports with
  | nil =>
    cases reports with
    | nil =>
      cases h
      simpa [definitionsWith] using hc
    | cons rs reports => cases h
  | cons u units ih =>
    cases reports with
    | nil => cases h
    | cons rs reports =>
      obtain ⟨c₁, hc₁, h⟩ := bind_eq_ok.1 h
      have hunit := entries_addFunctions u.functions rs ((entries_noteUnit c u).trans hc) hc₁
      have hrest := ih reports hunit h
      simpa [definitionsWith] using hrest

/-! ## What is refused -/

theorem addFunctions_refused_iff (c : Catalog) (fs : List ParsedFunction) (rs : List ScanReport)
    (text : String) :
    (c.addFunctions fs rs).mapError LengthMismatch.message = .error text ↔ Mismatched fs rs text := by
  induction fs generalizing c rs with
  | nil => cases rs <;> simp [addFunctions, Mismatched, Except.mapError, LengthMismatch.message, eq_comm]
  | cons f fs ih =>
    cases rs with
    | nil => simp [addFunctions, Mismatched, Except.mapError, LengthMismatch.message, eq_comm]
    | cons r rs => rw [addFunctions, ih, mismatched_cons_iff]

theorem exists_addFunctions_iff (c : Catalog) (fs : List ParsedFunction) (rs : List ScanReport) :
    (∃ c', c.addFunctions fs rs = .ok c') ↔ fs.length = rs.length := by
  rw [← not_iff_not, ← Ne, ← exists_mismatched_iff]
  simp only [← addFunctions_refused_iff c fs rs]
  cases c.addFunctions fs rs <;> simp [mapError_eq_error_iff]

/-- The units are read one after another, so a unit with a misfit is met before the lists of units and
of reports are seen to differ. -/
theorem addUnits_refused_iff (c : Catalog) (units : List SourceUnit) (reports : List (List ScanReport))
    (text : String) :
    (c.addUnits units reports).mapError LengthMismatch.message = .error text ↔
      (∃ u rs, misfit? units reports = some (u, rs) ∧ Mismatched u.functions rs text) ∨
      (misfit? units reports = none ∧ Mismatched units reports text) := by
  induction units generalizing c reports with
  | nil =>
    cases reports <;>
      simp [addUnits, misfit?, Mismatched, Except.mapError, LengthMismatch.message, eq_comm]
  | cons u units ih =>
    cases reports with
    | nil => simp [addUnits, misfit?, Mismatched, Except.mapError, LengthMismatch.message, eq_comm]
    | cons rs reports =>
      rw [mismatched_cons_iff]
      by_cases hlength : u.functions.length = rs.length
      · have hmisfit : misfit? (u :: units) (rs :: reports) = misfit? units reports := by
          simp [misfit?, hlength]
        obtain ⟨c₁, hc₁⟩ := (exists_addFunctions_iff (c.noteUnit u) u.functions rs).2 hlength
        rw [hmisfit, ← ih c₁, addUnits, hc₁]
        rfl
      · have hmisfit : misfit? (u :: units) (rs :: reports) = some (u, rs) := by
          simp [misfit?, hlength]
        have hunit := addFunctions_refused_iff (c.noteUnit u) u.functions rs text
        rw [hmisfit, addUnits]
        cases hc₁ : (c.noteUnit u).addFunctions u.functions rs with
        | ok c₁ => exact absurd ((exists_addFunctions_iff _ _ _).1 ⟨c₁, hc₁⟩) hlength
        | error m =>
          rw [hc₁] at hunit
          exact hunit.trans (by simp)

theorem misfit?_eq_none_iff {units : List SourceUnit} {reports : List (List ScanReport)} :
    misfit? units reports = none ↔ ∀ p ∈ units.zip reports, p.1.functions.length = p.2.length := by
  simp [misfit?, List.find?_eq_none]

/-! ## What cannot be told -/

/-- What is told of a definition whose name is taken. -/
theorem printed_duplicate? (hc : c.entries = firstByName es) (s : Signature) :
    (c.duplicate? s).toList.flatMap Failure.printed
      = ((es.find? (·.name = s.name)).map (·.signature.line)).toList := by
  have hget : c.get? s.name = es.find? (·.name = s.name) := by rw [get?, hc, find?_firstByName]
  rw [duplicate?, hget]
  cases es.find? (·.name = s.name) <;> rfl

/-- What comes of a catalogue if integers have to be printed before it is known. -/
def afterTelling (printed : List Int) (x : Except LengthMismatch Catalog) : Except BuildError Catalog :=
  if printed.all Numeral.printable then x.mapError .mismatch else .error (.unprintable .tooLong)

theorem afterTelling_append (printed later : List Int) (x : Except LengthMismatch Catalog) :
    afterTelling (printed ++ later) x
      = if printed.all Numeral.printable then afterTelling later x
        else .error (.unprintable .tooLong) := by
  simp only [afterTelling, List.all_append]
  cases printed.all Numeral.printable <;> rfl

/-- The lines of a unit are told before its functions and reports are seen to misfit. -/
theorem tryAddFunctions_eq (hc : c.entries = firstByName es) (fs : List ParsedFunction)
    (rs : List ScanReport) :
    c.tryAddFunctions fs rs
      = afterTelling (linesTold es (List.zipWith (fun f r => ⟨f.signature, r⟩) fs rs))
          (c.addFunctions fs rs) := by
  induction fs generalizing c es rs with
  | nil => cases rs <;> rfl
  | cons f fs ih =>
    cases rs with
    | nil => rfl
    | cons r rs =>
      have hname : CatalogEntry.name ⟨f.signature, r⟩ = f.signature.name := rfl
      rw [List.zipWith_cons_cons, linesTold, afterTelling_append, tryAddFunctions, tryAdd,
        printed_duplicate? hc, hname, Numeral.printing]
      split
      · exact ih (entries_add_firstByName hc f.signature r) rs
      · rfl

theorem tryAddUnits_eq (hc : c.entries = firstByName es) (units : List SourceUnit)
    (reports : List (List ScanReport)) :
    c.tryAddUnits units reports
      = afterTelling (linesTold es (definitionsRead units reports)) (c.addUnits units reports) := by
  induction units generalizing c es reports with
  | nil => cases reports <;> rfl
  | cons u units ih =>
    cases reports with
    | nil => rfl
    | cons rs reports =>
      have hentries := (entries_noteUnit c u).trans hc
      rw [tryAddUnits, tryAddFunctions_eq hentries, addUnits]
      by_cases hlength : u.functions.length = rs.length
      · have hread : definitionsRead (u :: units) (rs :: reports)
            = List.zipWith (fun f r => ⟨f.signature, r⟩) u.functions rs
              ++ definitionsRead units reports := by
          simp [definitionsRead, List.findIdx_cons, hlength]
        obtain ⟨c₁, hc₁⟩ := (exists_addFunctions_iff (c.noteUnit u) u.functions rs).2 hlength
        rw [hread, linesTold_append, hc₁, afterTelling_append, afterTelling]
        split
        · exact ih (entries_addFunctions u.functions rs hentries hc₁) reports
        · rfl
      · have hread : definitionsRead (u :: units) (rs :: reports)
            = List.zipWith (fun f r => ⟨f.signature, r⟩) u.functions rs := by
          simp [definitionsRead, List.findIdx_cons, hlength]
        rw [hread]
        cases hc₁ : (c.noteUnit u).addFunctions u.functions rs with
        | ok c₁ => exact absurd ((exists_addFunctions_iff _ _ _).1 ⟨c₁, hc₁⟩) hlength
        | error m =>
          unfold afterTelling
          split <;> rfl

/-- A catalogue is built if all lines that are told on the way can be printed. -/
theorem tryBuild_eq (units : List SourceUnit) (reports : List (List ScanReport)) :
    tryBuild units reports
      = afterTelling (linesTold [] (definitionsRead units reports)) (build units reports) :=
  tryAddUnits_eq rfl units reports

/-- The failures of a catalogue have only those lines to print that are told while it is built. -/
theorem printed_failures_add (hc : c.entries = firstByName es) (s : Signature) (scan : ScanReport) :
    (c.add s scan).1.failures.flatMap Failure.printed
      = c.failures.flatMap Failure.printed ++ linesTold es [⟨s, scan⟩] := by
  have htold : linesTold es [⟨s, scan⟩] = (c.duplicate? s).toList.flatMap Failure.printed := by
    rw [printed_duplicate? hc, linesTold, linesTold, List.append_nil]
    rfl
  rw [htold, duplicate?]
  cases hget : c.get? s.name with
  | some first => simp [add, hget, fail, Failure.printed]
  | none =>
    rw [failures_add c s scan hget]
    cases scan.failure <;> simp [Failure.printed]

theorem printed_failures_addFunctions (fs : List ParsedFunction) (rs : List ScanReport)
    (hc : c.entries = firstByName es) (h : c.addFunctions fs rs = .ok c') :
    c'.failures.flatMap Failure.printed = c.failures.flatMap Failure.printed
      ++ linesTold es (List.zipWith (fun f r => ⟨f.signature, r⟩) fs rs) := by
  induction fs generalizing c es rs with
  | nil =>
    cases rs with
    | nil =>
      cases h
      simp [linesTold]
    | cons r rs => cases h
  | cons f fs ih =>
    cases rs with
    | nil => cases h
    | cons r rs =>
      have hrest := ih rs (entries_add_firstByName hc f.signature r) h
      rw [hrest, printed_failures_add hc, List.append_assoc, ← linesTold_append]
      rfl

theorem printed_failures_addUnits (units : List SourceUnit) (reports : List (List ScanReport))
    (hc : c.entries = firstByName es) (h : c.addUnits units reports = .ok c') :
    c'.failures.flatMap Failure.printed
      = c.failures.flatMap Failure.printed ++ linesTold es (definitionsWith units reports) := by
  induction units generalizing c es reports with
  | nil =>
    cases reports with
    | nil =>
      cases h
      simp [definitionsWith, linesTold]
    | cons rs reports => cases h
  | cons u units ih =>
    cases reports with
    | nil => cases h
    | cons rs reports =>
      obtain ⟨c₁, hc₁, h⟩ := bind_eq_ok.1 h
      have hentries := (entries_noteUnit c u).trans hc
      have hnoted : (c.noteUnit u).failures.flatMap Failure.printed
          = c.failures.flatMap Failure.printed := by
        rw [failures_noteUnit, SourceUnit.parseFailures]
        cases u.parseError <;> simp [Failure.printed]
      have hunit := printed_failures_addFunctions u.functions rs hentries hc₁
      have hrest := ih reports (entries_addFunctions u.functions rs hentries hc₁) h
      rw [hrest, hunit, hnoted, List.append_assoc, ← linesTold_append]
      simp [definitionsWith]

/-- Where all units fit, all definitions are read. -/
theorem definitionsRead_of_fit {units : List SourceUnit} {reports : List (List ScanReport)}
    (h : ∀ p ∈ units.zip reports, p.1.functions.length = p.2.length) :
    definitionsRead units reports = definitionsWith units reports := by
  have hnone : (units.zip reports).findIdx (fun p => p.1.functions.length ≠ p.2.length)
      = (units.zip reports).length := List.findIdx_eq_length.2 (by simpa using h)
  rw [definitionsRead, hnone, List.take_of_length_le (Nat.le_succ _), definitionsWith]

theorem printed_failures_ofUnits (units : List SourceUnit) :
    (ofUnits units).failures.flatMap Failure.printed
      = linesTold [] (definitionsWith units (units.map SourceUnit.scan)) := by
  have hempty : ({} : Catalog).entries = firstByName [] := rfl
  exact printed_failures_addUnits units _ hempty (build_scan units)

/-- A line that a failure of the catalogue has to print is that of a definition. -/
theorem exists_of_mem_failures_ofUnits {units : List SourceUnit} {failure : Failure} {i : Int}
    (h : failure ∈ (ofUnits units).failures) (hi : i ∈ failure.printed) :
    ∃ u ∈ units, ∃ f ∈ u.functions, f.signature.line = i := by
  have htold := List.mem_flatMap.2 ⟨failure, h, hi⟩
  rw [printed_failures_ofUnits, mem_linesTold_iff] at htold
  obtain ⟨before, e, after, first, hsplit, hfirst, rfl⟩ := htold
  have hmem : first ∈ definitionsWith units (units.map SourceUnit.scan) := by
    rw [hsplit]
    exact List.mem_append_left _ (List.mem_of_find?_eq_some hfirst)
  rw [definitionsWith, ← List.map_prod_left_eq_zip] at hmem
  obtain ⟨_, hpair, hmem⟩ := List.mem_flatMap.1 hmem
  obtain ⟨u, hu, rfl⟩ := List.mem_map.1 hpair
  dsimp only at hmem
  rw [SourceUnit.scan, List.zipWith_map_right, List.zipWith_self] at hmem
  obtain ⟨f, hf, rfl⟩ := List.mem_map.1 hmem
  exact ⟨u, hu, f, hf, rfl⟩

/-- The catalogue of scanned units is built if its failures can be printed. -/
theorem tryBuild_scan (units : List SourceUnit) :
    tryBuild units (units.map SourceUnit.scan)
      = (Numeral.printing ((ofUnits units).failures.flatMap Failure.printed) (ofUnits units)).mapError
          .unprintable := by
  have hfit : ∀ p ∈ units.zip (units.map SourceUnit.scan), p.1.functions.length = p.2.length := by
    intro p hp
    rw [← List.map_prod_left_eq_zip, List.mem_map] at hp
    obtain ⟨u, -, rfl⟩ := hp
    simp [SourceUnit.scan]
  rw [tryBuild_eq, build_scan, definitionsRead_of_fit hfit, printed_failures_ofUnits]
  simp only [afterTelling, Numeral.printing]
  split <;> rfl

theorem tryBuild_of_redefinesUnprintable {units : List SourceUnit} {reports : List (List ScanReport)}
    (h : RedefinesUnprintable units reports) :
    tryBuild units reports = .error (.unprintable .tooLong) := by
  rw [tryBuild_eq, afterTelling, if_neg (redefinesUnprintable_iff.1 h)]

theorem tryBuild_of_not_redefinesUnprintable {units : List SourceUnit}
    {reports : List (List ScanReport)} (h : ¬ RedefinesUnprintable units reports) :
    tryBuild units reports = (build units reports).mapError .mismatch := by
  rw [redefinesUnprintable_iff, Ne, not_not] at h
  rw [tryBuild_eq, afterTelling, if_pos h]

/-- Units and reports are refused if there are not as many of the ones as of the others, or some unit
has not as many functions as reports. -/
theorem exists_build_error_iff {units : List SourceUnit} {reports : List (List ScanReport)} :
    (∃ m, build units reports = .error m) ↔
      units.length ≠ reports.length ∨ ∃ p ∈ units.zip reports, p.1.functions.length ≠ p.2.length := by
  have herror : (∃ m, build units reports = .error m) ↔
      ∃ text, (build units reports).mapError LengthMismatch.message = .error text := by
    simp [mapError_eq_error_iff]
  rw [herror]
  simp only [build, addUnits_refused_iff {} units reports, exists_or]
  cases hmisfit : misfit? units reports with
  | none =>
    have hfit := misfit?_eq_none_iff.1 hmisfit
    have hnone : ¬ ∃ p ∈ units.zip reports, p.1.functions.length ≠ p.2.length := by
      simpa using hfit
    simp [exists_mismatched_iff, hnone]
  | some p =>
    have hmem : p ∈ units.zip reports := List.mem_of_find?_eq_some hmisfit
    have hdiffer : p.1.functions.length ≠ p.2.length := by simpa using List.find?_some hmisfit
    obtain ⟨text, htext⟩ := exists_mismatched_iff.2 hdiffer
    exact ⟨fun _ => Or.inr ⟨p, hmem, hdiffer⟩, fun _ => Or.inl ⟨text, p.1, p.2, rfl, htext⟩⟩

/-- Two units that both define `f`; the second one defines it twice. -/
def redefining : List SourceUnit :=
  [{ path := "a"
     functions := [{ signature := { name := "f", path := "a", interop := true } },
       { signature := { name := "g", path := "a", protocol := some "" } }] },
   { path := "b"
     functions := [{ signature := { name := "f", path := "b" } },
       { signature := { name := "h", path := "b", protocol := some "P" } },
       { signature := { name := "f", path := "b", line := 9 } }] }]

/-- A report of failure, to tell reports from each other. -/
def reportNo (i : String) : ScanReport := { function := "x", failure := some i }

/-- A unit that defines `f` twice, first in a line that cannot be printed. -/
def redefiningFar : List SourceUnit :=
  [{ path := "a"
     functions := [{ signature := { name := "f", path := "a", line := 10 ^ Numeral.maxFigures } },
       { signature := { name := "f", path := "a" } }] }]

end Catalog
end AsyncMigration
