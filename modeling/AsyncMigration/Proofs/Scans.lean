import AsyncMigration.Proofs.Descent

/-!
# What a scan finds

What a body holds at any depth, and what a scan says of it.

* `firstFault?_eq_none_iff` — a body is sound if no element of it, at any depth, is malformed.
* `SourceUnit.scanOf_failure_iff` — which functions cannot be scanned.
* `SourceUnit.migrationPatterns_scanOf_iff` — which functions have nothing to be migrated.
* `SourceUnit.exists_suspendsAround` — a callee that a pattern names is named by a suspension.
* `SourceUnit.layered_scanOf` — no depth is negative, and none is that of nested suspensions alone.
-/

namespace AsyncMigration

/-! ## Elements at any depth -/

/-- An element is part of another: it is that element itself or stands somewhere below it. -/
inductive BodyElement.Within (x : BodyElement) : BodyElement → Prop
  | self : Within x x
  | under {kind : String} {line : Int} {checked : Bool} {callee : Option String}
      {children : List BodyElement} {e : BodyElement} (he : e ∈ children) (h : Within x e) :
      Within x (.node kind line checked callee children)

/-- An element stands in a body, at any depth. -/
def OccursIn (x : BodyElement) (body : List BodyElement) : Prop := ∃ e ∈ body, x.Within e

/-- An element that no scan gets past: it is no node, its kind is unknown, or it has no line. -/
def BodyElement.Malformed : BodyElement → Prop
  | .stray _ => True
  | .node kind line _ _ _ => NodeKind.ofName? kind = none ∨ line < 1

/-- An element is a suspension. -/
def BodyElement.Suspends : BodyElement → Prop
  | .stray _ => False
  | .node kind _ _ _ _ => kind = "suspension"

/-- An element is a suspension that names the function that it wraps. -/
def BodyElement.SuspendsAround (callee : String) : BodyElement → Prop
  | .stray _ => False
  | .node kind _ _ c _ => kind = "suspension" ∧ c = some callee

namespace BodyElement

theorem within_node_iff {x : BodyElement} {kind : String} {line : Int} {checked : Bool}
    {callee : Option String} {children : List BodyElement} :
    x.Within (.node kind line checked callee children) ↔
      x = .node kind line checked callee children ∨ OccursIn x children := by
  constructor
  · intro h
    cases h with
    | self => exact Or.inl rfl
    | under he h => exact Or.inr ⟨_, he, h⟩
  · rintro (rfl | ⟨e, he, h⟩)
    · exact .self
    · exact .under he h

theorem within_stray_iff {x : BodyElement} {v : Stray} : x.Within (.stray v) ↔ x = .stray v := by
  constructor
  · intro h
    cases h with
    | self => rfl
  · rintro rfl
    exact .self

end BodyElement

theorem occursIn_cons_iff {x e : BodyElement} {es : List BodyElement} :
    OccursIn x (e :: es) ↔ x.Within e ∨ OccursIn x es := by
  simp [OccursIn]

theorem not_occursIn_nil {x : BodyElement} : ¬ OccursIn x [] := by
  simp [OccursIn]

/-! ## Faults -/

mutual

theorem elementFault?_eq_none_iff (e : BodyElement) :
    elementFault? e = none ↔ ∀ x : BodyElement, x.Within e → ¬ x.Malformed := by
  match e with
  | .stray v => simp [elementFault?, BodyElement.within_stray_iff, BodyElement.Malformed]
  | .node kind line checked callee children =>
    have hself : (∀ x, x = BodyElement.node kind line checked callee children → ¬ x.Malformed) ↔
        (NodeKind.ofName? kind).isNone = false ∧ ¬ line < 1 := by
      simp [BodyElement.Malformed, Option.isSome_iff_ne_none]
    unfold elementFault?
    simp only [BodyElement.within_node_iff, or_imp, forall_and, hself, ← firstFault?_eq_none_iff]
    split
    · next hkind => simp [hkind]
    · next hkind =>
      split
      · next hline => simp [hline]
      · next hline => simp [hkind, hline]

/-- A body is sound if nothing in it is malformed, at any depth. -/
theorem firstFault?_eq_none_iff (es : List BodyElement) :
    firstFault? es = none ↔ ∀ x : BodyElement, OccursIn x es → ¬ x.Malformed := by
  match es with
  | [] => simp [firstFault?, not_occursIn_nil]
  | e :: es =>
    unfold firstFault?
    simp only [occursIn_cons_iff, or_imp, forall_and, ← elementFault?_eq_none_iff e,
      ← firstFault?_eq_none_iff es]
    split
    · next fault hfault => simp [hfault]
    · next hsound => simp [hsound]

end

/-! ## Patterns to be migrated -/

/-- Some pattern of a list is to be migrated. -/
def Migrates (ps : List Pattern) : Prop := ∃ p ∈ ps, p.kind.isMigration = true

theorem migrates_append_iff {ps qs : List Pattern} :
    Migrates (ps ++ qs) ↔ Migrates ps ∨ Migrates qs := by
  simp [Migrates, or_and_right, exists_or]

/-- A suspension is always to be migrated. -/
theorem migrates_suspensionPatterns (function : String) (line : Int) (checked : Bool)
    (callee : Option String) (depth suspensions : Nat) :
    Migrates (suspensionPatterns function line checked callee depth suspensions) := by
  refine ⟨⟨if checked then .suspensionChecked else .suspensionUncheckedUnsafe, function, line, depth,
    callee⟩, ?_, ?_⟩
  · by_cases hnone : suspensions = 0 <;> simp [suspensionPatterns, hnone]
  · cases checked <;> rfl

theorem ofName?_eq_suspension_iff {kind : String} :
    NodeKind.ofName? kind = some .suspension ↔ kind = "suspension" := by
  unfold NodeKind.ofName?
  split <;> simp_all

theorem not_migrates_nil : ¬ Migrates [] := by
  simp [Migrates]

mutual

theorem migrates_elementPatterns_iff (function : String) (depth suspensions : Nat) (e : BodyElement) :
    Migrates (elementPatterns function depth suspensions e) ↔
      ∃ x : BodyElement, x.Within e ∧ x.Suspends := by
  match e with
  | .stray v =>
    simp [elementPatterns, not_migrates_nil, BodyElement.within_stray_iff, BodyElement.Suspends]
  | .node kind line checked callee children =>
    have hparts : (∃ x : BodyElement,
        x.Within (.node kind line checked callee children) ∧ x.Suspends) ↔
        kind = "suspension" ∨ ∃ x, OccursIn x children ∧ x.Suspends := by
      simp [BodyElement.within_node_iff, or_and_right, exists_or, BodyElement.Suspends]
    rw [hparts, ← ofName?_eq_suspension_iff]
    unfold elementPatterns
    split
    · next hkind =>
      simp [migrates_append_iff, migrates_suspensionPatterns, hkind]
    · next hkind =>
      have hawait : ¬ Migrates [⟨.nativeStructured, function, line, depth, callee⟩] := by
        simp [Migrates, PatternKind.isMigration]
      rw [← List.singleton_append, migrates_append_iff, migrates_forestPatterns_iff]
      simp [hawait, hkind]
    · next hkind => simp [migrates_forestPatterns_iff, hkind]
    · next hne _ _ =>
      rw [migrates_forestPatterns_iff, or_iff_right (a := NodeKind.ofName? kind = _) hne]

/-- A body calls for migration if a suspension stands in it, at any depth. -/
theorem migrates_forestPatterns_iff (function : String) (depth suspensions : Nat)
    (es : List BodyElement) :
    Migrates (forestPatterns function depth suspensions es) ↔
      ∃ x : BodyElement, OccursIn x es ∧ x.Suspends := by
  match es with
  | [] => simp [forestPatterns, not_migrates_nil, not_occursIn_nil]
  | e :: es =>
    unfold forestPatterns
    rw [migrates_append_iff, migrates_elementPatterns_iff function depth suspensions e,
      migrates_forestPatterns_iff function depth suspensions es]
    simp only [occursIn_cons_iff, or_and_right, exists_or]

end

/-- The declaration of a function calls for migration if it has a callback. -/
theorem migrates_declarationPatterns_iff {s : Signature} {closureDepth : Nat} :
    Migrates (declarationPatterns s closureDepth) ↔ ∃ p ∈ s.params, p.callback = true := by
  unfold declarationPatterns
  rw [migrates_append_iff]
  have hstructured : ¬ Migrates
      (if s.structured then [⟨.nativeStructured, s.name, s.line, 0, none⟩] else []) := by
    split <;> simp [Migrates, PatternKind.isMigration]
  rw [or_iff_right hstructured]
  constructor
  · rintro ⟨p, hp, -⟩
    obtain ⟨x, hx, -⟩ := List.mem_map.1 hp
    exact ⟨x, List.mem_filter.1 hx⟩
  · rintro ⟨x, hx, hcallback⟩
    exact ⟨_, List.mem_map.2 ⟨x, List.mem_filter.2 ⟨hx, hcallback⟩, rfl⟩, rfl⟩

/-! ## Callees of suspensions -/

theorem callee_of_mem_suspensionPatterns {function : String} {line : Int} {checked : Bool}
    {callee : Option String} {depth suspensions : Nat} {p : Pattern}
    (h : p ∈ suspensionPatterns function line checked callee depth suspensions) :
    p.callee = callee := by
  unfold suspensionPatterns at h
  dsimp only at h
  split at h
  · simp_all
  · simp only [List.mem_cons, List.not_mem_nil, or_false] at h
    rcases h with rfl | rfl <;> rfl

mutual

theorem suspendsAround_of_mem_elementPatterns {function : String} {p : Pattern} {callee : String}
    (hp : p.kind.isSuspension = true) (hcallee : p.callee = some callee) (depth suspensions : Nat)
    (e : BodyElement) (h : p ∈ elementPatterns function depth suspensions e) :
    ∃ x : BodyElement, x.Within e ∧ x.SuspendsAround callee := by
  match e with
  | .stray v => simp [elementPatterns] at h
  | .node kind line checked c children =>
    -- what is found among the children is found in the node
    have hbelow : ∀ depth suspensions,
        p ∈ forestPatterns function depth suspensions children →
        ∃ x : BodyElement, x.Within (.node kind line checked c children) ∧ x.SuspendsAround callee := by
      intro depth suspensions h
      obtain ⟨x, hx, hx'⟩ :=
        suspendsAround_of_mem_forestPatterns hp hcallee depth suspensions children h
      exact ⟨x, BodyElement.within_node_iff.2 (Or.inr hx), hx'⟩
    unfold elementPatterns at h
    split at h
    · next hkind =>
      rcases List.mem_append.1 h with h | h
      · refine ⟨_, .self, ofName?_eq_suspension_iff.1 hkind, ?_⟩
        rw [← callee_of_mem_suspensionPatterns h, hcallee]
      · exact hbelow _ _ h
    · rcases List.mem_cons.1 h with rfl | h
      · cases hp
      · exact hbelow _ _ h
    · exact hbelow _ _ h
    · exact hbelow _ _ h

/-- A pattern of a body that is a suspension and names a callee is that of an element which does. -/
theorem suspendsAround_of_mem_forestPatterns {function : String} {p : Pattern} {callee : String}
    (hp : p.kind.isSuspension = true) (hcallee : p.callee = some callee) (depth suspensions : Nat)
    (es : List BodyElement) (h : p ∈ forestPatterns function depth suspensions es) :
    ∃ x : BodyElement, OccursIn x es ∧ x.SuspendsAround callee := by
  match es with
  | [] => simp [forestPatterns] at h
  | e :: es =>
    unfold forestPatterns at h
    rcases List.mem_append.1 h with h | h
    · obtain ⟨x, hx, hx'⟩ := suspendsAround_of_mem_elementPatterns hp hcallee depth suspensions e h
      exact ⟨x, occursIn_cons_iff.2 (Or.inl hx), hx'⟩
    · obtain ⟨x, hx, hx'⟩ := suspendsAround_of_mem_forestPatterns hp hcallee depth suspensions es h
      exact ⟨x, occursIn_cons_iff.2 (Or.inr hx), hx'⟩

end

/-- No declaration shows a suspension. -/
theorem isSuspension_of_mem_declarationPatterns {s : Signature} {closureDepth : Nat} {p : Pattern}
    (h : p ∈ declarationPatterns s closureDepth) : p.kind.isSuspension = false := by
  unfold declarationPatterns at h
  rcases List.mem_append.1 h with h | h
  · split at h
    · simp_all [PatternKind.isSuspension]
    · cases h
  · obtain ⟨x, -, rfl⟩ := List.mem_map.1 h
    rfl

/-! ## Depths -/

/-- No depth is negative, and what is found nested is no deeper than some suspension. -/
def Layered (ps : List Pattern) : Prop :=
  ∀ p ∈ ps, 0 ≤ p.nestedDepth ∧ (p.kind = .nestedSuspension →
    ∃ q ∈ ps, q.kind.isSuspension = true ∧ p.nestedDepth ≤ q.nestedDepth)

theorem layered_nil : Layered [] := by
  simp [Layered]

theorem Layered.append {ps qs : List Pattern} (hps : Layered ps) (hqs : Layered qs) :
    Layered (ps ++ qs) := by
  intro p hp
  rcases List.mem_append.1 hp with hp | hp
  · refine ⟨(hps p hp).1, fun hkind => ?_⟩
    obtain ⟨q, hq, hdeep⟩ := (hps p hp).2 hkind
    exact ⟨q, List.mem_append_left _ hq, hdeep⟩
  · refine ⟨(hqs p hp).1, fun hkind => ?_⟩
    obtain ⟨q, hq, hdeep⟩ := (hqs p hp).2 hkind
    exact ⟨q, List.mem_append_right _ hq, hdeep⟩

/-- Patterns of which none is found nested are layered if no depth is negative. -/
theorem layered_of_forall {ps : List Pattern}
    (h : ∀ p ∈ ps, 0 ≤ p.nestedDepth ∧ p.kind ≠ .nestedSuspension) : Layered ps :=
  fun p hp => ⟨(h p hp).1, fun hkind => absurd hkind (h p hp).2⟩

/-- A suspension is as deep as the suspensions around it are many, or deeper. -/
theorem layered_suspensionPatterns (function : String) (line : Int) (checked : Bool)
    (callee : Option String) {depth suspensions : Nat} (h : suspensions ≤ depth) :
    Layered (suspensionPatterns function line checked callee depth suspensions) := by
  unfold suspensionPatterns
  dsimp only
  split
  · apply layered_of_forall
    cases checked <;> simp
  · intro p hp
    rcases List.mem_cons.1 hp with rfl | hp
    · cases checked <;> simp
    · rw [List.mem_singleton.1 hp]
      refine ⟨Int.natCast_nonneg _, fun _ => ⟨_, List.mem_cons_self, ?_, Int.ofNat_le.2 h⟩⟩
      cases checked <;> rfl

mutual

theorem layered_elementPatterns (function : String) {depth suspensions : Nat}
    (hdepth : suspensions ≤ depth) (e : BodyElement) :
    Layered (elementPatterns function depth suspensions e) := by
  match e with
  | .stray v => simp [elementPatterns, layered_nil]
  | .node kind line checked callee children =>
    unfold elementPatterns
    split
    · exact (layered_suspensionPatterns function line checked callee hdepth).append
        (layered_forestPatterns function (Nat.succ_le_succ hdepth) children)
    · rw [← List.singleton_append]
      refine Layered.append (layered_of_forall ?_) (layered_forestPatterns function hdepth children)
      simp
    · exact layered_forestPatterns function (Nat.le_succ_of_le hdepth) children
    · exact layered_forestPatterns function hdepth children

/-- Suspensions count for the depth, so what is found nested in one is no deeper than that is. -/
theorem layered_forestPatterns (function : String) {depth suspensions : Nat}
    (hdepth : suspensions ≤ depth) (es : List BodyElement) :
    Layered (forestPatterns function depth suspensions es) := by
  match es with
  | [] => simp [forestPatterns, layered_nil]
  | e :: es =>
    unfold forestPatterns
    exact (layered_elementPatterns function hdepth e).append (layered_forestPatterns function hdepth es)

end

theorem layered_declarationPatterns (s : Signature) (closureDepth : Nat) :
    Layered (declarationPatterns s closureDepth) := by
  unfold declarationPatterns
  apply Layered.append
  · split
    · exact layered_of_forall (by simp)
    · exact layered_nil
  · apply layered_of_forall
    intro p hp
    obtain ⟨x, -, rfl⟩ := List.mem_map.1 hp
    exact ⟨by dsimp only; omega, nofun⟩

/-! ## Scans of functions -/

/-- A function cannot be scanned: its unit did not parse, its body is missing, or something in its
body is malformed. -/
def Unscannable (u : SourceUnit) (f : ParsedFunction) : Prop :=
  u.parseError ≠ none ∨ f.body = none ∨
    ∃ body, f.body = some body ∧ ∃ x, OccursIn x body ∧ x.Malformed

/-- A function is asynchronous in a way that calls for migration: it takes a callback, or a
suspension stands in its body. -/
def ParsedFunction.Asynchronous (f : ParsedFunction) : Prop :=
  (∃ p ∈ f.signature.params, p.callback = true) ∨
    ∃ body, f.body = some body ∧ ∃ x, OccursIn x body ∧ x.Suspends

namespace SourceUnit

variable {u : SourceUnit} {f : ParsedFunction}

/-- A scan that finds no fault gives the patterns of declaration and body; one that does gives
nothing else. -/
theorem scanOf_spec (u : SourceUnit) (f : ParsedFunction) :
    (Unscannable u f ∧ ∃ reason,
      u.scanOf f = { function := f.signature.name, failure := some reason }) ∨
    (¬ Unscannable u f ∧ ∃ body, f.body = some body ∧ u.scanOf f =
      { function := f.signature.name
        patterns := declarationPatterns f.signature (closureDepth body)
          ++ forestPatterns f.signature.name 0 0 body }) := by
  unfold scanOf Unscannable
  rw [scanFunction_eq]
  cases hparse : u.parseError with
  | some error => exact Or.inl ⟨Or.inl nofun, _, rfl⟩
  | none =>
    cases hbody : f.body with
    | none => exact Or.inl ⟨Or.inr (Or.inl rfl), _, rfl⟩
    | some body =>
      have hsound := firstFault?_eq_none_iff body
      cases hfault : firstFault? body with
      | some fault =>
        refine Or.inl ⟨Or.inr (Or.inr ⟨body, rfl, ?_⟩), by simp [hfault]⟩
        simpa [hfault] using hsound
      | none =>
        refine Or.inr ⟨?_, body, rfl, by simp [hfault]⟩
        rintro (h | h | ⟨_, h, x, hx, hmal⟩)
        · exact h rfl
        · cases h
        · cases h
          exact hsound.1 hfault x hx hmal

theorem scanOf_failure_iff : (u.scanOf f).failure = none ↔ ¬ Unscannable u f := by
  rcases scanOf_spec u f with ⟨h, reason, hscan⟩ | ⟨h, body, -, hscan⟩
  · simp [h, hscan]
  · simp [h, hscan]

/-- A function that can be scanned has nothing to be migrated unless it is asynchronous. -/
theorem migrationPatterns_scanOf_iff (h : ¬ Unscannable u f) :
    (u.scanOf f).migrationPatterns = [] ↔ ¬ f.Asynchronous := by
  rcases scanOf_spec u f with ⟨h', -⟩ | ⟨-, body, hbody, hscan⟩
  · exact absurd h' h
  · have hmigrates : Migrates (u.scanOf f).patterns ↔ f.Asynchronous := by
      rw [hscan, migrates_append_iff, migrates_declarationPatterns_iff, migrates_forestPatterns_iff]
      simp [ParsedFunction.Asynchronous, hbody]
    rw [← hmigrates]
    simp [ScanReport.migrationPatterns, Migrates]

/-- A pattern of a function that is a suspension and names a callee is that of an element of its body
which does. -/
theorem exists_suspendsAround {p : Pattern} {callee : String} (h : p ∈ (u.scanOf f).patterns)
    (hp : p.kind.isSuspension = true) (hcallee : p.callee = some callee) :
    ∃ body, f.body = some body ∧ ∃ x, OccursIn x body ∧ x.SuspendsAround callee := by
  rcases scanOf_spec u f with ⟨-, reason, hscan⟩ | ⟨-, body, hbody, hscan⟩
  · rw [hscan] at h
    cases h
  · rw [hscan] at h
    rcases List.mem_append.1 h with h | h
    · rw [isSuspension_of_mem_declarationPatterns h] at hp
      cases hp
    · exact ⟨body, hbody, suspendsAround_of_mem_forestPatterns hp hcallee 0 0 body h⟩

theorem layered_scanOf (u : SourceUnit) (f : ParsedFunction) : Layered (u.scanOf f).patterns := by
  rcases scanOf_spec u f with ⟨-, reason, hscan⟩ | ⟨-, body, -, hscan⟩
  · rw [hscan]
    exact layered_nil
  · rw [hscan]
    exact (layered_declarationPatterns f.signature (closureDepth body)).append
      (layered_forestPatterns _ (Nat.le_refl 0) body)

end SourceUnit

namespace ScanReport

variable {r : ScanReport} {d : Int}

theorem maxNesting_of_nil (h : r.migrationPatterns = []) : r.maxNesting = 0 := by
  simp [maxNesting, h]

/-- The greatest depth is that of some pattern to be migrated. -/
theorem maxNesting_eq_iff (h : r.migrationPatterns ≠ []) :
    r.maxNesting = d ↔ (∃ p ∈ r.migrationPatterns, p.nestedDepth = d) ∧
      ∀ p ∈ r.migrationPatterns, p.nestedDepth ≤ d := by
  have hsome : (r.migrationPatterns.map (·.nestedDepth)).max? = some r.maxNesting := by
    unfold maxNesting
    cases hmax : (r.migrationPatterns.map (·.nestedDepth)).max? with
    | none => exact absurd (List.map_eq_nil_iff.1 (List.max?_eq_none_iff.1 hmax)) h
    | some d => rfl
  have hiff : r.maxNesting = d ↔ (r.migrationPatterns.map (·.nestedDepth)).max? = some d := by
    rw [hsome, Option.some.injEq]
  rw [hiff, List.max?_eq_some_iff]
  simp

theorem maxNesting_nonneg (h : Layered r.patterns) : 0 ≤ r.maxNesting := by
  by_cases hnil : r.migrationPatterns = []
  · exact Int.le_of_eq (maxNesting_of_nil hnil).symm
  · obtain ⟨⟨p, hp, hdepth⟩, -⟩ := (maxNesting_eq_iff hnil).1 rfl
    rw [← hdepth]
    exact (h p (List.mem_filter.1 hp).1).1

end ScanReport
end AsyncMigration
