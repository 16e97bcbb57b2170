import AsyncMigration.FrontEnd.Registry
import AsyncMigration.Proofs.Reach
import Mathlib.Data.List.Induction

/-!
# What a registry has been told

A registry keeps two tables, by language and by suffix, and a front end that is registered may take
over a language and leave the suffixes of its predecessor alone, or the other way round. What is
selected can be read off the registrations, the default being the first of them: the last one counts,
for each language and for each suffix on its own.

* `Registry.Reflects` — both tables tell of each key the last front end registered for it.
* `Registry.Reflects.after` — so they do after any calls.
* `Registry.selection_exact` — what is selected after any calls, and that selecting leaves no trace.
-/

namespace AsyncMigration

/-! ## First and last members -/

section Members

variable {β : Type} {p : β → Prop} {l : List β} {x b : β}

/-- A member of a list is the first one with a property. -/
def FirstWith (p : β → Prop) (l : List β) (b : β) : Prop :=
  ∃ before after, l = before ++ b :: after ∧ p b ∧ ∀ x ∈ before, ¬ p x

/-- A member of a list is the last one with a property. -/
def LastWith (p : β → Prop) (l : List β) (b : β) : Prop :=
  ∃ before after, l = before ++ b :: after ∧ p b ∧ ∀ x ∈ after, ¬ p x

theorem not_lastWith_nil : ¬ LastWith p [] b := by
  rintro ⟨before, after, hl, -⟩
  exact List.cons_ne_nil _ _ (List.append_eq_nil_iff.1 hl.symm).2

/-- What is added at the end counts if it has the property, and changes nothing if not. -/
theorem lastWith_concat : LastWith p (l ++ [x]) b ↔ (p x ∧ x = b) ∨ (¬ p x ∧ LastWith p l b) := by
  constructor
  · rintro ⟨before, after, hl, hb, hafter⟩
    -- either nothing comes after the last one, or what was added is the end of that
    rcases List.eq_nil_or_concat after with rfl | ⟨after, y, rfl⟩
    · obtain ⟨-, hx⟩ := List.append_inj' hl rfl
      obtain rfl := List.singleton_inj.1 hx
      exact Or.inl ⟨hb, rfl⟩
    · rw [List.concat_eq_append, ← List.cons_append, ← List.append_assoc] at hl
      obtain ⟨rfl, hx⟩ := List.append_inj' hl rfl
      obtain rfl := List.singleton_inj.1 hx
      refine Or.inr ⟨hafter x (by simp), before, after, rfl, hb, fun y hy => hafter y (by simp [hy])⟩
  · rintro (⟨hx, rfl⟩ | ⟨hx, before, after, rfl, hb, hafter⟩)
    · exact ⟨l, [], rfl, hx, fun y hy => by cases hy⟩
    · refine ⟨before, after ++ [x], by simp, hb, fun y hy => ?_⟩
      rcases List.mem_append.1 hy with hy | hy
      · exact hafter y hy
      · rw [List.mem_singleton.1 hy]
        exact hx

theorem exists_lastWith_iff : (∃ b, LastWith p l b) ↔ ∃ x ∈ l, p x := by
  constructor
  · rintro ⟨b, before, after, rfl, hb, -⟩
    exact ⟨b, by simp, hb⟩
  · induction l using List.reverseRecOn with
    | nil => rintro ⟨x, hx, -⟩; cases hx
    | append_singleton l y ih =>
      rintro ⟨x, hx, hpx⟩
      by_cases hy : p y
      · exact ⟨y, lastWith_concat.2 (Or.inl ⟨hy, rfl⟩)⟩
      · have hx : x ∈ l := by
          rcases List.mem_append.1 hx with hx | hx
          · exact hx
          · rw [List.mem_singleton.1 hx] at hpx
            exact absurd hpx hy
        obtain ⟨b, hb⟩ := ih ⟨x, hx, hpx⟩
        exact ⟨b, lastWith_concat.2 (Or.inr ⟨hy, hb⟩)⟩

end Members

variable {α : Type}

/-- A front end claims the suffix of a path; case does not matter. -/
def FrontEnd.Claims (f : FrontEnd α) (p : PathName) : Prop :=
  Text.lower p.suffix ∈ f.extensions.map Text.lower

namespace Registry

variable {r : Registry α} {known : List (FrontEnd α)}

/-! ## Tables and registrations -/

/-- A front end that is registered takes the suffixes over that it lists. -/
theorem bySuffix_register (r : Registry α) (f : FrontEnd α) (suffix : String) :
    (r.register f).bySuffix.get? suffix =
      if suffix ∈ f.extensions.map Text.lower then some f else r.bySuffix.get? suffix := by
  unfold register
  dsimp only
  generalize r.bySuffix = t
  induction f.extensions using List.reverseRecOn with
  | nil => rfl
  | append_singleton es e ih =>
    rw [List.foldl_append, List.foldl_cons, List.foldl_nil, Table.get?_insert, ih]
    by_cases he : Text.lower e = suffix
    · simp [he]
    · simp [he, Ne.symm he]

/-- Of each language and each suffix the tables tell the last front end registered for it. -/
structure Reflects (r : Registry α) (known : List (FrontEnd α)) : Prop where
  language : ∀ id f, r.byLanguage.get? id = some f ↔
    LastWith (fun x => Text.lower x.language = id) known f
  suffix : ∀ suffix f, r.bySuffix.get? suffix = some f ↔
    LastWith (fun x => suffix ∈ x.extensions.map Text.lower) known f

theorem reflects_nil (d : FrontEnd α) : ({ default := d } : Registry α).Reflects [] := by
  refine ⟨fun id f => ?_, fun suffix f => ?_⟩ <;>
    exact ⟨(fun h => by cases h), fun h => absurd h not_lastWith_nil⟩

theorem Reflects.register (h : r.Reflects known) (f : FrontEnd α) :
    (r.register f).Reflects (known ++ [f]) := by
  refine ⟨fun id x => ?_, fun suffix x => ?_⟩
  · rw [byLanguage_register, lastWith_concat, ← h.language]
    split
    · next hid => simp [hid]
    · next hid => simp [hid]
  · rw [bySuffix_register, lastWith_concat, ← h.suffix]
    split
    · next hclaims => simp only [hclaims, Option.some.injEq, true_and, not_true, false_and, or_false]
    · next hclaims => simp only [hclaims, false_and, not_false_eq_true, true_and, false_or]

namespace Reflects

variable (h : r.Reflects known)

include h

theorem language_none (id : String) :
    r.byLanguage.get? id = none ↔ ∀ x ∈ known, Text.lower x.language ≠ id := by
  rw [← not_iff_not, ← ne_eq, Option.ne_none_iff_exists']
  simp only [h.language, exists_lastWith_iff]
  simp

theorem suffix_none (suffix : String) : r.bySuffix.get? suffix = none ↔
    ∀ x ∈ known, suffix ∉ x.extensions.map Text.lower := by
  rw [← not_iff_not, ← ne_eq, Option.ne_none_iff_exists']
  simp only [h.suffix, exists_lastWith_iff]
  simp

theorem mem_languages (id : String) :
    id ∈ r.languages ↔ ∃ x ∈ known, Text.lower x.language = id := by
  rw [languages, NameSet.mem_ofList, Table.mem_keys, Table.contains, Option.isSome_iff_exists]
  simp only [h.language, exists_lastWith_iff]

theorem forLanguage_ok (language : String) (f : FrontEnd α) : r.forLanguage language = .ok f ↔
    LastWith (fun x => Text.lower x.language = Text.lower language) known f := by
  rw [← h.language, forLanguage]
  cases r.byLanguage.get? (Text.lower language) <;> simp

theorem forLanguage_error (language : String) (e : UnknownFrontEnd) :
    r.forLanguage language = .error e ↔
      (∀ x ∈ known, Text.lower x.language ≠ Text.lower language) ∧ e = ⟨language, r.languages⟩ := by
  rw [← h.language_none, forLanguage]
  cases r.byLanguage.get? (Text.lower language) <;> simp [eq_comm]

/-- The first path whose suffix is claimed decides, and for its suffix the last to claim it. -/
theorem forPaths_cases (paths : List PathName) :
    (∃ p, FirstWith (fun p => ∃ x ∈ known, x.Claims p) paths p ∧
      LastWith (·.Claims p) known (r.forPaths paths)) ∨
    ((∀ p ∈ paths, ∀ x ∈ known, ¬ x.Claims p) ∧ r.forPaths paths = r.default) := by
  unfold forPaths
  cases hfind : paths.findSome? fun p => r.bySuffix.get? (Text.lower p.suffix) with
  | none =>
    refine Or.inr ⟨fun p hp => ?_, rfl⟩
    exact (h.suffix_none _).1 (List.findSome?_eq_none_iff.1 hfind p hp)
  | some f =>
    obtain ⟨before, p, after, hpaths, hp, hbefore⟩ := List.findSome?_eq_some_iff.1 hfind
    -- the tables were asked path by path, so no path before this one is claimed
    have hlast : LastWith (·.Claims p) known f := (h.suffix _ f).1 hp
    refine Or.inl ⟨p, ⟨before, after, hpaths, exists_lastWith_iff.1 ⟨f, hlast⟩, ?_⟩, hlast⟩
    rintro q hq ⟨x, hx, hclaims⟩
    exact (h.suffix_none _).1 (hbefore q hq) x hx hclaims

end Reflects

/-! ## Calls -/

/-- A call to a registry. -/
inductive Call (α : Type) where
  | register (f : FrontEnd α)
  | languages
  | select (paths : List PathName) (language : Option String)

/-- The outcome of a call. -/
inductive Outcome (α : Type) where
  | registered
  | listed (ids : List String)
  | selected (result : Except UnknownFrontEnd (FrontEnd α))

/-- What a call does and what comes of it. -/
def serve (r : Registry α) : Call α → Registry α × Outcome α
  | .register f => (r.register f, .registered)
  | .languages => (r, .listed r.languages)
  | .select paths language => (r, .selected (r.select paths language))

/-- The registry after calls. -/
def after (r : Registry α) (calls : List (Call α)) : Registry α :=
  calls.foldl (fun r call => (r.serve call).1) r

/-- What comes of calls, one after another. -/
def outcomes (r : Registry α) : List (Call α) → List (Outcome α)
  | [] => []
  | call :: calls => (r.serve call).2 :: (r.serve call).1.outcomes calls

/-- The front ends that calls register, in order. -/
def registrations : List (Call α) → List (FrontEnd α)
  | [] => []
  | .register f :: calls => f :: registrations calls
  | _ :: calls => registrations calls

/-- Calls do to a registry what their registrations do. -/
theorem after_eq_foldl (r : Registry α) (calls : List (Call α)) :
    r.after calls = (registrations calls).foldl register r := by
  induction calls generalizing r with
  | nil => rfl
  | cons call calls ih => cases call <;> exact ih _

theorem Reflects.after (h : r.Reflects known) (calls : List (Call α)) :
    (r.after calls).Reflects (known ++ registrations calls) := by
  rw [after_eq_foldl]
  generalize registrations calls = fs
  induction fs generalizing r known with
  | nil => simpa using h
  | cons f fs ih => simpa using ih (h.register f)

theorem default_after (r : Registry α) (calls : List (Call α)) :
    (r.after calls).default = r.default := by
  induction calls generalizing r with
  | nil => rfl
  | cons call calls ih => cases call <;> exact ih _

/-- **What is selected.** After any calls to the registry of a default, with `known` the default and
then all that was registered: a language selects the last front end known under it. If there is none,
the languages known are listed, in lower case and in order, each once. Without a language, the first
path whose suffix is claimed by any front end known selects the last one that claims it, even if its
language has been taken over; if no path has a claimed suffix, the default is selected. Selecting
changes nothing that comes of later calls, and calls that register the same do the same. -/
theorem selection_exact (d : FrontEnd α) (calls : List (Call α)) :
    let r := (ofDefault d).after calls
    let known := d :: registrations calls
    (∀ paths language f, r.select paths (some language) = .ok f ↔
      LastWith (fun x => Text.lower x.language = Text.lower language) known f) ∧
    (∀ paths language e, r.select paths (some language) = .error e ↔
      (∀ x ∈ known, Text.lower x.language ≠ Text.lower language) ∧ e = ⟨language, r.languages⟩) ∧
    (r.languages.Pairwise (· < ·) ∧
      ∀ id, id ∈ r.languages ↔ ∃ x ∈ known, Text.lower x.language = id) ∧
    (∀ paths, ∃ f, r.select paths none = .ok f ∧
      ((∃ p, FirstWith (fun p => ∃ x ∈ known, x.Claims p) paths p ∧ LastWith (·.Claims p) known f) ∨
        ((∀ p ∈ paths, ∀ x ∈ known, ¬ x.Claims p) ∧ f = d))) ∧
    (∀ paths language later, r.outcomes (.select paths language :: later)
      = .selected (r.select paths language) :: r.outcomes later) ∧
    ∀ calls', registrations calls' = registrations calls →
      ∀ later, ((ofDefault d).after calls').outcomes later = r.outcomes later := by
  intro r known
  have hr : r.Reflects known := ((reflects_nil d).register d).after calls
  have hdefault : r.default = d := default_after (ofDefault d) calls
  refine ⟨fun paths => hr.forLanguage_ok, fun paths => hr.forLanguage_error,
    ⟨NameSet.pairwise_foldr_insertName .nil, hr.mem_languages⟩, fun paths => ?_,
    fun paths language later => rfl, fun calls' hsame later => ?_⟩
  · exact ⟨r.forPaths paths, rfl, hdefault ▸ hr.forPaths_cases paths⟩
  · rw [after_eq_foldl, hsame, ← after_eq_foldl]

/-- Two front ends of one language, the second of which leaves the suffix of the first alone, with a
selection between their registrations. -/
def takingOver : List (Call String) :=
  [.register ⟨"Swift", [".AST"], "first"⟩, .select [] (some "swift"),
    .register ⟨"SWIFT", [".tree"], "second"⟩]

/-- The second front end has the language; without the selection all would be the same. -/
theorem selection_exact_takingOver :
    let r := (ofDefault ⟨"json", [".json"], "default"⟩).after takingOver
    let calls' : List (Call String) :=
      [.register ⟨"Swift", [".AST"], "first"⟩, .register ⟨"SWIFT", [".tree"], "second"⟩]
    r.select [] (some "sWift") = .ok ⟨"SWIFT", [".tree"], "second"⟩ ∧
      r.select [] (some "cobol") = .error ⟨"cobol", r.languages⟩ ∧
      registrations calls' = registrations takingOver ∧
      ((ofDefault ⟨"json", [".json"], "default"⟩).after calls').outcomes [.select [.ofText "a.ast"] none]
        = r.outcomes [.select [.ofText "a.ast"] none] := by
  intro r calls'
  obtain ⟨hok, herror, -, -, -, hsame⟩ :=
    selection_exact (⟨"json", [".json"], "default"⟩ : FrontEnd String) takingOver
  refine ⟨(hok [] "sWift" _).2 ⟨[_, _], [], rfl, by decide +kernel, fun x hx => by cases hx⟩,
    (herror [] "cobol" _).2 ⟨?_, rfl⟩, rfl, hsame calls' rfl _⟩
  simp only [takingOver, registrations, List.forall_mem_cons]
  exact ⟨by decide +kernel, by decide +kernel, by decide +kernel, fun x hx => by cases hx⟩

end Registry
end AsyncMigration
