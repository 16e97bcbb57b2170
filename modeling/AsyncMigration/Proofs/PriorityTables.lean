import AsyncMigration.Proofs.Rounding
import AsyncMigration.Proofs.Scores

/-!
# What a table says about priorities

A setting is the number under its key, if there is one that is accepted, and else its default. Only an
integer that is rounded to a number out of range makes a table unusable, and this comes before the
question of its sign. Each setting is determined by what stands under its key.

* `NumberSetting`, `IntegerSetting` — what a setting is, given what stands under its key.
* `ConfigTable.number_spec` — a number is refused only if it is out of range.
* `PrioritySettings.ofTable_exact` — the settings of a table.
-/

namespace AsyncMigration

open Binary64 (RoundsTo NonNegative)

/-! ## Settings -/

/-- The number that a value stands for. An integer stands for the one that it is rounded to, if that
is in range; a truth value is no integer. -/
inductive ConfigValue.StandsFor : ConfigValue → Binary64 → Prop
  | integer {i : Int} {q : Nat} (hq : RoundsTo (i.natAbs * Binary64.one) q)
      (hrange : q < Binary64.limit) : StandsFor (.integer i) (.finite (decide (i < 0)) q)
  | real (x : Binary64) : StandsFor (.real x) x

/-- A value is an integer that is rounded to a number out of range. -/
def ConfigValue.Overflows (v : ConfigValue) : Prop :=
  ∃ i q, v = .integer i ∧ RoundsTo (i.natAbs * Binary64.one) q ∧ Binary64.limit ≤ q

/-- A setting that is a number, given what stands under its key. -/
inductive NumberSetting (accepted : Binary64 → Prop) (default : Binary64) :
    Option ConfigValue → Binary64 → Prop
  | given {v : ConfigValue} {x : Binary64} (h : v.StandsFor x) (hx : accepted x) :
      NumberSetting accepted default (some v) x
  | refused {v : ConfigValue} {x : Binary64} (h : v.StandsFor x) (hx : ¬ accepted x) :
      NumberSetting accepted default (some v) default
  | misfit {v : ConfigValue} (h : ∀ x, ¬ v.StandsFor x) :
      NumberSetting accepted default (some v) default
  | missing : NumberSetting accepted default none default

/-- A setting that is an integer, given what stands under its key. -/
inductive IntegerSetting (default : Int) : Option ConfigValue → Int → Prop
  | given (i : Int) : IntegerSetting default (some (.integer i)) i
  | misfit {v : ConfigValue} (h : ∀ i, v ≠ .integer i) : IntegerSetting default (some v) default
  | missing : IntegerSetting default none default

/-- Settings are those that a table says. Weights have to be at least zero, which what is not a number
is not. -/
structure PrioritySettings.Follows (t : ConfigTable) (p : PrioritySettings) : Prop where
  nestingWeight : NumberSetting NonNegative (.ofSmall 2) (t.lookup "nesting_weight") p.nestingWeight
  callSiteWeight :
    NumberSetting NonNegative (.ofSmall 1) (t.lookup "call_site_weight") p.callSiteWeight
  redundantWrapperBonus :
    NumberSetting NonNegative (.ofSmall 5) (t.lookup "redundant_wrapper_bonus")
      p.redundantWrapperBonus
  mediumThreshold :
    NumberSetting (fun _ => True) (.ofSmall 2) (t.lookup "medium_threshold") p.mediumThreshold
  highThreshold :
    NumberSetting (fun _ => True) (.ofSmall 8) (t.lookup "high_threshold") p.highThreshold
  highNestingDepth : IntegerSetting 3 (t.lookup "high_nesting_depth") p.highNestingDepth

/-- The keys of the settings that are numbers. -/
def PrioritySettings.numberKeys : List String :=
  ["nesting_weight", "call_site_weight", "redundant_wrapper_bonus", "medium_threshold",
    "high_threshold"]

/-! ## One setting -/

namespace ConfigValue

variable {v : ConfigValue} {i : Int} {x y : Binary64}

theorem overflows_integer_iff :
    (integer i).Overflows ↔ Binary64.ofInt i = .error .outOfRange := by
  simp only [Binary64.ofInt]
  constructor
  · rintro ⟨j, q, hj, hq, hrange⟩
    cases hj
    obtain rfl := Binary64.roundsTo_iff.1 hq
    rw [if_neg (Nat.not_lt.2 hrange)]
  · intro h
    split at h
    · cases h
    · next hrange =>
      exact ⟨i, _, rfl, Binary64.roundsTo_roundRatio _, Nat.le_of_not_lt hrange⟩

theorem standsFor_integer_iff : (integer i).StandsFor x ↔ Binary64.ofInt i = .ok x := by
  constructor
  · intro h
    cases h with
    | integer hq hrange =>
      obtain rfl := Binary64.roundsTo_iff.1 hq
      simp only [Binary64.ofInt, if_pos hrange]
  · intro h
    simp only [Binary64.ofInt] at h
    split at h
    · next hrange =>
      cases h
      exact .integer (Binary64.roundsTo_roundRatio _) hrange
    · cases h

theorem StandsFor.unique (hx : v.StandsFor x) (hy : v.StandsFor y) : x = y := by
  cases hx with
  | real x =>
    cases hy
    rfl
  | integer hq hrange =>
    cases hy with
    | integer hq' hrange' => rw [hq.unique hq']

end ConfigValue

section

variable {accepted : Binary64 → Prop} {default x y : Binary64} {found : Option ConfigValue}

/-- A setting is determined by what stands under its key. -/
theorem NumberSetting.unique (hx : NumberSetting accepted default found x)
    (hy : NumberSetting accepted default found y) : x = y := by
  cases hx with
  | given h hx =>
    cases hy with
    | given h' _ => exact h.unique h'
    | refused h' hy => exact absurd (h.unique h' ▸ hx) hy
    | misfit h' => exact absurd h (h' _)
  | refused h hx =>
    cases hy with
    | given h' hy => exact absurd (h'.unique h ▸ hy) hx
    | refused _ _ => rfl
    | misfit _ => rfl
  | misfit h =>
    cases hy with
    | given h' _ => exact absurd h' (h _)
    | refused _ _ => rfl
    | misfit _ => rfl
  | missing =>
    cases hy
    rfl

theorem IntegerSetting.unique {default i j : Int} (hi : IntegerSetting default found i)
    (hj : IntegerSetting default found j) : i = j := by
  cases hi <;> cases hj <;> simp_all

theorem PrioritySettings.Follows.unique {t : ConfigTable} {p p' : PrioritySettings}
    (h : p.Follows t) (h' : p'.Follows t) : p = p' := by
  cases p
  cases p'
  simp only [mk.injEq]
  exact ⟨h.nestingWeight.unique h'.nestingWeight, h.callSiteWeight.unique h'.callSiteWeight,
    h.redundantWrapperBonus.unique h'.redundantWrapperBonus,
    h.mediumThreshold.unique h'.mediumThreshold, h.highThreshold.unique h'.highThreshold,
    h.highNestingDepth.unique h'.highNestingDepth⟩

end

/-! ## Tables -/

/-- There is an answer as specified, unless a number is out of range; then there is none. -/
def GivesUnless {α : Type} (overflow : Prop) (spec : α → Prop)
    (x : Except Binary64.ConversionError α) : Prop :=
  (overflow ∧ x = .error .outOfRange) ∨ (¬ overflow ∧ ∃ a, x = .ok a ∧ spec a)

namespace GivesUnless

variable {α β : Type} {overflow overflow' : Prop} {spec : α → Prop} {spec' : β → Prop}
  {x : Except Binary64.ConversionError α}

theorem pure {a : α} (h : spec a) :
    GivesUnless False spec (pure a : Except Binary64.ConversionError α) :=
  Or.inr ⟨not_false, a, rfl, h⟩

theorem bind {f : α → Except Binary64.ConversionError β} (hx : GivesUnless overflow spec x)
    (hf : ∀ a, spec a → GivesUnless overflow' spec' (f a)) :
    GivesUnless (overflow ∨ overflow') spec' (x >>= f) := by
  rcases hx with ⟨hover, rfl⟩ | ⟨hfits, a, rfl, ha⟩
  · exact Or.inl ⟨Or.inl hover, rfl⟩
  · rcases hf a ha with ⟨hover, hfa⟩ | ⟨hfits', hfa⟩
    · exact Or.inl ⟨Or.inr hover, hfa⟩
    · exact Or.inr ⟨not_or.2 ⟨hfits, hfits'⟩, hfa⟩

theorem eq_error_iff (hx : GivesUnless overflow spec x) : x = .error .outOfRange ↔ overflow := by
  rcases hx with ⟨hover, rfl⟩ | ⟨hfits, a, rfl, -⟩
  · simp [hover]
  · simp [hfits]

end GivesUnless

namespace ConfigTable

/-- An integer out of range stands under a key. -/
def OverflowsAt (t : ConfigTable) (key : String) : Prop := ∃ v, t.lookup key = some v ∧ v.Overflows

variable {t t' : ConfigTable} {key : String}

/-- A number is refused only if it is out of range; else it is the setting if it is accepted, and the
default is if not. -/
theorem number_spec (t : ConfigTable) (key : String) (default : Binary64)
    (accepts : Binary64 → Bool) {accepted : Binary64 → Prop}
    (h : ∀ x, accepted x ↔ accepts x = true) :
    GivesUnless (t.OverflowsAt key)
      (fun x => NumberSetting accepted default (t.lookup key) (if accepts x then x else default))
      (t.number key default) := by
  have hcheck : ∀ v x, v.StandsFor x →
      NumberSetting accepted default (some v) (if accepts x then x else default) := by
    intro v x hx
    split
    · next haccepts => exact .given hx ((h x).2 haccepts)
    · next haccepts => exact .refused hx (mt (h x).1 haccepts)
  unfold GivesUnless OverflowsAt number
  cases t.lookup key with
  | none =>
    refine Or.inr ⟨by simp, default, rfl, ?_⟩
    simp only [ite_self]
    exact .missing
  | some v =>
    simp only [Option.some.injEq, exists_eq_left']
    cases v with
    | integer i =>
      simp only [ConfigValue.overflows_integer_iff]
      cases hi : Binary64.ofInt i with
      | error e =>
        cases e
        exact Or.inl ⟨rfl, rfl⟩
      | ok x =>
        refine Or.inr ⟨by simp, x, rfl, ?_⟩
        exact hcheck _ _ (ConfigValue.standsFor_integer_iff.2 hi)
    | real x =>
      refine Or.inr ⟨?_, x, rfl, hcheck _ _ (.real x)⟩
      rintro ⟨i, q, hi, -⟩
      cases hi
    | _ =>
      refine Or.inr ⟨?_, default, rfl, ?_⟩
      · rintro ⟨i, q, hi, -⟩
        cases hi
      · simp only [ite_self]
        exact .misfit fun x hx => by cases hx

theorem threshold_spec (t : ConfigTable) (key : String) (default : Binary64) :
    GivesUnless (t.OverflowsAt key) (NumberSetting (fun _ => True) default (t.lookup key))
      (t.number key default) :=
  t.number_spec key default (fun _ => true) fun _ => by simp

theorem weight_spec (t : ConfigTable) (key : String) (default : Binary64) :
    GivesUnless (t.OverflowsAt key) (NumberSetting NonNegative default (t.lookup key))
      (t.weight key default) := by
  have hweight := (t.number_spec key default _ fun _ => Binary64.nonNegative_iff).bind
    (f := fun x => pure (if Binary64.zero.le x then x else default)) fun x hx => .pure hx
  rw [or_false] at hweight
  exact hweight

theorem integer_spec (t : ConfigTable) (key : String) (default : Int) :
    IntegerSetting default (t.lookup key) (t.integer key default) := by
  unfold integer
  cases t.lookup key with
  | none => exact .missing
  | some v =>
    cases v with
    | integer i => exact .given i
    | _ => exact .misfit fun i hi => by cases hi

theorem number_congr (h : t'.lookup key = t.lookup key) (default : Binary64) :
    t'.number key default = t.number key default := by
  unfold number
  rw [h]

theorem weight_congr (h : t'.lookup key = t.lookup key) (default : Binary64) :
    t'.weight key default = t.weight key default := by
  unfold weight
  rw [number_congr h]

theorem integer_congr (h : t'.lookup key = t.lookup key) (default : Int) :
    t'.integer key default = t.integer key default := by
  unfold integer
  rw [h]

end ConfigTable

namespace PrioritySettings

/-- A table gives what it says, unless a number is out of range. -/
theorem ofTable_gives (t : ConfigTable) :
    GivesUnless (∃ key ∈ numberKeys, t.OverflowsAt key) (fun p => p.Follows t) (ofTable t) := by
  simp only [numberKeys, List.mem_cons, List.not_mem_nil, or_false, exists_eq_or_imp, exists_eq_left]
  rw [← or_false (t.OverflowsAt "high_threshold")]
  refine (t.weight_spec "nesting_weight" (.ofSmall 2)).bind fun w₁ h₁ => ?_
  refine (t.weight_spec "call_site_weight" (.ofSmall 1)).bind fun w₂ h₂ => ?_
  refine (t.weight_spec "redundant_wrapper_bonus" (.ofSmall 5)).bind fun w₃ h₃ => ?_
  refine (t.threshold_spec "medium_threshold" (.ofSmall 2)).bind fun w₄ h₄ => ?_
  refine (t.threshold_spec "high_threshold" (.ofSmall 8)).bind fun w₅ h₅ => ?_
  exact .pure ⟨h₁, h₂, h₃, h₄, h₅, t.integer_spec "high_nesting_depth" 3⟩

theorem ofTable_congr {t t' : ConfigTable}
    (h : ∀ key ∈ numberKeys ++ ["high_nesting_depth"], t'.lookup key = t.lookup key) :
    ofTable t' = ofTable t := by
  simp only [numberKeys, List.cons_append, List.nil_append, List.forall_mem_cons] at h
  obtain ⟨h₁, h₂, h₃, h₄, h₅, h₆, -⟩ := h
  simp only [ofTable, ConfigTable.weight_congr h₁, ConfigTable.weight_congr h₂,
    ConfigTable.weight_congr h₃, ConfigTable.number_congr h₄, ConfigTable.number_congr h₅,
    ConfigTable.integer_congr h₆]

/-- **The settings of a table.** A table is unusable if and only if a number is asked for under a key
where there is an integer that is rounded to one out of range, which it is from 2¹⁰²⁴ - 2⁹⁷⁰ on,
whatever its sign. Any other table gives the settings that it says and no others, and these depend on
nothing but what stands under the six keys. -/
theorem ofTable_exact (t : ConfigTable) :
    (ofTable t = .error .outOfRange ↔ ∃ key ∈ numberKeys, t.OverflowsAt key) ∧
    (∀ i : Int, (ConfigValue.integer i).Overflows ↔ 2 ^ 1024 - 2 ^ 970 ≤ i.natAbs) ∧
    ((¬ ∃ key ∈ numberKeys, t.OverflowsAt key) →
      ∃ p, ofTable t = .ok p ∧ ∀ p' : PrioritySettings, p'.Follows t ↔ p' = p) ∧
    ∀ t' : ConfigTable,
      (∀ key ∈ numberKeys ++ ["high_nesting_depth"], t'.lookup key = t.lookup key) →
      ofTable t' = ofTable t := by
  refine ⟨(ofTable_gives t).eq_error_iff, fun i => ?_, fun hfits => ?_, fun t' => ofTable_congr⟩
  · rw [ConfigValue.overflows_integer_iff, Binary64.ofInt_eq_error_iff, Binary64.OutOfRange]
    omega
  · rcases ofTable_gives t with ⟨hover, -⟩ | ⟨-, p, hp, hfollows⟩
    · exact absurd hover hfits
    · refine ⟨p, hp, fun p' => ⟨fun h => h.unique hfollows, ?_⟩⟩
      rintro rfl
      exact hfollows

/-- A table with a negative zero, with what is not a number, with the least and the greatest integer in
range, with a truth value for a number and with a number for an integer. -/
def cornerTable : ConfigTable :=
  [("nesting_weight", .real (.finite true 0)), ("call_site_weight", .real .nan),
   ("redundant_wrapper_bonus", .integer (-(2 ^ 1024 - 2 ^ 970 - 1 : Nat))),
   ("medium_threshold", .truth true), ("high_threshold", .integer (2 ^ 1024 - 2 ^ 970 - 1 : Nat)),
   ("high_nesting_depth", .real (.ofSmall 1))]

/-- In that table the negative zero and the threshold count, and all else gives way to the defaults. An
integer out of range under another key changes nothing, and makes the table unusable under a key for a
number. -/
theorem ofTable_exact_corners :
    (¬ ∃ key ∈ numberKeys, ConfigTable.OverflowsAt cornerTable key) ∧
    (∃ p, ofTable cornerTable = .ok p ∧ (∀ p' : PrioritySettings, p'.Follows cornerTable ↔ p' = p) ∧
      p.nestingWeight = .finite true 0 ∧ p.highThreshold = .finite false (2 ^ 2098 - 2 ^ 2045) ∧
      p = { nestingWeight := p.nestingWeight, highThreshold := p.highThreshold }) ∧
    ofTable (("colour", .integer (2 ^ 1024 : Nat)) :: cornerTable) = ofTable cornerTable ∧
    ofTable (("high_threshold", .integer (-(2 ^ 1024 - 2 ^ 970 : Nat))) :: cornerTable)
      = .error .outOfRange := by
  obtain ⟨herror, -, hgives, hother⟩ := ofTable_exact cornerTable
  obtain ⟨herror', hover, -, -⟩ :=
    ofTable_exact (("high_threshold", .integer (-(2 ^ 1024 - 2 ^ 970 : Nat))) :: cornerTable)
  have hok : ofTable cornerTable = .ok
      { nestingWeight := .finite true 0, highThreshold := .finite false (2 ^ 2098 - 2 ^ 2045) } := by
    decide +kernel
  have hfits : ¬ ∃ key ∈ numberKeys, ConfigTable.OverflowsAt cornerTable key := by
    intro hoverflows
    cases (herror.2 hoverflows).symm.trans hok
  have hlookup : List.lookup "high_threshold"
      (("high_threshold", ConfigValue.integer (-(2 ^ 1024 - 2 ^ 970 : Nat))) :: cornerTable)
      = some (.integer (-(2 ^ 1024 - 2 ^ 970 : Nat))) := rfl
  have hsize : 2 ^ 1024 - 2 ^ 970 ≤ (-((2 ^ 1024 - 2 ^ 970 : Nat) : Int)).natAbs :=
    Nat.le_of_eq (by rw [Int.natAbs_neg, Int.natAbs_natCast])
  refine ⟨hfits, ?_, hother _ ?_,
    herror'.2 ⟨"high_threshold", by simp [numberKeys], _, hlookup, (hover _).2 hsize⟩⟩
  · obtain ⟨p, hp, hfollows⟩ := hgives hfits
    obtain rfl := Except.ok.inj (hok.symm.trans hp)
    exact ⟨_, hp, hfollows, rfl, rfl, rfl⟩
  · intro key hkey
    have hne : (key == "colour") = false := by
      simp only [beq_eq_false_iff_ne]
      rintro rfl
      revert hkey
      decide
    simp only [List.lookup_cons, hne]

end PrioritySettings
end AsyncMigration
