import AsyncMigration.Config.Settings
import AsyncMigration.Proofs.History
import AsyncMigration.Proofs.Range
import Mathlib.Data.ENat.Basic

/-!
# Scores rise with what they are made from

Rounding keeps the order of what is rounded. Weights from a table are not negative, so the sums and
products behind a score are rounded from numbers without a sign, and more depth or more calls can only
raise them. An infinite weight makes a score that is not a number out of a depth of zero; such a score
reaches no threshold, and so it may only be left for a better one.

* `Binary64.roundRatio_mono` — rounding keeps the order.
* `Binary64.Rises` — one score is not a number, or it is not above the other.
* `PrioritySignals.rises_score` — scores rise with depths and calls.
* `Category.rank_priority_le` — and so do tiers.
* `PrioritySettings.priorities_ordered` — priorities are ordered for every table of settings.
-/

namespace AsyncMigration
namespace Binary64

/-! ## Rounding -/

variable {m n d : Nat}

theorem nearest_le (n d : Nat) : nearest n d ≤ n / d + 1 := by
  unfold nearest
  dsimp only
  split <;> omega

theorem nearest_mono (h : m ≤ n) (d : Nat) : nearest m d ≤ nearest n d := by
  have hq : m / d ≤ n / d := Nat.div_le_div_right h
  have hm := Nat.div_add_mod m d
  have hn := Nat.div_add_mod n d
  unfold nearest
  dsimp only
  rcases Nat.lt_or_eq_of_le hq with hlt | heq
  · split <;> split <;> omega
  · rw [heq] at hm ⊢
    have hr : m % d ≤ n % d := by omega
    split <;> split <;> omega

/-- Rounding reaches the next power of two at most. -/
theorem roundRatio_le_two_pow (n d : Nat) : roundRatio n d ≤ 2 ^ ((n / d).log2 + 1) := by
  have hexcess : excess (n / d) ≤ (n / d).log2 + 1 := by
    unfold excess
    omega
  have hsplit : 2 ^ ((n / d).log2 + 1)
      = 2 ^ ((n / d).log2 + 1 - excess (n / d)) * 2 ^ excess (n / d) := by
    rw [← Nat.pow_add, Nat.sub_add_cancel hexcess]
  have hdiv : n / (d * 2 ^ excess (n / d)) < 2 ^ ((n / d).log2 + 1 - excess (n / d)) := by
    rw [← Nat.div_div_eq_div_mul, Nat.div_lt_iff_lt_mul (Nat.two_pow_pos _), ← hsplit]
    exact Nat.lt_log2_self
  rw [hsplit]
  exact Nat.mul_le_mul_right _ (Nat.le_trans (nearest_le _ _) hdiv)

theorem log2_mono (h : m ≤ n) : m.log2 ≤ n.log2 := by
  by_cases hm : m = 0
  · simp [hm]
  · exact (Nat.le_log2 (by omega)).2 (Nat.le_trans (Nat.log2_self_le hm) h)

/-- Rounding keeps the order: within one unit because the nearest multiples do, and across units
because a power of two lies between. -/
theorem roundRatio_mono (h : m ≤ n) (d : Nat) : roundRatio m d ≤ roundRatio n d := by
  have hlog : (m / d).log2 ≤ (n / d).log2 := log2_mono (Nat.div_le_div_right h)
  by_cases hunit : excess (m / d) = excess (n / d)
  · unfold roundRatio
    rw [hunit]
    exact Nat.mul_le_mul_right _ (nearest_mono h _)
  · have hlt : (m / d).log2 + 1 ≤ (n / d).log2 := by
      unfold excess at hunit
      omega
    have hn : n / d ≠ 0 := by
      intro hzero
      simp [hzero] at hlt
    calc roundRatio m d ≤ 2 ^ ((m / d).log2 + 1) := roundRatio_le_two_pow m d
      _ ≤ 2 ^ (n / d).log2 := Nat.pow_le_pow_right Nat.two_pos hlt
      _ ≤ roundRatio n d := two_pow_log2_le_roundRatio hn

/-! ## Numbers that are not negative -/

variable {x x' y y' t w : Binary64}

/-- A number is not negative; a zero may have either sign. -/
inductive NonNegative : Binary64 → Prop
  | infinite : NonNegative (infinite false)
  | finite {s : Bool} {n : Nat} (h : s = true → n = 0) : NonNegative (finite s n)

theorem nonNegative_iff : NonNegative x ↔ zero.le x = true := by
  constructor
  · intro h
    cases h with
    | infinite => rfl
    | @finite s n h => cases s <;> simp_all [zero, le, signed]
  · intro h
    cases x with
    | nan => cases h
    | infinite s =>
      cases s with
      | true => cases h
      | false => exact .infinite
    | finite s n =>
      refine .finite fun hs => ?_
      simp only [zero, le, signed, hs, decide_eq_true_eq, if_true] at h
      omega

/-- The count of quanta of a number without its sign. -/
def size : Binary64 → ℕ∞
  | nan => 0
  | infinite _ => ⊤
  | finite _ n => n

/-- What a count of quanta is rounded to. -/
def roundedSize (d : Nat) : ℕ∞ → ℕ∞
  | ⊤ => ⊤
  | (n : Nat) => if roundRatio n d < limit then roundRatio n d else ⊤

theorem roundedSize_mono {a b : ℕ∞} (h : a ≤ b) (d : Nat) : roundedSize d a ≤ roundedSize d b := by
  cases b with
  | top => exact le_top
  | coe n =>
    lift a to Nat using ne_top_of_le_ne_top (ENat.natCast_ne_top n) h
    have hround := roundRatio_mono (Nat.cast_le.1 h) d
    simp only [roundedSize]
    split
    · split
      · exact Nat.cast_le.2 hround
      · exact le_top
    · rw [if_neg (by omega)]

theorem limit_pos : 0 < limit := by decide +kernel

theorem roundRatio_zero (d : Nat) : roundRatio 0 d = 0 := by
  simp [roundRatio, nearest]

theorem ofRatio_spec {s : Bool} (h : s = true → n = 0) (d : Nat) :
    NonNegative (ofRatio s n d) ∧ (ofRatio s n d).size = roundedSize d n := by
  have hs : s = true → roundRatio n d = 0 := by
    intro hs
    rw [h hs, roundRatio_zero]
  simp only [ofRatio, roundedSize]
  split
  · exact ⟨.finite hs, rfl⟩
  · next hlimit =>
    cases s with
    | false => exact ⟨.infinite, rfl⟩
    | true =>
      rw [hs rfl] at hlimit
      exact absurd limit_pos hlimit

theorem ofRatio_zero (s : Bool) (d : Nat) : ofRatio s 0 d = finite s 0 := by
  simp [ofRatio, roundRatio_zero, limit_pos]

theorem add_spec (hx : NonNegative x) (hy : NonNegative y) :
    NonNegative (x.add y) ∧ (x.add y).size = roundedSize 1 (x.size + y.size) := by
  cases hx with
  | infinite => cases hy <;> exact ⟨.infinite, rfl⟩
  | @finite s m hm =>
    cases hy with
    | infinite => exact ⟨.infinite, rfl⟩
    | @finite t n hn =>
      -- where the signs differ one of the numbers is zero, and the sum is the other
      have hsum : ∃ u : Bool, (u = true → m + n = 0) ∧
          (finite s m).add (finite t n) = ofRatio u (m + n) 1 := by
        cases s with
        | false =>
          refine ⟨false, nofun, ?_⟩
          cases t with
          | false => simp [add]
          | true =>
            obtain rfl := hn rfl
            by_cases hm0 : m = 0
            · simp [add, hm0, ofRatio_zero, zero]
            · simp [add, hm0, Nat.pos_of_ne_zero]
        | true =>
          obtain rfl := hm rfl
          refine ⟨t, fun ht => by simp [hn ht], ?_⟩
          by_cases hn0 : n = 0
          · cases t <;> simp [add, hn0, ofRatio_zero, zero]
          · cases t <;> simp_all [add, eq_comm]
      obtain ⟨u, hu, hsum⟩ := hsum
      rw [hsum]
      exact ofRatio_spec hu 1

/-- An infinity times zero is not a number; all other products are rounded. -/
theorem mul_spec (hw : NonNegative w) (n : Nat) :
    (w.mul (finite false n) = nan ∧ w = infinite false ∧ n = 0) ∨
      NonNegative (w.mul (finite false n)) ∧ (w.mul (finite false n)).size = roundedSize one (w.size * n) := by
  cases hw with
  | infinite =>
    by_cases hn : n = 0
    · exact Or.inl ⟨by simp [mul, hn], rfl, hn⟩
    · have hproduct : (infinite false).mul (finite false n) = infinite false := by simp [mul, hn]
      have htop : (infinite false).size * n = ⊤ := ENat.top_mul (by simpa using hn)
      rw [hproduct, htop]
      exact Or.inr ⟨.infinite, rfl⟩
  | @finite s m hm =>
    have hproduct : (finite s m).mul (finite false n) = ofRatio s (m * n) one := by simp [mul]
    have hsize : (finite s m).size * n = (m * n : Nat) := (Nat.cast_mul m n).symm
    rw [hproduct, hsize]
    exact Or.inr (ofRatio_spec (fun hs => by rw [hm hs, Nat.zero_mul]) one)

/-! ## Rising numbers -/

/-- The first is not a number, or neither is negative and the first is not above the second. -/
def Rises (x y : Binary64) : Prop :=
  x = nan ∨ (NonNegative x ∧ NonNegative y ∧ x.size ≤ y.size)

theorem Rises.refl (hx : NonNegative x) : Rises x x := Or.inr ⟨hx, hx, le_rfl⟩

theorem Rises.mul (hw : NonNegative w) (h : m ≤ n) :
    Rises (w.mul (finite false m)) (w.mul (finite false n)) := by
  rcases mul_spec hw m with ⟨hnan, -, -⟩ | ⟨hm, hmsize⟩
  · exact Or.inl hnan
  rcases mul_spec hw n with ⟨-, rfl, rfl⟩ | ⟨hn, hnsize⟩
  · rw [Nat.le_zero.1 h]
    exact Or.inl rfl
  refine Or.inr ⟨hm, hn, ?_⟩
  rw [hmsize, hnsize]
  exact roundedSize_mono (by gcongr) one

theorem add_nan (x : Binary64) : x.add nan = nan := by cases x <;> rfl

theorem Rises.add (hx : Rises x x') (hy : Rises y y') : Rises (x.add y) (x'.add y') := by
  rcases hx with rfl | ⟨hx, hx', hxsize⟩
  · exact Or.inl rfl
  rcases hy with rfl | ⟨hy, hy', hysize⟩
  · exact Or.inl (add_nan x)
  obtain ⟨hsum, hsize⟩ := add_spec hx hy
  obtain ⟨hsum', hsize'⟩ := add_spec hx' hy'
  refine Or.inr ⟨hsum, hsum', ?_⟩
  rw [hsize, hsize']
  exact roundedSize_mono (add_le_add hxsize hysize) 1

theorem signed_eq {s : Bool} (h : s = true → n = 0) : signed s n = n := by
  cases s with
  | false => rfl
  | true => simp [signed, h rfl]

/-- What reaches a threshold still reaches it after a rise. -/
theorem Rises.threshold (h : Rises x y) (ht : t.le x = true) : t.le y = true := by
  rcases h with rfl | ⟨hx, hy, hsize⟩
  · cases t <;> cases ht
  cases hy with
  | infinite =>
    cases t with
    | nan => cases ht
    | infinite b => cases b <;> rfl
    | finite b k => rfl
  | @finite s' n hn =>
    cases hx with
    | infinite => exact absurd hsize (by simp [size])
    | @finite s m hm =>
      have hmn : m ≤ n := Nat.cast_le.1 hsize
      cases t with
      | nan => cases ht
      | infinite b =>
        cases b with
        | true => rfl
        | false => cases ht
      | finite b k =>
        simp only [le, signed_eq hm, signed_eq hn, decide_eq_true_eq] at ht ⊢
        omega

theorem eq_of_ofInt {i : Int} (hi : 0 ≤ i) (h : ofInt i = .ok x) :
    x = finite false (roundRatio (i.natAbs * one) 1) := by
  unfold ofInt at h
  dsimp only at h
  split at h
  · cases h
    simpa using hi
  · cases h

/-- What is not above an integer in range is in range. -/
theorem exists_ofInt {i j : Int} (hi : 0 ≤ i ∧ i ≤ j) (h : ofInt j = .ok y) :
    ∃ x, ofInt i = .ok x := by
  cases hconvert : ofInt i with
  | ok x => exact ⟨x, rfl⟩
  | error e =>
    have hrange : OutOfRange j.natAbs := by
      have := ofInt_eq_error_iff.1 hconvert
      unfold OutOfRange at this ⊢
      omega
    have hfails : ofInt j = .error e := ofInt_eq_error_iff.2 hrange
    rw [hfails] at h
    cases h

end Binary64

/-! ## Weights -/

/-- A weight of a table is not negative, since another value gives way to the default. -/
theorem ConfigTable.nonNegative_weight {t : ConfigTable} {key : String} {default x : Binary64}
    (hdefault : default.NonNegative) (h : t.weight key default = .ok x) : x.NonNegative := by
  unfold weight at h
  cases hnumber : t.number key default with
  | error e =>
    rw [hnumber] at h
    cases h
  | ok y =>
    rw [hnumber] at h
    cases h
    split
    · next hle => exact Binary64.nonNegative_iff.2 hle
    · exact hdefault

/-- The weights are those that some table gives. -/
def PrioritySettings.WeightsFromTable (p : PrioritySettings) : Prop :=
  ∃ t q, ofTable t = .ok q ∧ p.nestingWeight = q.nestingWeight ∧
    p.callSiteWeight = q.callSiteWeight ∧ p.redundantWrapperBonus = q.redundantWrapperBonus

/-- The weights are not negative. -/
structure PrioritySettings.Weighted (p : PrioritySettings) : Prop where
  nesting : p.nestingWeight.NonNegative
  callSite : p.callSiteWeight.NonNegative
  bonus : p.redundantWrapperBonus.NonNegative

theorem Binary64.nonNegative_ofSmall (n : Nat) : (ofSmall n).NonNegative := .finite nofun

theorem PrioritySettings.WeightsFromTable.weighted {p : PrioritySettings} (h : p.WeightsFromTable) :
    p.Weighted := by
  obtain ⟨t, q, hq, hnesting, hcallSite, hbonus⟩ := h
  unfold ofTable at hq
  obtain ⟨w₁, h₁, hq⟩ := bind_eq_ok.1 hq
  obtain ⟨w₂, h₂, hq⟩ := bind_eq_ok.1 hq
  obtain ⟨w₃, h₃, hq⟩ := bind_eq_ok.1 hq
  obtain ⟨w₄, -, hq⟩ := bind_eq_ok.1 hq
  obtain ⟨w₅, -, hq⟩ := bind_eq_ok.1 hq
  cases hq
  refine ⟨?_, ?_, ?_⟩
  · rw [hnesting]
    exact ConfigTable.nonNegative_weight (Binary64.nonNegative_ofSmall 2) h₁
  · rw [hcallSite]
    exact ConfigTable.nonNegative_weight (Binary64.nonNegative_ofSmall 1) h₂
  · rw [hbonus]
    exact ConfigTable.nonNegative_weight (Binary64.nonNegative_ofSmall 5) h₃

/-! ## Scores and tiers -/

section

variable {p : PrioritySettings} {x x' : PrioritySignals} {v v' : Binary64}

/-- The same flag, and no less depth or calls. -/
structure PrioritySignals.Rises (x x' : PrioritySignals) : Prop where
  depth : 0 ≤ x.nestingDepth ∧ x.nestingDepth ≤ x'.nestingDepth
  calls : 0 ≤ x.callSites ∧ x.callSites ≤ x'.callSites
  redundant : x.redundantWrapper = x'.redundantWrapper

theorem Binary64.Rises.mul_ofInt {w d d' : Binary64} {i j : Int} (hw : w.NonNegative)
    (hi : 0 ≤ i ∧ i ≤ j) (hd : ofInt i = .ok d) (hd' : ofInt j = .ok d') :
    Rises (w.mul d) (w.mul d') := by
  rw [eq_of_ofInt hi.1 hd, eq_of_ofInt (hi.1.trans hi.2) hd']
  refine Rises.mul hw (roundRatio_mono (Nat.mul_le_mul_right _ ?_) 1)
  omega

theorem PrioritySignals.rises_score (hp : p.Weighted) (hx : x.Rises x') (hv : x.score p = .ok v)
    (hv' : x'.score p = .ok v') : v.Rises v' := by
  obtain ⟨d, hd, hv⟩ := bind_eq_ok.1 hv
  obtain ⟨c, hc, hv⟩ := bind_eq_ok.1 hv
  obtain ⟨d', hd', hv'⟩ := bind_eq_ok.1 hv'
  obtain ⟨c', hc', hv'⟩ := bind_eq_ok.1 hv'
  have hsum := (Binary64.Rises.mul_ofInt hp.nesting hx.depth hd hd').add
    (Binary64.Rises.mul_ofInt hp.callSite hx.calls hc hc')
  cases hv
  cases hv'
  rw [← hx.redundant]
  split
  · exact hsum.add (.refl hp.bonus)
  · exact hsum

theorem PrioritySignals.exists_score (hx : x.Rises x') (hv' : x'.score p = .ok v') :
    ∃ v, x.score p = .ok v := by
  obtain ⟨d', hd', hv'⟩ := bind_eq_ok.1 hv'
  obtain ⟨c', hc', -⟩ := bind_eq_ok.1 hv'
  obtain ⟨d, hd⟩ := Binary64.exists_ofInt hx.depth hd'
  obtain ⟨c, hc⟩ := Binary64.exists_ofInt hx.calls hc'
  unfold score
  rw [hd, hc]
  exact ⟨_, rfl⟩

theorem PrioritySignals.rank_tier_le (hx : x.Rises x') (hv : v.Rises v') (p : PrioritySettings) :
    (x.tier v p).rank ≤ (x'.tier v' p).rank := by
  have hhigh : (p.highThreshold.le v || decide (p.highNestingDepth ≤ x.nestingDepth)
      || x.redundantWrapper) = true →
      (p.highThreshold.le v' || decide (p.highNestingDepth ≤ x'.nestingDepth)
        || x'.redundantWrapper) = true := by
    simp only [Bool.or_eq_true, decide_eq_true_eq, ← hx.redundant]
    rintro ((hthreshold | hdepth) | hredundant)
    · exact Or.inl (Or.inl (hv.threshold hthreshold))
    · exact Or.inl (Or.inr (hdepth.trans hx.depth.2))
    · exact Or.inr hredundant
  unfold tier
  by_cases hnow : (p.highThreshold.le v || decide (p.highNestingDepth ≤ x.nestingDepth)
      || x.redundantWrapper) = true
  · rw [if_pos hnow, if_pos (hhigh hnow)]
  · rw [if_neg hnow]
    by_cases hmedium : p.mediumThreshold.le v = true
    · rw [if_pos hmedium, if_pos (hv.threshold hmedium)]
      split <;> decide
    · rw [if_neg hmedium]
      exact Nat.zero_le _

/-- A category is of no urgency, or its tier is that of the score. -/
theorem Category.priority_cases (c : Category) (p : PrioritySettings) :
    (∀ x, c.priority x p = .ok { tier := .low }) ∨
      ∀ x : PrioritySignals, c.priority x p = x.score p >>= fun v => pure ⟨x.tier v p, v⟩ := by
  cases c with
  | preserve => exact Or.inl fun _ => rfl
  | unanalyzable => exact Or.inl fun _ => rfl
  | fullRefactor => exact Or.inr fun _ => rfl
  | partialRefactor => exact Or.inr fun _ => rfl

/-- There is a priority where there is one for no less depth and calls. -/
theorem Category.exists_priority (hx : x.Rises x') {c : Category} {q' : Priority}
    (hq' : c.priority x' p = .ok q') : ∃ q, c.priority x p = .ok q := by
  rcases c.priority_cases p with hlow | hscored
  · exact ⟨_, hlow x⟩
  · rw [hscored] at hq'
    obtain ⟨v', hv', -⟩ := bind_eq_ok.1 hq'
    obtain ⟨v, hv⟩ := PrioritySignals.exists_score hx hv'
    rw [hscored, hv]
    exact ⟨_, rfl⟩

/-- A tier does not fall where depths and calls do not. -/
theorem Category.rank_priority_le (hp : p.Weighted) (hx : x.Rises x') {c : Category} {q q' : Priority}
    (hq : c.priority x p = .ok q) (hq' : c.priority x' p = .ok q') : q.tier.rank ≤ q'.tier.rank := by
  rcases c.priority_cases p with hlow | hscored
  · rw [hlow] at hq
    cases hq
    exact Nat.zero_le _
  · rw [hscored] at hq hq'
    obtain ⟨v, hv, hq⟩ := bind_eq_ok.1 hq
    obtain ⟨v', hv', hq'⟩ := bind_eq_ok.1 hq'
    cases hq
    cases hq'
    exact PrioritySignals.rank_tier_le hx (PrioritySignals.rises_score hp hx hv hv') p

end

/-- **Priorities are ordered, whatever is configured.** Where a table gives settings, no matter what
stands in it, a decision that has a priority for some depth and some calls has one for no more of both,
and its tier is no higher then. -/
theorem PrioritySettings.priorities_ordered (t : ConfigTable) (p : PrioritySettings)
    (hp : ofTable t = .ok p) (d : Decision) (x x' : PrioritySignals)
    (hdepth : 0 ≤ x.nestingDepth ∧ x.nestingDepth ≤ x'.nestingDepth)
    (hcalls : 0 ≤ x.callSites ∧ x.callSites ≤ x'.callSites)
    (hredundant : x.redundantWrapper = x'.redundantWrapper) (q' : Priority)
    (hq' : d.category.priority x' p = .ok q') :
    ∃ q, d.category.priority x p = .ok q ∧ q.tier.rank ≤ q'.tier.rank := by
  have hweighted : p.Weighted := WeightsFromTable.weighted ⟨t, p, hp, rfl, rfl, rfl⟩
  have hx : x.Rises x' := ⟨hdepth, hcalls, hredundant⟩
  obtain ⟨q, hq⟩ := Category.exists_priority hx hq'
  exact ⟨q, hq, Category.rank_priority_le hweighted hx hq hq'⟩

/-- A table with an infinite weight, a negative one, thresholds that are minus infinity and not a
number, and a truth value for an integer. -/
def extremeTable : ConfigTable :=
  [("nesting_weight", .real (.infinite false)), ("call_site_weight", .integer (-1)),
   ("medium_threshold", .real (.infinite true)), ("high_threshold", .real .nan),
   ("high_nesting_depth", .truth true)]

/-- An infinite weight on no depth makes a score that is not a number and reaches no threshold; on some
depth it makes one that reaches minus infinity. -/
theorem PrioritySettings.priorities_ordered_extreme :
    ∃ p, ofTable extremeTable = .ok p ∧
      Category.fullRefactor.priority ⟨1, 1, false⟩ p = .ok ⟨.medium, .infinite false⟩ ∧
      ∃ q, Category.fullRefactor.priority ⟨0, 1, false⟩ p = .ok q ∧ q = ⟨.low, .nan⟩ ∧
        q.tier.rank ≤ Tier.medium.rank := by
  have hp : ofTable extremeTable = .ok
      { nestingWeight := .infinite false, mediumThreshold := .infinite true, highThreshold := .nan } := by
    decide +kernel
  have hq' : Category.fullRefactor.priority ⟨1, 1, false⟩
      { nestingWeight := .infinite false, mediumThreshold := .infinite true, highThreshold := .nan }
      = .ok ⟨.medium, .infinite false⟩ := by decide +kernel
  have hq : Category.fullRefactor.priority ⟨0, 1, false⟩
      { nestingWeight := .infinite false, mediumThreshold := .infinite true, highThreshold := .nan }
      = .ok ⟨.low, .nan⟩ := by decide +kernel
  obtain ⟨q, hanswer, hle⟩ := priorities_ordered extremeTable _ hp ⟨"f", .fullRefactor, [], false⟩
    ⟨0, 1, false⟩ ⟨1, 1, false⟩ (by decide) (by decide) rfl _ hq'
  exact ⟨_, hp, hq', q, hanswer, Except.ok.inj (hanswer.symm.trans hq), hle⟩

/-- The tier in a report does not fall where the decision is the same and neither the depth nor the
number of calls is less. -/
theorem CallGraph.rank_reportOf_le {g g' : CallGraph} {st : Settings} {n : Node} {e e' : CatalogEntry}
    {r r' : FunctionReport} (hp : st.priority.Weighted) (he : g.entry? n = some e)
    (he' : g'.entry? n = some e')
    (hdecision : g.decisionOn st.wrappedSinks e n = g'.decisionOn st.wrappedSinks e' n)
    (hdepth : 0 ≤ e.scan.maxNesting ∧ e.scan.maxNesting ≤ e'.scan.maxNesting)
    (hcalls : g.callSiteCount n ≤ g'.callSiteCount n) (hr : g.reportOf st n = .ok r)
    (hr' : g'.reportOf st n = .ok r') : r.priority.tier.rank ≤ r'.priority.tier.rank := by
  obtain ⟨e₁, q, he₁, hq, rfl⟩ := exists_priorityOf hr
  obtain ⟨e₂, q', he₂, hq', rfl⟩ := exists_priorityOf hr'
  obtain rfl : e = e₁ := Option.some.inj (he.symm.trans he₁)
  obtain rfl : e' = e₂ := Option.some.inj (he'.symm.trans he₂)
  unfold priorityOf at hq hq'
  rw [← hdecision] at hq'
  have hcalls : 0 ≤ (g.callSiteCount n : Int) ∧ (g.callSiteCount n : Int) ≤ g'.callSiteCount n := by
    omega
  have hrises : (PrioritySignals.of (g.decisionOn st.wrappedSinks e n) e.scan
      (g.callSiteCount n)).Rises
      (.of (g.decisionOn st.wrappedSinks e n) e'.scan (g'.callSiteCount n)) :=
    ⟨hdepth, hcalls, rfl⟩
  exact Category.rank_priority_le hp hrises hq hq'

end AsyncMigration
