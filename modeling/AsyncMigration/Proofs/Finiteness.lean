import AsyncMigration.Proofs.JsonWriting
import AsyncMigration.Proofs.Scores

/-!
# Which scores are finite

The weights of a table are not negative, but they may be infinite, and finite ones may be so large that
a score overflows. Rounding keeps what is out of range out of range, so it is enough to look at the
weights and at the end of the computation.

* `Binary64.hasQuanta_sum_iff` — a sum of products is finite if its weights are and it is in range.
* `PrioritySignals.InRange` — weights are finite, and the score that they lead to is in range.
* `PrioritySignals.isFinite_score_iff` — exactly then it is finite.
* `PrioritySignals.inRange_of_moderate` — moderate weights keep scores in range.
-/

namespace AsyncMigration
namespace Binary64

variable {x y w : Binary64} {n : Nat}

/-- A number is finite and has so many quanta, not counting its sign. -/
def HasQuanta (x : Binary64) (n : Nat) : Prop := ∃ s, x = finite s n

theorem isFinite_iff : x.IsFinite ↔ ∃ n, x.HasQuanta n := exists_comm

@[simp] theorem hasQuanta_finite {s : Bool} {m : Nat} : (finite s m).HasQuanta n ↔ m = n := by
  simp [HasQuanta]

@[simp] theorem not_hasQuanta_infinite {s : Bool} : ¬ (infinite s).HasQuanta n := by
  simp [HasQuanta]

@[simp] theorem not_hasQuanta_nan : ¬ nan.HasQuanta n := by
  simp [HasQuanta]

theorem hasQuanta_iff_size (hx : NonNegative x) : x.HasQuanta n ↔ x.size = n := by
  cases hx with
  | infinite => simp [size]
  | finite => simp [size]

theorem roundedSize_eq_iff {m d : Nat} :
    roundedSize d (m : ℕ∞) = n ↔ roundRatio m d = n ∧ n < limit := by
  simp only [roundedSize]
  split
  · next h =>
    rw [Nat.cast_inj]
    constructor
    · rintro rfl
      exact ⟨rfl, h⟩
    · exact And.left
  · next h =>
    refine iff_of_false (ENat.top_ne_natCast n) ?_
    rintro ⟨rfl, hlimit⟩
    exact h hlimit

/-- What a sum of products without a sign can be: not a number, or not negative. -/
def Unsigned (x : Binary64) : Prop := x = nan ∨ x.NonNegative

theorem unsigned_mul (hw : NonNegative w) (n : Nat) : Unsigned (w.mul (finite false n)) := by
  rcases mul_spec hw n with ⟨hnan, -, -⟩ | ⟨hproduct, -⟩
  · exact Or.inl hnan
  · exact Or.inr hproduct

theorem Unsigned.add (hx : Unsigned x) (hy : Unsigned y) : Unsigned (x.add y) := by
  rcases hx with rfl | hx
  · exact Or.inl rfl
  rcases hy with rfl | hy
  · exact Or.inl (add_nan x)
  · exact Or.inr (add_spec hx hy).1

theorem hasQuanta_mul_iff (hw : NonNegative w) {k : Nat} :
    (w.mul (finite false k)).HasQuanta n
      ↔ ∃ a, w.HasQuanta a ∧ roundRatio (a * k) one = n ∧ n < limit := by
  cases hw with
  | infinite =>
    by_cases hk : k = 0
    · simp [mul, hk]
    · simp [mul, hk]
  | @finite s m hm =>
    have hproduct : (finite s m).mul (finite false k) = ofRatio s (m * k) one := by simp [mul]
    have hzero : s = true → m * k = 0 := by
      intro hs
      rw [hm hs, Nat.zero_mul]
    obtain ⟨hsigned, hsize⟩ := ofRatio_spec hzero one
    rw [hproduct, hasQuanta_iff_size hsigned, hsize, roundedSize_eq_iff]
    simp

theorem hasQuanta_add_iff (hx : Unsigned x) (hy : Unsigned y) :
    (x.add y).HasQuanta n
      ↔ ∃ a b, x.HasQuanta a ∧ y.HasQuanta b ∧ roundRatio (a + b) 1 = n ∧ n < limit := by
  rcases hx with rfl | hx
  · simp [add]
  rcases hy with rfl | hy
  · simp [add_nan]
  obtain ⟨hsum, hsize⟩ := add_spec hx hy
  rw [hasQuanta_iff_size hsum, hsize]
  simp only [hasQuanta_iff_size hx, hasQuanta_iff_size hy]
  have htop : roundedSize 1 ⊤ = ⊤ := rfl
  cases hxsize : x.size with
  | top => simp [htop]
  | coe a =>
    cases hysize : y.size with
    | top => simp [htop]
    | coe b =>
      rw [← Nat.cast_add, roundedSize_eq_iff]
      simp

theorem roundRatio_limit : roundRatio limit 1 = limit := by decide +kernel

/-- What is out of range is not in range once it is rounded. -/
theorem lt_limit_of_roundRatio (h : roundRatio n 1 < limit) : n < limit := by
  by_contra hn
  have hmono := roundRatio_mono (Nat.le_of_not_lt hn) 1
  rw [roundRatio_limit] at hmono
  omega

/-- A sum of two products is finite if the weights are and it is in range itself, since then the
products are as well. -/
theorem hasQuanta_sum_iff {v : Binary64} (hw : NonNegative w) (hv : NonNegative v) {k l : Nat} :
    ((w.mul (finite false k)).add (v.mul (finite false l))).HasQuanta n
      ↔ ∃ a b, w.HasQuanta a ∧ v.HasQuanta b ∧
        roundRatio (roundRatio (a * k) one + roundRatio (b * l) one) 1 = n ∧ n < limit := by
  rw [hasQuanta_add_iff (unsigned_mul hw k) (unsigned_mul hv l)]
  simp only [hasQuanta_mul_iff hw, hasQuanta_mul_iff hv]
  constructor
  · rintro ⟨_, _, ⟨a, ha, rfl, -⟩, ⟨b, hb, rfl, -⟩, hsum⟩
    exact ⟨a, b, ha, hb, hsum⟩
  · rintro ⟨a, b, ha, hb, rfl, hn⟩
    -- a product that overflows would make the sum overflow
    have hparts := lt_limit_of_roundRatio hn
    exact ⟨_, _, ⟨a, ha, rfl, by omega⟩, ⟨b, hb, rfl, by omega⟩, rfl, hn⟩

/-- What is below a power of two is rounded to that power at most. -/
theorem roundRatio_le_of_lt {d k : Nat} (hk : 0 < k) (h : n / d < 2 ^ k) : roundRatio n d ≤ 2 ^ k := by
  have hlog : (n / d).log2 + 1 ≤ k := by
    by_cases hzero : n / d = 0
    · rw [hzero]
      exact hk
    · exact (Nat.log2_lt hzero).2 h
  exact Nat.le_trans (roundRatio_le_two_pow n d) (Nat.pow_le_pow_right Nat.two_pos hlog)

/-- The quanta of an integer in range. -/
def wholeQuanta (i : Int) : Nat := roundRatio (i.natAbs * one) 1

theorem exists_exponent : ∃ m, one = 2 ^ m ∧ limit = 2 ^ (m + 1024) :=
  ⟨1074, by decide +kernel, by decide +kernel⟩

theorem product_le {k m a : Nat} {i : Int} (hone : one = 2 ^ m) (hk : 0 < k) (ha : a < 2 ^ k * one)
    (hi : i.natAbs < 2 ^ k) : roundRatio (a * wholeQuanta i) one ≤ 2 ^ (m + 2 * k) := by
  rw [hone] at ha ⊢
  have hpos : 0 < 2 ^ m := Nat.two_pow_pos m
  have hwhole : wholeQuanta i ≤ 2 ^ (k + m) := by
    apply roundRatio_le_of_lt (by omega)
    rw [Nat.div_one, hone, Nat.pow_add]
    exact Nat.mul_lt_mul_of_pos_right hi hpos
  have hexponents : k + m + (k + m) = m + 2 * k + m := by omega
  apply roundRatio_le_of_lt (by omega)
  rw [Nat.div_lt_iff_lt_mul hpos]
  calc a * wholeQuanta i < 2 ^ k * 2 ^ m * 2 ^ (k + m) :=
        Nat.mul_lt_mul_of_lt_of_le ha hwhole (Nat.two_pow_pos _)
    _ = 2 ^ (m + 2 * k) * 2 ^ m := by
        rw [← Nat.pow_add, ← Nat.pow_add, ← Nat.pow_add, hexponents]

end Binary64

open Binary64 (roundRatio one limit wholeQuanta HasQuanta)

namespace PrioritySignals

variable {x : PrioritySignals} {p : PrioritySettings} {v : Binary64} {n : Nat}

/-- The quanta of the weighted sum, for weights of so many quanta. -/
def weightedSum (x : PrioritySignals) (nesting callSite : Nat) : Nat :=
  roundRatio (roundRatio (nesting * wholeQuanta x.nestingDepth) one
    + roundRatio (callSite * wholeQuanta x.callSites) one) 1

/-- The quanta of the score, for weights and a bonus of so many quanta. -/
def magnitude (x : PrioritySignals) (nesting callSite bonus : Nat) : Nat :=
  if x.redundantWrapper then roundRatio (x.weightedSum nesting callSite + bonus) 1
  else x.weightedSum nesting callSite

/-- The weights are finite, and so is the bonus if it counts, and the score is in range. -/
def InRange (x : PrioritySignals) (p : PrioritySettings) : Prop :=
  ∃ nesting callSite bonus, p.nestingWeight.HasQuanta nesting ∧ p.callSiteWeight.HasQuanta callSite ∧
    (x.redundantWrapper = true → p.redundantWrapperBonus.HasQuanta bonus) ∧
    x.magnitude nesting callSite bonus < limit

/-- A score is finite exactly if it is in range. -/
theorem isFinite_score_iff (hp : p.Weighted) (hdepth : 0 ≤ x.nestingDepth) (hcalls : 0 ≤ x.callSites)
    (hv : x.score p = .ok v) : v.IsFinite ↔ x.InRange p := by
  obtain ⟨d, hd, hv⟩ := bind_eq_ok.1 hv
  obtain ⟨c, hc, hv⟩ := bind_eq_ok.1 hv
  obtain rfl : d = .finite false (wholeQuanta x.nestingDepth) := Binary64.eq_of_ofInt hdepth hd
  obtain rfl : c = .finite false (wholeQuanta x.callSites) := Binary64.eq_of_ofInt hcalls hc
  have hsum : ∀ n, ((p.nestingWeight.mul (.finite false (wholeQuanta x.nestingDepth))).add
      (p.callSiteWeight.mul (.finite false (wholeQuanta x.callSites)))).HasQuanta n
        ↔ ∃ a b, p.nestingWeight.HasQuanta a ∧ p.callSiteWeight.HasQuanta b ∧
          x.weightedSum a b = n ∧ n < limit :=
    fun _ => Binary64.hasQuanta_sum_iff hp.nesting hp.callSite
  have hunsigned := (Binary64.unsigned_mul hp.nesting (wholeQuanta x.nestingDepth)).add
    (Binary64.unsigned_mul hp.callSite (wholeQuanta x.callSites))
  cases hv
  rw [Binary64.isFinite_iff]
  unfold InRange magnitude
  cases x.redundantWrapper with
  | false =>
    simp only [Bool.false_eq_true, if_false, false_implies, true_and]
    constructor
    · rintro ⟨n, hn⟩
      obtain ⟨a, b, ha, hb, rfl, hlimit⟩ := (hsum n).1 hn
      exact ⟨a, b, 0, ha, hb, hlimit⟩
    · rintro ⟨a, b, -, ha, hb, hlimit⟩
      exact ⟨_, (hsum _).2 ⟨a, b, ha, hb, rfl, hlimit⟩⟩
  | true =>
    simp only [if_true, true_implies]
    constructor
    · rintro ⟨n, hn⟩
      obtain ⟨_, c, hs, hc, rfl, hlimit⟩ :=
        (Binary64.hasQuanta_add_iff hunsigned (Or.inr hp.bonus)).1 hn
      obtain ⟨a, b, ha, hb, rfl, -⟩ := (hsum _).1 hs
      exact ⟨a, b, c, ha, hb, hc, hlimit⟩
    · rintro ⟨a, b, c, ha, hb, hc, hlimit⟩
      have hpart := Binary64.lt_limit_of_roundRatio hlimit
      have hs := (hsum _).2 ⟨a, b, ha, hb, rfl, by omega⟩
      exact ⟨_, (Binary64.hasQuanta_add_iff hunsigned (Or.inr hp.bonus)).2
        ⟨_, c, hs, hc, rfl, hlimit⟩⟩

/-- A finite weight may be too large, though the depth is not. -/
example : PrioritySignals.score ⟨2, 0, false⟩ { nestingWeight := .finite false (Nat.pow 2 2097) }
    = .ok (.infinite false) := by decide +kernel

/-- Weights below a moderate bound cannot make a score that is out of range, as long as depths and calls
are below it too. -/
theorem inRange_of_moderate {k : Nat} (hk : 0 < k ∧ k ≤ 510) (hdepth : x.nestingDepth.natAbs < 2 ^ k)
    (hcalls : x.callSites.natAbs < 2 ^ k)
    (hp : ∀ w ∈ [p.nestingWeight, p.callSiteWeight, p.redundantWrapperBonus],
      ∃ q, w.HasQuanta q ∧ q < 2 ^ k * one) : x.InRange p := by
  simp only [List.forall_mem_cons, List.not_mem_nil, false_implies, implies_true, and_true] at hp
  obtain ⟨⟨a, ha, ha'⟩, ⟨b, hb, hb'⟩, c, hc, hc'⟩ := hp
  refine ⟨a, b, c, ha, hb, fun _ => hc, ?_⟩
  obtain ⟨m, hone, hlimit⟩ := Binary64.exists_exponent
  have hproduct := Binary64.product_le hone hk.1 ha' hdepth
  have hproduct' := Binary64.product_le hone hk.1 hb' hcalls
  have hpos : 0 < 2 ^ (m + 2 * k) := Nat.two_pow_pos _
  have hsum : x.weightedSum a b ≤ 2 ^ (m + 2 * k + 2) := by
    apply Binary64.roundRatio_le_of_lt (by omega)
    rw [Nat.div_one, Nat.pow_add]
    omega
  have hbonus : c < 2 ^ (m + 2 * k + 2) := by
    rw [hone, ← Nat.pow_add] at hc'
    exact Nat.lt_of_lt_of_le hc' (Nat.pow_le_pow_right Nat.two_pos (by omega))
  rw [hlimit]
  unfold magnitude
  split
  · have hscore : roundRatio (x.weightedSum a b + c) 1 ≤ 2 ^ (m + 2 * k + 3) := by
      apply Binary64.roundRatio_le_of_lt (by omega)
      rw [Nat.div_one, Nat.pow_succ]
      omega
    exact Nat.lt_of_le_of_lt hscore (Nat.pow_lt_pow_right (by decide) (by omega))
  · exact Nat.lt_of_le_of_lt hsum (Nat.pow_lt_pow_right (by decide) (by omega))

end PrioritySignals

end AsyncMigration
