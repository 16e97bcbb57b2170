import AsyncMigration.Priority
import Mathlib.Algebra.Group.Nat.Even

/-!
# Numbers out of range

Rounding to 53 bits reaches a power of two from half a unit below it on: there the last odd multiple
of the unit lies, and a tie goes to the even one. So a whole number is too large to be converted from
2¹⁰²⁴ - 2⁹⁷⁰ on.

* `Binary64.ofInt_eq_error_iff` — a conversion fails if and only if the number is out of range.
* `Category.outOfRange_of_priority` — a priority fails only if the depth or the number of calls is.
-/

namespace AsyncMigration
namespace Binary64

/-- A whole number is out of range from half a unit in the last place below 2¹⁰²⁴ on. -/
def OutOfRange (n : Nat) : Prop := 2 ^ 1024 ≤ n + 2 ^ 970

theorem div_le_nearest (n d : Nat) : n / d ≤ nearest n d := by
  unfold nearest
  dsimp only
  split
  · exact Nat.le_succ _
  · exact Nat.le_refl _

/-- Rounding goes up by half a unit at most. -/
theorem two_mul_nearest_le (n d : Nat) : 2 * (nearest n d * d) ≤ 2 * n + d := by
  have hparts : n / d * d + n % d = n := Nat.div_add_mod' n d
  unfold nearest
  dsimp only
  split
  · next hup =>
    have hhalf : d ≤ 2 * (n % d) := by omega
    rw [Nat.add_mul, Nat.one_mul]
    omega
  · omega

theorem roundRatio_one (n : Nat) : roundRatio n 1 = nearest n (2 ^ excess n) * 2 ^ excess n := by
  simp [roundRatio]

variable {n d j : Nat}

/-- Rounding does not fall below the last power of two. -/
theorem two_pow_log2_le_roundRatio (h : n / d ≠ 0) : 2 ^ (n / d).log2 ≤ roundRatio n d := by
  have hexcess : excess (n / d) ≤ (n / d).log2 := by
    unfold excess precision
    omega
  have hsplit : 2 ^ (n / d).log2 = 2 ^ ((n / d).log2 - excess (n / d)) * 2 ^ excess (n / d) := by
    rw [← Nat.pow_add, Nat.sub_add_cancel hexcess]
  have hdiv : 2 ^ ((n / d).log2 - excess (n / d)) ≤ n / (d * 2 ^ excess (n / d)) := by
    rw [← Nat.div_div_eq_div_mul, Nat.le_div_iff_mul_le (Nat.two_pow_pos _), ← hsplit]
    exact Nat.log2_self_le h
  rw [hsplit]
  exact Nat.mul_le_mul_right _ (Nat.le_trans hdiv (div_le_nearest _ _))

/-- Half a unit below a power of two is too little to be rounded up to it. -/
theorem roundRatio_lt_two_pow (h : n + 2 ^ j < 2 ^ (j + 54)) : roundRatio n 1 < 2 ^ (j + 54) := by
  have hunit : 2 ^ excess n ≤ 2 * 2 ^ j := by
    rw [← Nat.pow_succ']
    refine Nat.pow_le_pow_right Nat.two_pos ?_
    by_cases hn : n = 0
    · simp [hn, excess, precision]
    · have hlog : n.log2 < j + 54 :=
        (Nat.log2_lt hn).2 (Nat.lt_of_le_of_lt (Nat.le_add_right _ _) h)
      unfold excess precision
      omega
  have hround := two_mul_nearest_le n (2 ^ excess n)
  rw [roundRatio_one]
  omega

/-- From half a unit below a power of two on, a tie included, rounding reaches it. -/
theorem two_pow_le_roundRatio (h : 2 ^ (j + 54) ≤ n + 2 ^ j) : 2 ^ (j + 54) ≤ roundRatio n 1 := by
  have hpos : 0 < 2 ^ j := Nat.two_pow_pos j
  have htop : 2 ^ (j + 54) = 2 ^ 54 * 2 ^ j := by rw [Nat.add_comm, Nat.pow_add]
  have hn : n ≠ 0 := by omega
  by_cases hbig : 2 ^ (j + 54) ≤ n
  · have hlog : j + 54 ≤ n.log2 := (Nat.le_log2 hn).2 hbig
    have hround : 2 ^ n.log2 ≤ roundRatio n 1 := by
      simpa using two_pow_log2_le_roundRatio (n := n) (d := 1) (by simpa using hn)
    exact Nat.le_trans (Nat.pow_le_pow_right Nat.two_pos hlog) hround
  · -- Just below the power the unit is 2 ^ (j + 1), and `n` the last odd multiple of it or more.
    have hlog : n.log2 = j + 53 := by
      refine (Nat.log2_eq_iff hn).2 ⟨?_, Nat.lt_of_not_le hbig⟩
      rw [show 2 ^ (j + 53) = 2 ^ 53 * 2 ^ j by rw [Nat.add_comm, Nat.pow_add]]
      omega
    have hunit : 2 ^ excess n = 2 * 2 ^ j := by
      rw [show excess n = j + 1 by unfold excess precision; omega, Nat.pow_succ']
    have hdiv : n / (2 * 2 ^ j) = 2 ^ 53 - 1 := by
      have hle : 2 ^ 53 - 1 ≤ n / (2 * 2 ^ j) := (Nat.le_div_iff_mul_le (by omega)).2 (by omega)
      have hlt : n / (2 * 2 ^ j) < 2 ^ 53 := (Nat.div_lt_iff_lt_mul (by omega)).2 (by omega)
      omega
    have hup : nearest n (2 * 2 ^ j) = 2 ^ 53 - 1 + 1 := by
      have hparts := Nat.div_add_mod' n (2 * 2 ^ j)
      rw [hdiv] at hparts
      have hhalf : 2 * 2 ^ j ≤ 2 * (n % (2 * 2 ^ j)) := by omega
      unfold nearest
      dsimp only
      rw [hdiv, if_pos (by omega)]
    rw [roundRatio_one, hunit, hup, htop]
    omega

theorem roundRatio_lt_two_pow_iff : roundRatio n 1 < 2 ^ (j + 54) ↔ n + 2 ^ j < 2 ^ (j + 54) :=
  ⟨fun h => Nat.lt_of_not_le fun hle => Nat.not_le.2 h (two_pow_le_roundRatio hle),
    roundRatio_lt_two_pow⟩

theorem mul_two_pow_add_lt_iff {a b c k : Nat} :
    a * 2 ^ k + 2 ^ (b + k) < 2 ^ (c + k) ↔ a + 2 ^ b < 2 ^ c := by
  rw [Nat.pow_add, Nat.pow_add, ← Nat.add_mul, Nat.mul_lt_mul_right (Nat.two_pow_pos k)]

/-- Scaled by a power of two, a number is rounded up to the same relative place. -/
theorem roundRatio_mul_lt_iff {b k : Nat} :
    roundRatio (n * 2 ^ k) 1 < 2 ^ (b + k + 54) ↔ n + 2 ^ b < 2 ^ (b + 54) := by
  rw [roundRatio_lt_two_pow_iff, Nat.add_right_comm, mul_two_pow_add_lt_iff]

theorem one_eq : one = 2 ^ 1074 := by decide +kernel

theorem limit_eq : limit = 2 ^ (970 + 1074 + 54) := by decide +kernel

theorem outOfRange_iff : OutOfRange n ↔ ¬ roundRatio (n * one) 1 < limit := by
  have htop : 1024 = 970 + 54 := rfl
  rw [one_eq, limit_eq, roundRatio_mul_lt_iff, Nat.not_lt, OutOfRange, htop]

theorem ofInt_eq_error_iff {i : Int} {e : ConversionError} :
    ofInt i = .error e ↔ OutOfRange i.natAbs := by
  cases e
  rw [outOfRange_iff]
  unfold ofInt
  dsimp only
  split
  · next h => simpa using h
  · next h => simpa using Nat.le_of_not_lt h

end Binary64

/-- A score fails only if a conversion does. -/
theorem PrioritySignals.outOfRange_of_score {x : PrioritySignals} {p : PrioritySettings}
    {e : Binary64.ConversionError} (h : x.score p = .error e) :
    Binary64.OutOfRange x.nestingDepth.natAbs ∨ Binary64.OutOfRange x.callSites.natAbs := by
  cases hdepth : Binary64.ofInt x.nestingDepth with
  | error e' => exact Or.inl (Binary64.ofInt_eq_error_iff.1 hdepth)
  | ok depth =>
    cases hcalls : Binary64.ofInt x.callSites with
    | error e' => exact Or.inr (Binary64.ofInt_eq_error_iff.1 hcalls)
    | ok calls =>
      unfold score at h
      rw [hdepth, hcalls] at h
      cases h

/-- A priority fails only if its score does. -/
theorem Category.outOfRange_of_priority {c : Category} {x : PrioritySignals} {p : PrioritySettings}
    {e : Binary64.ConversionError} (h : c.priority x p = .error e) :
    Binary64.OutOfRange x.nestingDepth.natAbs ∨ Binary64.OutOfRange x.callSites.natAbs := by
  cases hscore : x.score p with
  | error e' => exact PrioritySignals.outOfRange_of_score hscore
  | ok value =>
    unfold priority at h
    rw [hscore] at h
    cases c <;> cases h

end AsyncMigration
