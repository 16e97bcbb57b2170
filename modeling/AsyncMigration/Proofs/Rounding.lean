import AsyncMigration.Proofs.Range

/-!
# Rounding to the nearest number

A number has 53 significant bits: it is less than 2⁵³ units of some power of two. What a count of
quanta is rounded to can be said without the steps of rounding: no number is nearer, and of two that
are equally near it is the one with an even count of units. Such a number is unique, since between two
numbers with even counts of units there is always a third.

* `Binary64.RoundsTo` — a number is the one that a count of quanta is rounded to.
* `Binary64.roundsTo_iff` — it is the one that `roundRatio` gives.
-/

namespace AsyncMigration
namespace Binary64

/-- A count of quanta is that of a number of at most 53 significant bits. -/
def Fits (q : Nat) : Prop := ∃ m e, m < 2 ^ precision ∧ q = m * 2 ^ e

/-- The count is that of such a number whose last bit is zero. -/
def FitsEvenly (q : Nat) : Prop := ∃ m e, m < 2 ^ precision ∧ m % 2 = 0 ∧ q = m * 2 ^ e

/-- `q` is the number nearest to `n` quanta, and an even one if another is equally near. The range of
numbers plays no part here. -/
structure RoundsTo (n q : Nat) : Prop where
  fits : Fits q
  nearest : ∀ x, Fits x → ((n : Int) - q).natAbs ≤ ((n : Int) - x).natAbs
  even : ∀ x, Fits x → x ≠ q → ((n : Int) - q).natAbs = ((n : Int) - x).natAbs → FitsEvenly q

variable {n q q' : Nat}

/-! ## There is one such number at most -/

theorem add_le_of_dvd {u a b : Nat} (ha : u ∣ a) (hb : u ∣ b) (h : a < b) : a + u ≤ b := by
  have hle : u ≤ b - a := Nat.le_of_dvd (by omega) (Nat.dvd_sub hb ha)
  omega

theorem unit_dvd {m e e' : Nat} (hm : m % 2 = 0) (h : e ≤ e') : 2 * 2 ^ e ∣ m * 2 ^ e' :=
  Nat.mul_dvd_mul (Nat.dvd_of_mod_eq_zero hm) (Nat.pow_dvd_pow 2 h)

/-- Between two numbers whose last bits are zero there is another one, next to that of the smaller
unit. -/
theorem exists_fits_between (hq : FitsEvenly q) (hq' : FitsEvenly q') (h : q < q') :
    ∃ x, Fits x ∧ q < x ∧ x < q' := by
  obtain ⟨m, e, hm, heven, rfl⟩ := hq
  obtain ⟨m', e', hm', heven', rfl⟩ := hq'
  have hpos : 0 < 2 ^ e := Nat.two_pow_pos e
  have hpos' : 0 < 2 ^ e' := Nat.two_pow_pos e'
  by_cases he : e ≤ e'
  · have hgap := add_le_of_dvd (unit_dvd heven (Nat.le_refl e)) (unit_dvd heven' he) h
    have hnext : (m + 1) * 2 ^ e = m * 2 ^ e + 2 ^ e := Nat.succ_mul m _
    refine ⟨(m + 1) * 2 ^ e, ⟨m + 1, e, ?_, rfl⟩, ?_, ?_⟩
    · simp only [precision] at hm ⊢
      omega
    · omega
    · omega
  · have hgap := add_le_of_dvd (unit_dvd heven (Nat.le_of_not_le he)) (unit_dvd heven' (Nat.le_refl e')) h
    have hm0 : m' ≠ 0 := by
      rintro rfl
      omega
    have hlast : (m' - 1) * 2 ^ e' = m' * 2 ^ e' - 2 ^ e' := Nat.sub_one_mul m' _
    refine ⟨(m' - 1) * 2 ^ e', ⟨m' - 1, e', by omega, rfl⟩, ?_, ?_⟩ <;> omega

/-- A number that lies between two equally near ones is nearer than they are. -/
theorem RoundsTo.le (h : RoundsTo n q) (h' : RoundsTo n q') : q' ≤ q := by
  apply Nat.le_of_not_lt
  intro hlt
  have hle := h.nearest q' h'.fits
  have hle' := h'.nearest q h.fits
  obtain ⟨x, hx, hqx, hxq'⟩ := exists_fits_between
    (h.even q' h'.fits (by omega) (by omega)) (h'.even q h.fits (by omega) (by omega)) hlt
  have hnear := h.nearest x hx
  omega

theorem RoundsTo.unique (h : RoundsTo n q) (h' : RoundsTo n q') : q = q' :=
  Nat.le_antisymm (h'.le h) (h.le h')

/-! ## Rounding finds it -/

/-- The neighbours of a count of quanta: it lies between `k` and `k + 1` units, and there are enough
units for the significant bits, unless the unit is the quantum. -/
theorem excess_cases (n : Nat) :
    n / 2 ^ excess n < 2 ^ precision ∧ (excess n = 0 ∨ 2 ^ 52 ≤ n / 2 ^ excess n) := by
  by_cases hn : n = 0
  · simp [hn, excess, precision]
  constructor
  · rw [Nat.div_lt_iff_lt_mul (Nat.two_pow_pos _), ← Nat.pow_add]
    apply Nat.lt_of_lt_of_le Nat.lt_log2_self
    apply Nat.pow_le_pow_right Nat.two_pos
    unfold excess
    omega
  · by_cases hexcess : excess n = 0
    · exact Or.inl hexcess
    right
    rw [Nat.le_div_iff_mul_le (Nat.two_pow_pos _), ← Nat.pow_add]
    apply Nat.le_trans _ (Nat.log2_self_le hn)
    apply Nat.pow_le_pow_right Nat.two_pos
    unfold excess precision at hexcess ⊢
    omega

/-- Also 2⁵³ units make a number, since half as many will do for twice the unit. -/
theorem fits_mul {k : Nat} (h : k ≤ 2 ^ precision) (e : Nat) :
    Fits (k * 2 ^ e) ∧ (k % 2 = 0 → FitsEvenly (k * 2 ^ e)) := by
  by_cases hlt : k < 2 ^ precision
  · exact ⟨⟨k, e, hlt, rfl⟩, fun heven => ⟨k, e, hlt, heven, rfl⟩⟩
  · obtain rfl : k = 2 ^ precision := by omega
    have hhalf : 2 ^ precision * 2 ^ e = 2 ^ 52 * 2 ^ (e + 1) := by
      rw [Nat.pow_succ]
      simp only [precision]
      omega
    have hfew : 2 ^ 52 < 2 ^ precision := by simp [precision]
    exact ⟨⟨2 ^ 52, e + 1, hfew, hhalf⟩, fun _ => ⟨2 ^ 52, e + 1, hfew, by simp, hhalf⟩⟩

/-- There is no number between the neighbours: one of a unit as large would be a multiple of it, and
one of a smaller unit has too few of them. -/
theorem not_fits_between {k e x : Nat} (hk : e = 0 ∨ 2 ^ 52 ≤ k) (hx : Fits x) :
    x ≤ k * 2 ^ e ∨ (k + 1) * 2 ^ e ≤ x := by
  obtain ⟨m, e', hm, rfl⟩ := hx
  by_cases he : e ≤ e'
  · have hdvd : 2 ^ e ∣ m * 2 ^ e' := Nat.dvd_mul_left_of_dvd (Nat.pow_dvd_pow 2 he) m
    by_cases hle : m * 2 ^ e' ≤ k * 2 ^ e
    · exact Or.inl hle
    · right
      rw [Nat.succ_mul]
      exact add_le_of_dvd (Nat.dvd_mul_left _ k) hdvd (Nat.lt_of_not_le hle)
  · left
    have hk : 2 ^ 52 ≤ k := hk.resolve_left (by omega)
    calc m * 2 ^ e' ≤ 2 ^ precision * 2 ^ e' := Nat.mul_le_mul_right _ (Nat.le_of_lt hm)
      _ = 2 ^ (precision + e') := (Nat.pow_add ..).symm
      _ ≤ 2 ^ (52 + e) := Nat.pow_le_pow_right Nat.two_pos (by unfold precision; omega)
      _ = 2 ^ 52 * 2 ^ e := Nat.pow_add ..
      _ ≤ k * 2 ^ e := Nat.mul_le_mul_right _ hk

theorem roundsTo_roundRatio (n : Nat) : RoundsTo n (roundRatio n 1) := by
  obtain ⟨hfew, hmany⟩ := excess_cases n
  have hbetween := fun x (hx : Fits x) => not_fits_between hmany hx
  have hparts := Nat.div_add_mod' n (2 ^ excess n)
  have hr := Nat.mod_lt n (Nat.two_pow_pos (excess n))
  simp only [Nat.succ_mul] at hbetween
  rw [roundRatio_one]
  unfold Binary64.nearest
  dsimp only
  split
  · next hup =>
    rw [Nat.succ_mul]
    refine ⟨?_, fun x hx => ?_, fun x hx hne htie => ?_⟩
    · rw [← Nat.succ_mul]
      exact (fits_mul hfew _).1
    · have := hbetween x hx
      omega
    · have := hbetween x hx
      rw [← Nat.succ_mul]
      exact (fits_mul hfew _).2 (by omega)
  · next hdown =>
    refine ⟨(fits_mul (Nat.le_of_lt hfew) _).1, fun x hx => ?_, fun x hx hne htie => ?_⟩
    · have := hbetween x hx
      omega
    · have := hbetween x hx
      exact (fits_mul (Nat.le_of_lt hfew) _).2 (by omega)

/-- What a count of quanta is rounded to is what rounding gives. -/
theorem roundsTo_iff : RoundsTo n q ↔ q = roundRatio n 1 := by
  constructor
  · intro h
    exact h.unique (roundsTo_roundRatio n)
  · rintro rfl
    exact roundsTo_roundRatio n

end Binary64
end AsyncMigration
