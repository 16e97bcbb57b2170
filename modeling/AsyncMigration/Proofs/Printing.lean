import AsyncMigration.Scan
import Mathlib.Algebra.Group.Int.Even

/-!
# What can be printed

An integer of more than 4300 figures is not printed. Where something is said that holds such an integer
there is no answer, and which of several cannot be printed makes no difference. So what a sequence of
steps has to print can be gathered, and the steps taken as if all could be printed: there is an answer if
nothing that was gathered is too long.

* `Numeral.printable_iff` — how long is too long.
* `Numeral.printing_bind`, `Numeral.mapM_printing` — what steps print, one after another.
* `SourceUnit.tryScan_eq` — what scanning a unit has to print.
-/

namespace AsyncMigration

/-! ## Errors -/

section

variable {α ε ε' : Type} {x : Except ε α} {f : ε → ε'}

theorem mapError_eq_ok_iff {a : α} : x.mapError f = .ok a ↔ x = .ok a := by
  cases x with
  | error e => constructor <;> intro h <;> cases h
  | ok b => constructor <;> intro h <;> cases h <;> rfl

theorem mapError_eq_error_iff {e' : ε'} : x.mapError f = .error e' ↔ ∃ e, x = .error e ∧ f e = e' := by
  cases x with
  | error e =>
    constructor
    · intro h
      exact ⟨e, rfl, Except.error.inj h⟩
    · rintro ⟨e, h, rfl⟩
      cases h
      rfl
  | ok b =>
    constructor
    · intro h
      cases h
    · rintro ⟨e, h, -⟩
      cases h

end

/-! ## Integers -/

namespace Numeral

variable {α β : Type} {printed : List Int} {a b : α}

/-- An integer has too many figures to be printed. -/
def TooLong (i : Int) : Prop := 10 ^ maxFigures ≤ i.natAbs

theorem printable_iff {i : Int} : printable i = true ↔ ¬ TooLong i := by
  rw [printable, decide_eq_true_iff, TooLong, Nat.not_le]
  exact Nat.length_toDigits_le_iff (by decide) (by decide)

/-- The least number that is too long, and its negative. -/
theorem tooLong_pow : TooLong (10 ^ maxFigures) := by
  unfold TooLong
  generalize maxFigures = k
  rw [Int.natAbs_pow]
  exact Nat.le_refl _

theorem tooLong_neg_iff {i : Int} : TooLong (-i) ↔ TooLong i := by
  rw [TooLong, TooLong, Int.natAbs_neg]

theorem all_printable_iff : printed.all printable = true ↔ ∀ i ∈ printed, ¬ TooLong i := by
  simp [printable_iff]

theorem printing_eq_error_iff {fault : PrintFault} :
    printing printed a = .error fault ↔ ∃ i ∈ printed, TooLong i := by
  cases fault
  unfold printing
  split
  · next h =>
    have hshort := all_printable_iff.1 h
    simpa using hshort
  · next h =>
    rw [all_printable_iff] at h
    simpa using h

theorem printing_eq_ok_iff :
    printing printed a = .ok b ↔ (∀ i ∈ printed, ¬ TooLong i) ∧ a = b := by
  rw [← all_printable_iff]
  unfold printing
  split
  · next h => simp [h]
  · next h => simp [h]

/-- Steps print one after another. -/
theorem printing_bind (printed : List Int) (a : α) (later : α → List Int) (next : α → β) :
    (printing printed a >>= fun a => printing (later a) (next a))
      = printing (printed ++ later a) (next a) := by
  simp only [printing, List.all_append]
  cases printed.all printable <;> rfl

/-- What follows on printing, whatever an integer that is too long is an error of. -/
theorem mapError_printing_bind {ε : Type} (error : PrintFault → ε) (next : α → Except ε β) :
    ((printing printed a).mapError error >>= next)
      = if printed.all printable then next a else .error (error .tooLong) := by
  unfold printing
  split <;> rfl

theorem map_printing (f : α → β) : (printing printed a).map f = printing printed (f a) := by
  unfold printing
  split <;> rfl

/-- What each member of a list has to print is printed from the first to the last. -/
theorem mapM_printing (printed : α → List Int) (f : α → β) (xs : List α) :
    (xs.mapM fun x => printing (printed x) (f x)) = printing (xs.flatMap printed) (xs.map f) := by
  induction xs with
  | nil => rfl
  | cons x xs ih =>
    have hrest : ∀ y, (printing (xs.flatMap printed) (xs.map f) >>= fun ys => pure (y :: ys))
        = printing (xs.flatMap printed) (y :: xs.map f) := by
      intro y
      exact map_printing (y :: ·)
    rw [List.mapM_cons, ih]
    simp only [hrest]
    exact printing_bind (printed x) (f x) (fun _ => xs.flatMap printed) (· :: xs.map f)

end Numeral

/-! ## Scans -/

/-- What has to be printed when a function of a unit is scanned. -/
def SourceUnit.printedOf (u : SourceUnit) (f : ParsedFunction) : List Int :=
  match u.parseError, scanFunction f with
  | none, .error fault => fault.printed
  | _, _ => []

namespace SourceUnit

/-- A function has its report if the fault of its body can be printed. -/
theorem tryScanOf_eq (u : SourceUnit) (f : ParsedFunction) :
    u.tryScanOf f = Numeral.printing (u.printedOf f) (u.scanOf f) := by
  unfold tryScanOf scanOf printedOf ParsedFunction.scan
  cases u.parseError with
  | some error => rfl
  | none =>
    cases scanFunction f with
    | ok patterns => rfl
    | error fault =>
      have hraised : (Except.error fault : Except BodyFault (List Pattern)).mapError BodyFault.toError
          = .error fault.toError := rfl
      simp only [hraised, BodyFault.toError, Numeral.printing]
      cases fault.printed.all Numeral.printable <;> rfl

/-- A unit has its reports if the faults of all its functions can be printed. -/
theorem tryScan_eq (u : SourceUnit) :
    u.tryScan = Numeral.printing (u.functions.flatMap u.printedOf) u.scan := by
  rw [tryScan, funext u.tryScanOf_eq, Numeral.mapM_printing, scan]

/-- A unit in which no fault has to be printed. -/
theorem tryScan_eq_ok {u : SourceUnit} (h : (u.functions.flatMap u.printedOf).all Numeral.printable = true) :
    u.tryScan = .ok u.scan := by
  rw [tryScan_eq]
  exact Numeral.printing_eq_ok_iff.2 ⟨Numeral.all_printable_iff.1 h, rfl⟩

theorem mem_printedOf_iff {u : SourceUnit} {f : ParsedFunction} {i : Int} :
    i ∈ u.printedOf f ↔
      u.parseError = none ∧ ∃ fault, scanFunction f = .error fault ∧ i ∈ fault.printed := by
  unfold printedOf
  cases u.parseError <;> cases scanFunction f <;> simp

end SourceUnit
end AsyncMigration
