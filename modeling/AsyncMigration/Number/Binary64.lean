/-!
# Double-precision numbers

Weights, thresholds and scores are double-precision numbers. Every finite one is a whole multiple
of the smallest positive one, 2⁻¹⁰⁷⁴, so a finite number is a sign and a count of these quanta, and
all arithmetic is exact arithmetic on naturals followed by one rounding:

* `roundRatio n d` is the multiple nearest to `n / d` that fits in 53 significant bits, a tie going
  to the even one;
* `ofRatio` adds a sign and the overflow to an infinity;
* `add`, `mul` and the order `le` follow the usual rules for infinities and for "not a number".
-/

namespace AsyncMigration

/-- A double-precision number: `finite s n` is `n` quanta of 2⁻¹⁰⁷⁴, negative if `s`. Zero has a
sign too. -/
inductive Binary64 where
  | nan
  | infinite (negative : Bool)
  | finite (negative : Bool) (quanta : Nat)
deriving DecidableEq, Repr, Inhabited

namespace Binary64

/-- The number of quanta in the number one. -/
def one : Nat := Nat.pow 2 1074

/-- The least count of quanta that is out of range. -/
def limit : Nat := Nat.pow 2 2098

/-- The significant bits of a number. -/
def precision : Nat := 53

/-- How many low bits a magnitude of `q` quanta has to give up to fit the precision. -/
def excess (q : Nat) : Nat := q.log2 + 1 - precision

/-- The whole number nearest to `n / d`, a tie going to the even one. -/
def nearest (n d : Nat) : Nat :=
  let q := n / d
  let r := n % d
  if d < 2 * r ∨ (d = 2 * r ∧ q % 2 = 1) then q + 1 else q

/-- The count of quanta nearest to `n / d` among those that fit the precision. -/
def roundRatio (n d : Nat) : Nat :=
  let unit := Nat.pow 2 (excess (n / d))
  nearest n (d * unit) * unit

/-- The number nearest to `n / d` quanta; an infinity if that is out of range. -/
def ofRatio (negative : Bool) (n d : Nat) : Binary64 :=
  let q := roundRatio n d
  if q < limit then finite negative q else infinite negative

/-- Positive zero. -/
def zero : Binary64 := finite false 0

/-- A natural number that fits the precision. -/
def ofSmall (n : Nat) : Binary64 := finite false (n * one)

/-- An integer has no number near it. -/
inductive ConversionError where
  | outOfRange
deriving DecidableEq, Repr

/-- The error in words. -/
def ConversionError.message : ConversionError → String
  | outOfRange => "int too large to convert to float"

/-- The number nearest to an integer, unless that is out of range. -/
def ofInt (i : Int) : Except ConversionError Binary64 :=
  let q := roundRatio (i.natAbs * one) 1
  if q < limit then .ok (finite (i < 0) q) else .error .outOfRange

/-- The number nearest to `digits · 10 ^ exponent`. Magnitudes that are out of range by far are
settled by the position of the first digit alone. -/
def ofDecimal (negative : Bool) (digits : Nat) (exponent : Int) : Binary64 :=
  let top := exponent + (Nat.toDigits 10 digits).length
  if digits = 0 then finite negative 0
  else if 400 < top then infinite negative
  else if top < -400 then finite negative 0
  else if 0 ≤ exponent then ofRatio negative (digits * Nat.pow 10 exponent.toNat * one) 1
  else ofRatio negative (digits * one) (Nat.pow 10 exponent.natAbs)

/-- The signed count of quanta of a finite number. -/
def signed (negative : Bool) (quanta : Nat) : Int :=
  if negative then -(quanta : Int) else quanta

/-- Addition. Opposite numbers add up to positive zero. -/
def add : Binary64 → Binary64 → Binary64
  | nan, _ => nan
  | _, nan => nan
  | infinite s, infinite t => if s = t then infinite s else nan
  | infinite s, finite _ _ => infinite s
  | finite _ _, infinite t => infinite t
  | finite s m, finite t n =>
    if s = t then ofRatio s (m + n) 1
    else if m = n then zero
    else if n < m then ofRatio s (m - n) 1
    else ofRatio t (n - m) 1

/-- Multiplication. An infinity times zero is not a number. -/
def mul : Binary64 → Binary64 → Binary64
  | nan, _ => nan
  | _, nan => nan
  | infinite s, infinite t => infinite (s != t)
  | infinite s, finite t n => if n = 0 then nan else infinite (s != t)
  | finite s m, infinite t => if m = 0 then nan else infinite (s != t)
  | finite s m, finite t n => ofRatio (s != t) (m * n) one

/-- The order; what is not a number compares with nothing. -/
def le : Binary64 → Binary64 → Bool
  | nan, _ => false
  | _, nan => false
  | infinite true, _ => true
  | _, infinite false => true
  | infinite false, _ => false
  | _, infinite true => false
  | finite s m, finite t n => signed s m ≤ signed t n

/-- Whether two numbers are equal in value, so that the two zeros are. -/
def sameValue (x y : Binary64) : Bool := le x y && le y x

/-- Whether the value is a whole number. -/
def isWhole : Binary64 → Bool
  | finite _ n => n % one = 0
  | _ => false

/-- The whole part of a finite number, toward zero. -/
def truncate? : Binary64 → Option Int
  | finite s n => some (signed s (n / one))
  | _ => none

end Binary64
end AsyncMigration
