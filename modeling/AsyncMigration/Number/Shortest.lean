import AsyncMigration.Number.Binary64

/-!
# Decimal text of a number

A number is written with the fewest digits that read back as the same number (`shortest`), or with
a fixed count of significant digits (`rounded`). Both give a digit string and the exponent of its
first digit; `Layout` says how these are set out, and each output picks its own layout.
-/

namespace AsyncMigration

/-- The decimal `0.d₁d₂… · 10 ^ (exponent + 1)`: digits without zeros at the end, and the power of
ten of the first digit. -/
structure Decimal where
  digits : List Char
  exponent : Int
deriving DecidableEq, Repr

namespace Decimal

/-- Drops the zeros at the end, but never the first digit. -/
def dropZeros (ds : List Char) : List Char :=
  match (ds.reverse.dropWhile (· = '0')).reverse with
  | [] => ds.take 1
  | d :: rest => d :: rest

/-- The decimal of `n · 10 ^ e`. -/
def ofScaled (n : Nat) (e : Int) : Decimal :=
  let ds := Nat.toDigits 10 n
  ⟨dropZeros ds, e + ds.length - 1⟩

end Decimal

namespace Binary64

/-- Whether `10 ^ p` is at most `q` quanta. -/
def tenPowLe (p : Int) (q : Nat) : Bool :=
  if 0 ≤ p then Nat.pow 10 p.toNat * one ≤ q else one ≤ q * Nat.pow 10 p.natAbs

/-- The power of ten of the first digit of `q` quanta. The logarithm to base two gives it up to one
place, and the two neighbours are tried. -/
def leadingPlace (q : Nat) : Int :=
  let guess := (((q.log2 : Int) - 1074) * 30103).fdiv 100000
  if tenPowLe (guess + 2) q then guess + 2
  else if tenPowLe (guess + 1) q then guess + 1
  else if tenPowLe guess q then guess
  else guess - 1

/-- `q` quanta as a fraction of `10 ^ e`. -/
def scaledBy (q : Nat) (e : Int) : Nat × Nat :=
  if 0 ≤ e then (q, one * Nat.pow 10 e.toNat) else (q * Nat.pow 10 e.natAbs, one)

/-- Whether `m · 10 ^ e` reads back as `q` quanta. -/
def readsBack (q m : Nat) (e : Int) : Bool :=
  ofDecimal false m e = finite false q

/-- The decimal with `count` digits, one of the two neighbours of `q` quanta on that grid, that
reads back; the nearer one if both do, the even one if they are equally near. -/
def onGrid? (q : Nat) (count : Nat) : Option Decimal :=
  let e := leadingPlace q - (count : Int) + 1
  let (n, d) := scaledBy q e
  let below := n / d
  let r := n % d
  let upFirst := d < 2 * r ∨ (d = 2 * r ∧ below % 2 = 1)
  let first := if upFirst then below + 1 else below
  let second := if upFirst then below else below + 1
  if readsBack q first e then some (.ofScaled first e)
  else if readsBack q second e then some (.ofScaled second e)
  else none

/-- The decimal with the fewest digits that reads back as `q` quanta. Seventeen digits always do. -/
def shortest (q : Nat) : Decimal :=
  if q = 0 then ⟨['0'], 0⟩
  else ((List.range 17).findSome? fun k => onGrid? q (k + 1)).getD (.ofScaled q 0)

/-- The decimal with `count` significant digits nearest to `q` quanta, a tie going to the even
one. -/
def rounded (count : Nat) (q : Nat) : Decimal :=
  if q = 0 then ⟨['0'], 0⟩
  else
    let e := leadingPlace q - (count : Int) + 1
    let (n, d) := scaledBy q e
    .ofScaled (nearest n d) e

/-- How a decimal is set out. -/
structure Layout where
  /-- The exponents from which on, and below which, the decimal is written positionally. -/
  positionalFrom : Int
  positionalBelow : Int
  /-- Whether a whole number written positionally ends in `.0`. -/
  keepPoint : Bool
  infinity : String
  notANumber : String

/-- An exponent: mark, sign, at least two digits. -/
def exponentText (e : Int) : String :=
  let ds := Nat.toDigits 10 e.natAbs
  let ds := if ds.length < 2 then '0' :: ds else ds
  "e" ++ (if e < 0 then "-" else "+") ++ String.ofList ds

/-- The text of a decimal. -/
def Layout.decimal (f : Layout) (x : Decimal) : String :=
  let ds := x.digits
  if f.positionalFrom ≤ x.exponent ∧ x.exponent < f.positionalBelow then
    if x.exponent < 0 then
      "0." ++ String.ofList (List.replicate (x.exponent.natAbs - 1) '0' ++ ds)
    else
      let whole := x.exponent.toNat + 1
      if ds.length ≤ whole then
        String.ofList (ds ++ List.replicate (whole - ds.length) '0')
          ++ (if f.keepPoint then ".0" else "")
      else String.ofList (ds.take whole) ++ "." ++ String.ofList (ds.drop whole)
  else
    String.ofList (ds.take 1) ++ (if ds.length ≤ 1 then "" else "." ++ String.ofList (ds.drop 1))
      ++ exponentText x.exponent

/-- The text of a number whose finite magnitudes are turned into decimals by `digits`. -/
def Layout.write (f : Layout) (digits : Nat → Decimal) : Binary64 → String
  | nan => f.notANumber
  | infinite s => (if s then "-" else "") ++ f.infinity
  | finite s q => (if s then "-" else "") ++ f.decimal (digits q)

/-- Numbers in full: positional from 10⁻⁴ up to 10¹⁶. -/
def full : Layout :=
  { positionalFrom := -4, positionalBelow := 16, keepPoint := true,
    infinity := "inf", notANumber := "nan" }

/-- Numbers inside a JSON text. -/
def fullJson : Layout := { full with infinity := "Infinity", notANumber := "NaN" }

/-- Numbers in a summary line: six significant digits. -/
def brief : Layout := { full with positionalBelow := 6, keepPoint := false }

/-- The number with the fewest digits that read back. -/
def text (x : Binary64) : String := full.write shortest x

/-- The number as a JSON text shows it. -/
def jsonText (x : Binary64) : String := fullJson.write shortest x

/-- The number to six significant digits. -/
def briefText (x : Binary64) : String := brief.write (rounded 6) x

end Binary64
end AsyncMigration
