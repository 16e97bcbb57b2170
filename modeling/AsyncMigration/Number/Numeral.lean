import AsyncMigration.Number.Binary64
import AsyncMigration.Text.Blank
import AsyncMigration.Text.Digit
import AsyncMigration.Text.Quoted

/-!
# Numerals

Reading numbers from text. Digits may be grouped by single underscores; a number may be written in
full or with a power of ten, and infinities and "not a number" have names. Digits of all scripts
count. An integer has only so many figures, both where it is read and where it is printed.
-/

namespace AsyncMigration.Numeral

/-- Why a text is not read as a number. -/
inductive Fault where
  | notReal (s : String)
  | notInteger (s : String)
  /-- An integer has too many figures. -/
  | tooLong (count : Nat)
deriving DecidableEq, Repr

/-- The greatest number of figures of an integer. -/
def maxFigures : Nat := 4300

/-- How much of a text that is no integer is shown. -/
def shownLength : Nat := 200

/-- Why a text is not read, in words. -/
def Fault.message : Fault → String
  | notReal s => "could not convert string to float: " ++ Text.quoted s
  | notInteger s =>
    "invalid literal for int() with base 10: "
      ++ String.ofList ((Text.quoted s).toList.take shownLength)
  | tooLong count =>
    "Exceeds the limit (" ++ toString maxFigures ++ " digits) for integer string conversion: "
      ++ "value has " ++ toString count
      ++ " digits; use sys.set_int_max_str_digits() to increase the limit"

/-- Whether there are digits only, and at least one. -/
def isDigits (cs : List Char) : Bool := !cs.isEmpty && cs.all Char.isDigit

/-- The number that digits stand for. -/
def natOf (cs : List Char) : Nat := cs.foldl (fun n c => 10 * n + (c.toNat - 48)) 0

/-- Parts an optional sign from the rest; true stands for a minus. -/
def splitSign : List Char → Bool × List Char
  | '-' :: cs => (true, cs)
  | '+' :: cs => (false, cs)
  | cs => (false, cs)

/-- Removes underscores that stand between two digits; any other underscore is refused. -/
def ungroup? : List Char → Option (List Char)
  | [] => some []
  | '_' :: _ => none
  | c :: '_' :: d :: cs =>
    if c.isDigit && d.isDigit then (ungroup? (d :: cs)).map (c :: ·) else none
  | c :: cs => (ungroup? cs).map (c :: ·)

/-- An integer: an optional sign and digits. -/
def int? (cs : List Char) : Option Int :=
  let (negative, ds) := splitSign cs
  if isDigits ds then some (if negative then -(natOf ds : Int) else natOf ds) else none

/-- A number in figures: an optional sign, digits with or without a point, and an optional power of
ten. -/
def real? (cs : List Char) : Option Binary64 := do
  let (negative, cs) := splitSign cs
  let isMark (c : Char) : Bool := c = 'e' || c = 'E'
  let figures := cs.takeWhile (!isMark ·)
  let exponent ← match cs.dropWhile (!isMark ·) with
    | [] => some 0
    | _ :: es => int? es
  let whole := figures.takeWhile (· ≠ '.')
  let rest := (figures.dropWhile (· ≠ '.')).drop 1
  if isDigits (whole ++ rest) then
    some (.ofDecimal negative (natOf (whole ++ rest)) (exponent - rest.length))
  else none

/-- A number by name. -/
def named? (cs : List Char) : Option Binary64 :=
  let (negative, name) := splitSign cs
  match String.ofList (name.map Char.toLower) with
  | "inf" | "infinity" => some (.infinite negative)
  | "nan" => some .nan
  | _ => none

/-- A text without the white space around it, and with plain digits in place of those of any
script. -/
def plain (s : String) : List Char := (Text.trim Text.isSpace s.toList).map Text.plainDigit

/-- A number in any form, white space around it allowed. -/
def real (s : String) : Except Fault Binary64 :=
  let cs := plain s
  match (named? cs).or ((ungroup? cs).bind real?) with
  | some x => .ok x
  | none => .error (.notReal s)

/-- An integer, white space around it allowed. Figures that are too many count as that, whatever
follows them. -/
def integer (s : String) : Except Fault Int :=
  let cs := plain s
  let figures := (splitSign cs).2.takeWhile fun c => c.isDigit || c = '_'
  match ungroup? figures with
  | none => .error (.notInteger s)
  | some ds =>
    if maxFigures < ds.length then .error (.tooLong ds.length)
    else
      match (ungroup? cs).bind int? with
      | some i => .ok i
      | none => .error (.notInteger s)

/-- Why an integer is not printed. -/
inductive PrintFault where
  /-- It has too many figures. -/
  | tooLong
deriving DecidableEq, Repr

/-- Why an integer is not printed, in words. -/
def PrintFault.message : PrintFault → String
  | tooLong =>
    "Exceeds the limit (" ++ toString maxFigures ++ " digits) for integer string conversion; "
      ++ "use sys.set_int_max_str_digits() to increase the limit"

/-- Whether an integer can be printed; its sign does not count. -/
def printable (i : Int) : Bool := (Nat.toDigits 10 i.natAbs).length ≤ maxFigures

/-- Gives `a`, for which integers have to be printed. -/
def printing {α : Type} (printed : List Int) (a : α) : Except PrintFault α :=
  if printed.all printable then .ok a else .error .tooLong

end AsyncMigration.Numeral
