import AsyncMigration.Number.Numeral

/-!
# Integers in text

An integer is plainly written as an optional minus and digits without needless zeros. A text that
is not plainly written is cleaned once and tried again: blanks around it, a plus, zeros in front, a
point followed by zeros, and underscores that part its digits are dropped.
-/

namespace AsyncMigration.IntegerText

/-- Why a text is no integer. -/
inductive Fault where
  | malformed
  /-- The text starts with more figures than are read. -/
  | tooLong
deriving DecidableEq, Repr

/-- The integer that is plainly written. A text that starts with too many figures is too long,
whatever follows them. -/
def plain (cs : List Char) : Except Fault Int :=
  let unsigned := if cs.head? = some '-' then cs.tail else cs
  let figures := unsigned.takeWhile Char.isDigit
  let rest := unsigned.dropWhile Char.isDigit
  if figures.head? ≠ some '0' && Numeral.maxFigures < figures.length then .error .tooLong
  else if !rest.isEmpty || (figures.head? = some '0' && figures ≠ ['0']) then .error .malformed
  else
    match Numeral.int? cs with
    | some i => .ok i
    | none => .error .malformed

/-- Whether the first of some characters may come first once zeros are dropped. -/
def startsNumber (c : Char) : Bool := c = '-' || (c.isDigit && c ≠ '0')

/-- Drops zeros and underscores after the zero or underscore `last`, which is kept if nothing or a
point follows. -/
def afterZeros? (last : Char) : List Char → Option (List Char)
  | [] => some [last]
  | c :: cs =>
    if c = '0' || c = '_' then afterZeros? c cs
    else if startsNumber c then some (c :: cs)
    else if c = '.' then some (last :: c :: cs)
    else none

/-- Drops zeros in front, and underscores among them. -/
def dropZeros? : List Char → Option (List Char)
  | [] => none
  | c :: cs =>
    if c = '0' then afterZeros? c cs else if startsNumber c then some (c :: cs) else none

/-- Drops a point that only zeros follow, one at least. -/
def dropPoint (cs : List Char) : List Char :=
  match cs.dropWhile (· ≠ '.') with
  | _ :: z :: zs => if (z :: zs).all (· = '0') then cs.takeWhile (· ≠ '.') else cs
  | _ => cs

/-- Whether an underscore stands beside another one. -/
def hasPair : List Char → Bool
  | '_' :: '_' :: _ => true
  | _ :: cs => hasPair cs
  | [] => false

/-- Drops underscores, if each has other characters on both sides. -/
def dropUnderscores (cs : List Char) : List Char :=
  if cs.head? = some '_' || cs.getLast? = some '_' || hasPair cs then cs
  else cs.filter (· ≠ '_')

/-- Parts a sign from the rest; there may be only one. True stands for a minus. -/
def takeSign? : List Char → Option (Bool × List Char)
  | '+' :: '-' :: _ => none
  | '+' :: cs => some (false, cs)
  | '-' :: cs => some (true, cs)
  | cs => some (false, cs)

/-- A text as it would be plainly written. -/
def clean? (cs : List Char) : Option (List Char) := do
  let (negative, cs) ← takeSign? (Text.trim Text.isSpace cs)
  let cs := dropUnderscores (dropPoint (← dropZeros? cs))
  return if negative then '-' :: cs else cs

/-- The integer that a text spells. -/
def read (s : String) : Except Fault Int :=
  match plain s.toList with
  | .error .malformed =>
    match (clean? s.toList).map plain with
    | some (.ok i) => .ok i
    | _ => .error .malformed
  | result => result

end AsyncMigration.IntegerText
