import AsyncMigration.Config.Value
import AsyncMigration.Number.Numeral
import AsyncMigration.Toml.Fault
import AsyncMigration.Toml.Text

/-!
# Numbers, dates and times in TOML

Each reader takes the longest start of the text that fits and leaves the rest.
-/

namespace AsyncMigration.Toml

/-- Digits, single underscores between them allowed; gives the digits alone. -/
def moreDigits (p : Char → Bool) : List Char → List Char × List Char
  | '_' :: c :: cs =>
    if p c then
      let (ds, rest) := moreDigits p cs
      (c :: ds, rest)
    else ([], '_' :: c :: cs)
  | c :: cs =>
    if p c then
      let (ds, rest) := moreDigits p cs
      (c :: ds, rest)
    else ([], c :: cs)
  | [] => ([], [])

/-- At least one digit. -/
def digits (p : Char → Bool) (cs : List Char) : Option (List Char × List Char) :=
  if cs.head?.any p then some (moreDigits p cs) else none

/-- A natural number in base 16, 8 or 2, after its mark. -/
def based (base : Nat) (cs : List Char) : Option (ConfigValue × List Char) := do
  let isBaseDigit (c : Char) : Bool := (Text.hexDigit? c).any (· < base)
  let (ds, rest) ← digits isBaseDigit cs
  let n := ds.foldl (fun n c => base * n + (Text.hexDigit? c).getD 0) 0
  return (.integer n, rest)

/-- An optional sign, as written. -/
def sign : List Char → List Char × List Char
  | '+' :: cs => (['+'], cs)
  | '-' :: cs => (['-'], cs)
  | cs => ([], cs)

/-- The digits before a point: zero alone, or no zero at the start. -/
def wholeDigits : Reader (List Char)
  | '0' :: cs => some (['0'], cs)
  | cs => digits Char.isDigit cs

/-- A point and digits, if they follow. -/
def fraction (cs : List Char) : List Char × List Char :=
  match cs with
  | '.' :: rest =>
    match digits Char.isDigit rest with
    | some (ds, rest) => ('.' :: ds, rest)
    | none => ([], cs)
  | _ => ([], cs)

/-- A power of ten, if it follows. -/
def exponent (cs : List Char) : List Char × List Char :=
  match cs with
  | [] => ([], cs)
  | c :: rest =>
    if c = 'e' || c = 'E' then
      let (s, rest) := sign rest
      match digits Char.isDigit rest with
      | some (ds, rest) => ('e' :: s ++ ds, rest)
      | none => ([], cs)
    else ([], cs)

/-- An integer, or a number with a fraction or a power of ten. Only the figures of an integer are
limited. -/
def decimal (cs : List Char) : Except Fault (ConfigValue × List Char) := do
  let (s, rest) := sign cs
  let (whole, rest) ← fitting (wholeDigits rest)
  let (f, rest) := fraction rest
  let (e, rest) := exponent rest
  if !f.isEmpty || !e.isEmpty then
    return (.real (← fitting (Numeral.real? (s ++ whole ++ f ++ e))), rest)
  else if Numeral.maxFigures < whole.length then .error (.excess (.digits whole.length))
  else return (.integer (← fitting (Numeral.int? (s ++ whole))), rest)

/-- A number in figures. -/
def number (cs : List Char) : Except Fault (ConfigValue × List Char) :=
  let inBase :=
    match cs with
    | '0' :: 'x' :: rest => based 16 rest
    | '0' :: 'b' :: rest => based 2 rest
    | '0' :: 'o' :: rest => based 8 rest
    | _ => none
  match inBase with
  | some r => .ok r
  | none => decimal cs

/-- An infinity, or what is not a number. -/
def namedNumber (cs : List Char) : Option (ConfigValue × List Char) :=
  let (s, rest) := sign cs
  match rest with
  | 'i' :: 'n' :: 'f' :: rest => some (.real (.infinite (s = ['-'])), rest)
  | 'n' :: 'a' :: 'n' :: rest => some (.real .nan, rest)
  | _ => none

/-- A number of exactly `width` digits within bounds. -/
def fixed (width low high : Nat) (cs : List Char) : Option (Nat × List Char) :=
  let ds := cs.take width
  let n := Numeral.natOf ds
  if ds.length = width && ds.all Char.isDigit && low ≤ n && n ≤ high then some (n, cs.drop width)
  else none

/-- Takes one character. -/
def expect (c : Char) : List Char → Option (List Char)
  | [] => none
  | d :: cs => if d = c then some cs else none

/-- The rest after a time of day. -/
def timeOfDay (cs : List Char) : Option (List Char) := do
  let (_, cs) ← fixed 2 0 23 cs
  let (_, cs) ← fixed 2 0 59 (← expect ':' cs)
  let (_, cs) ← fixed 2 0 59 (← expect ':' cs)
  match cs with
  | '.' :: ds => return if ds.head?.any Char.isDigit then ds.dropWhile Char.isDigit else cs
  | _ => return cs

/-- The rest after an offset from universal time, if there is one. -/
def offset (cs : List Char) : List Char :=
  match cs with
  | 'Z' :: rest | 'z' :: rest => rest
  | c :: rest =>
    let after? := do
      let (_, rest) ← fixed 2 0 23 rest
      let (_, rest) ← fixed 2 0 59 (← expect ':' rest)
      return rest
    if c = '+' || c = '-' then after?.getD cs else cs
  | [] => []

/-- The number of days of a month. -/
def daysIn (year month : Nat) : Nat :=
  if month = 2 then
    if year % 4 = 0 && (year % 100 ≠ 0 || year % 400 = 0) then 29 else 28
  else if month = 4 || month = 6 || month = 9 || month = 11 then 30
  else 31

/-- The rest after a date, and whether there is such a day. -/
def date (cs : List Char) : Option (Bool × List Char) := do
  let (year, cs) ← fixed 4 0 9999 cs
  let (month, cs) ← fixed 2 1 12 (← expect '-' cs)
  let (day, cs) ← fixed 2 1 31 (← expect '-' cs)
  return (1 ≤ year && day ≤ daysIn year month, cs)

/-- The rest after a date that may have a time of day and an offset. -/
def dateTime (cs : List Char) : Option (Bool × List Char) := do
  let (exists?, rest) ← date cs
  match rest with
  | c :: more =>
    if c = 'T' || c = 't' || c = ' ' then
      return (exists?, ((timeOfDay more).map offset).getD rest)
    else return (exists?, rest)
  | [] => return (exists?, rest)

/-- A value from the text between two points of the input. -/
def momentOf (cs rest : List Char) : ConfigValue × List Char :=
  (.moment (String.ofList (cs.take (cs.length - rest.length))), rest)

/-- A date, a time, or a number. A day that does not exist is refused. -/
def figures (cs : List Char) : Except Fault (ConfigValue × List Char) :=
  match dateTime cs with
  | some (exists?, rest) => if exists? then .ok (momentOf cs rest) else .error .malformed
  | none =>
    match timeOfDay cs with
    | some rest => .ok (momentOf cs rest)
    | none =>
      match number cs with
      | .error .malformed => fitting (namedNumber cs)
      | result => result

end AsyncMigration.Toml
