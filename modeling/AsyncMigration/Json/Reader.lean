import AsyncMigration.Json.Token
import AsyncMigration.Number.Numeral

/-!
# Reading JSON

Tokens are read one by one by a machine with a stack of the lists and objects that are open. The
format is strict, except that infinities and "not a number" may be written as words. At most
`nestingLimit` lists and objects may be open with something in them; an empty one may stand below.
-/

namespace AsyncMigration.Json

/-- The greatest number of non-empty lists and objects inside one another. -/
def nestingLimit : Nat := 200

/-- The number that a word spells: no sign but a minus, no needless zeros, digits on both sides of
a point, and no more in front of it than an integer may have. -/
def number? (cs : List Char) : Option Json :=
  let unsigned := if cs.head? = some '-' then cs.tail else cs
  let whole := unsigned.takeWhile Char.isDigit
  let rest := unsigned.dropWhile Char.isDigit
  let wholeOk := (whole.length = 1 || (!whole.isEmpty && whole.head? ≠ some '0')) &&
    whole.length ≤ Numeral.maxFigures
  let (fraction, rest) :=
    match rest with
    | '.' :: ds => (some (ds.takeWhile Char.isDigit), ds.dropWhile Char.isDigit)
    | _ => (none, rest)
  let exponentOk :=
    match rest with
    | [] => true
    | mark :: es => (mark = 'e' || mark = 'E') && Numeral.isDigits (Numeral.splitSign es).2
  if !wholeOk || fraction = some [] || !exponentOk then none
  else if fraction.isNone && rest.isEmpty then (Numeral.int? cs).map .integer
  else (Numeral.real? cs).map .real

/-- The value that a word stands for. -/
def wordValue? (cs : List Char) : Option Json :=
  match String.ofList cs with
  | "null" => some .null
  | "true" => some (.bool true)
  | "false" => some (.bool false)
  | "NaN" => some (.real .nan)
  | "Infinity" => some (.real (.infinite false))
  | "-Infinity" => some (.real (.infinite true))
  | _ => number? cs

/-- A list or object that is open, its contents newest first. -/
inductive Opened where
  | list (items : List Json)
  | object (members : List (String × Json))
  /-- An object in which the value of a member is to come. -/
  | member (members : List (String × Json)) (name : String)

/-- What may come next. -/
inductive Expected where
  /-- A value. -/
  | value
  /-- The first item of a list, or its end. -/
  | firstItem
  /-- A comma, or the end of a list. -/
  | moreItems
  /-- The first name in an object, or its end. -/
  | firstName
  /-- A name in an object. -/
  | name
  /-- The colon after a name. -/
  | colon
  /-- A comma, or the end of an object. -/
  | moreMembers
  /-- Nothing: the value is complete. -/
  | nothing (v : Json)

/-- A reader under way. -/
structure Machine where
  opened : List Opened := []
  expected : Expected := .value

namespace Machine

/-- A value has been completed. -/
def complete (v : Json) : List Opened → Option Machine
  | [] => some ⟨[], .nothing v⟩
  | .list items :: rest => some ⟨.list (v :: items) :: rest, .moreItems⟩
  | .member members name :: rest => some ⟨.object ((name, v) :: members) :: rest, .moreMembers⟩
  | .object _ :: _ => none

/-- Takes a token that begins a value. -/
def beginValue (opened : List Opened) : Token → Option Machine
  | .openList => some ⟨.list [] :: opened, .firstItem⟩
  | .openObject => some ⟨.object [] :: opened, .firstName⟩
  | .text s => complete (.text s) opened
  | .word cs => (wordValue? cs).bind (complete · opened)
  | _ => none

/-- Ends the innermost list or object. -/
def finish : List Opened → Option Machine
  | .list items :: rest => complete (.list items.reverse) rest
  | .object members :: rest => complete (.object members.reverse) rest
  | _ => none

/-- Takes a name in the innermost object. -/
def takeName : List Opened → Token → Option Machine
  | .object members :: rest, .text s => some ⟨.member members s :: rest, .colon⟩
  | _, _ => none

/-- Takes a token. -/
def step (m : Machine) (t : Token) : Option Machine :=
  match m.expected, t with
  | .value, t => beginValue m.opened t
  | .firstItem, .closeList => finish m.opened
  | .firstItem, t => if m.opened.length ≤ nestingLimit then beginValue m.opened t else none
  | .moreItems, .comma => some { m with expected := .value }
  | .moreItems, .closeList => finish m.opened
  | .firstName, .closeObject => finish m.opened
  | .firstName, t => if m.opened.length ≤ nestingLimit then takeName m.opened t else none
  | .name, t => takeName m.opened t
  | .colon, .colon => some { m with expected := .value }
  | .moreMembers, .comma => some { m with expected := .name }
  | .moreMembers, .closeObject => finish m.opened
  | _, _ => none

/-- Takes tokens one by one. -/
def run (m : Machine) (ts : List Token) : Option Machine := ts.foldlM step m

end Machine

/-- The value that a text spells, if it spells one. -/
def parse? (s : String) : Option Json := do
  let ts ← tokens? s.toList
  match (← ({} : Machine).run ts).expected with
  | .nothing v => some v
  | _ => none

end AsyncMigration.Json
