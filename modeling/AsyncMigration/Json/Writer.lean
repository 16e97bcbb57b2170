import AsyncMigration.Json.Value
import AsyncMigration.Number.Shortest
import AsyncMigration.Text.Quoted

/-!
# JSON text

Values are written over several lines, two blanks of indentation per level, in printable ASCII:
all other characters are written as UTF-16 units.
-/

namespace AsyncMigration.Json

/-- A UTF-16 unit as an escape. -/
def unitEscape (n : Nat) : List Char := '\\' :: 'u' :: Text.hex 4 n

/-- A character as it stands in a JSON text. -/
def charText (c : Char) : List Char :=
  if c = '"' then ['\\', '"']
  else if c = '\\' then ['\\', '\\']
  else if c = '\n' then ['\\', 'n']
  else if c = '\r' then ['\\', 'r']
  else if c = '\t' then ['\\', 't']
  else if c.toNat = 8 then ['\\', 'b']
  else if c.toNat = 12 then ['\\', 'f']
  else if 0x20 ≤ c.toNat ∧ c.toNat < 0x7f then [c]
  else if c.toNat < 0x10000 then unitEscape c.toNat
  else
    let n := c.toNat - 0x10000
    unitEscape (0xd800 + n / 0x400) ++ unitEscape (0xdc00 + n % 0x400)

/-- A text between double quotes. -/
def quote (s : String) : String := String.ofList ('"' :: s.toList.flatMap charText ++ ['"'])

/-- The start of a line with an indentation. -/
def newLine (indent : Nat) : String := String.ofList ('\n' :: List.replicate indent ' ')

mutual

/-- The text of a value that stands at an indentation. -/
def prettyAt (indent : Nat) : Json → String
  | null => "null"
  | bool b => if b then "true" else "false"
  | integer i => toString i
  | real x => x.jsonText
  | text s => quote s
  | list items =>
    if items.isEmpty then "[]"
    else "[" ++ prettyItems (indent + 2) items ++ newLine indent ++ "]"
  | object members =>
    if members.isEmpty then "\x7b\x7d"
    else "\x7b" ++ prettyMembers (indent + 2) members ++ newLine indent ++ "\x7d"

/-- The items of a list, one to a line. -/
def prettyItems (indent : Nat) : List Json → String
  | [] => ""
  | item :: items =>
    newLine indent ++ prettyAt indent item ++ (if items.isEmpty then "" else ",")
      ++ prettyItems indent items

/-- The members of an object, one to a line. -/
def prettyMembers (indent : Nat) : List (String × Json) → String
  | [] => ""
  | (name, value) :: members =>
    newLine indent ++ quote name ++ ": " ++ prettyAt indent value
      ++ (if members.isEmpty then "" else ",") ++ prettyMembers indent members

end

/-- The text of a value. -/
def pretty (v : Json) : String := prettyAt 0 v

end AsyncMigration.Json
