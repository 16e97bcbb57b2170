import AsyncMigration.Text.Hex
import AsyncMigration.Text.Printable

/-!
# Quoted text

Messages show a text between quotes, so that blanks and unprintable characters can be seen. Single
quotes are used, unless the text has a single quote and no double quote. The quote in use, the
backslash, line feed, carriage return and tab are escaped, as is every unprintable character, by its
code point in the shortest of two, four or eight hexadecimal digits.
-/

namespace AsyncMigration.Text

/-- The quote that a text is shown in. -/
def quoteFor (cs : List Char) : Char :=
  if cs.contains '\'' && !cs.contains '"' then '"' else '\''

/-- A character as it stands between quotes. -/
def quotedChar (quote c : Char) : List Char :=
  if c = quote || c = '\\' then ['\\', c]
  else if c = '\n' then ['\\', 'n']
  else if c = '\r' then ['\\', 'r']
  else if c = '\t' then ['\\', 't']
  else if isPrintable c then [c]
  else if c.toNat < 0x100 then '\\' :: 'x' :: hex 2 c.toNat
  else if c.toNat < 0x10000 then '\\' :: 'u' :: hex 4 c.toNat
  else '\\' :: 'U' :: hex 8 c.toNat

/-- A text between quotes. -/
def quoted (s : String) : String :=
  let cs := s.toList
  let q := quoteFor cs
  String.ofList (q :: cs.flatMap (quotedChar q) ++ [q])

/-- A list of texts, each quoted, in square brackets. -/
def quotedList (ss : List String) : String := "[" ++ ", ".intercalate (ss.map quoted) ++ "]"

end AsyncMigration.Text
