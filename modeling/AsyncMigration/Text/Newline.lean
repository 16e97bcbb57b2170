/-!
# Line ends

Text files may end their lines in a line feed, a carriage return or both; a reader sees a line feed.
-/

namespace AsyncMigration.Text

/-- Makes every line end a line feed. -/
def unifyLineEnds : List Char → List Char
  | [] => []
  | '\r' :: '\n' :: cs => '\n' :: unifyLineEnds cs
  | '\r' :: cs => '\n' :: unifyLineEnds cs
  | c :: cs => c :: unifyLineEnds cs

/-- The text of a file, or none if its bytes are not UTF-8. -/
def ofBytes? (bytes : ByteArray) : Option String :=
  (String.fromUTF8? bytes).map fun s => String.ofList (unifyLineEnds s.toList)

end AsyncMigration.Text
