/-!
# Blank characters

Names are read with the blanks around them removed. Two sets of blanks are in use: the Unicode
property White_Space, and the wider one that also has the four separators U+001C to U+001F.
-/

namespace AsyncMigration.Text

/-- The Unicode property White_Space. -/
def isSpace (c : Char) : Bool :=
  let n := c.toNat
  (0x9 ≤ n && n ≤ 0xd) || n = 0x20 || n = 0x85 || n = 0xa0 || n = 0x1680
    || (0x2000 ≤ n && n ≤ 0x200a) || n = 0x2028 || n = 0x2029 || n = 0x202f || n = 0x205f
    || n = 0x3000

/-- White space, or one of the information separators. -/
def isBlank (c : Char) : Bool := isSpace c || (0x1c ≤ c.toNat && c.toNat ≤ 0x1f)

/-- Removes the characters of a class at both ends. -/
def trim (p : Char → Bool) (cs : List Char) : List Char :=
  ((cs.dropWhile p).reverse.dropWhile p).reverse

/-- Cuts a text at every `sep`; there is one part more than there are cuts. -/
def cut (sep : Char) : List Char → List (List Char)
  | [] => [[]]
  | c :: cs =>
    if c = sep then [] :: cut sep cs
    else match cut sep cs with
      | part :: parts => (c :: part) :: parts
      | [] => [[c]]

end AsyncMigration.Text
