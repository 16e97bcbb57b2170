import AsyncMigration.Text.Hex

/-!
# Keys and texts in TOML

Texts come in four forms: basic ones between double quotes, in which a backslash begins an escape,
literal ones between single quotes, and both of them over several lines between triple quotes. Each
reader is given what follows the opening quotes and gives the text and what follows the closing
quotes.
-/

namespace AsyncMigration.Toml

open Text (hexValue?)

/-- A reader gives what it read and the rest, or nothing if it does not fit. -/
abbrev Reader (α : Type) := List Char → Option (α × List Char)

def isBlank (c : Char) : Bool := c = ' ' || c = '\t'

/-- Control characters; only the tab may stand in a text or comment. -/
def isControl (c : Char) : Bool := (c.toNat < 0x20 && c ≠ '\t') || c.toNat = 0x7f

def isBareKeyChar (c : Char) : Bool := c.isAlphanum || c = '-' || c = '_'

/-- Skips blanks. -/
def skipBlanks (cs : List Char) : List Char := cs.dropWhile isBlank

/-- The apostrophe, which encloses literal texts. -/
def apostrophe : Char := Char.ofNat 0x27

/-- The character of a code point that is no surrogate. -/
def scalar? (n : Nat) : Option Char :=
  if n < 0xd800 || (0xe000 ≤ n && n ≤ 0x10ffff) then some (Char.ofNat n) else none

/-- The character that a letter after a backslash stands for. -/
def escape? (c : Char) : Option Char :=
  match c with
  | 'b' => some (Char.ofNat 8)
  | 't' => some '\t'
  | 'n' => some '\n'
  | 'f' => some (Char.ofNat 12)
  | 'r' => some '\r'
  | '"' => some '"'
  | '\\' => some '\\'
  | _ => none

/-- Puts a character in front of what was read. -/
def prepend (c : Char) (r : Option (List Char × List Char)) : Option (List Char × List Char) :=
  r.map fun (s, rest) => (c :: s, rest)

/-- A basic text on one line. -/
def basic : Reader (List Char)
  | [] => none
  | '"' :: cs => some ([], cs)
  | '\\' :: 'u' :: a :: b :: c :: d :: cs =>
    match (hexValue? [a, b, c, d]).bind scalar? with
    | some x => prepend x (basic cs)
    | none => none
  | '\\' :: 'U' :: a :: b :: c :: d :: e :: f :: g :: h :: cs =>
    match (hexValue? [a, b, c, d, e, f, g, h]).bind scalar? with
    | some x => prepend x (basic cs)
    | none => none
  | '\\' :: c :: cs =>
    match escape? c with
    | some x => prepend x (basic cs)
    | none => none
  | c :: cs => if isControl c then none else prepend c (basic cs)

/-- A literal text on one line. -/
def literal (cs : List Char) : Option (List Char × List Char) :=
  let s := cs.takeWhile (· ≠ apostrophe)
  match cs.dropWhile (· ≠ apostrophe) with
  | _ :: rest => if s.any isControl then none else some (s, rest)
  | [] => none

/-- Quotes that directly follow the closing quotes, two at most, belong to the text. -/
def trailing (quote : Char) (cs : List Char) : List Char × List Char :=
  let n := min 2 (cs.takeWhile (· = quote)).length
  (cs.take n, cs.drop n)

/-- Where the reader of a basic text over several lines stands. -/
inductive Folding where
  /-- In the text. -/
  | off
  /-- After a backslash and blanks, before the end of the line. -/
  | line
  /-- After such a line, in the blanks before the text goes on. -/
  | blanks
deriving DecidableEq

/-- A basic text over several lines. A backslash at the end of a line joins it to the next text. -/
def multiBasic (folding : Folding) : Reader (List Char)
  | [] => none
  | '"' :: '"' :: '"' :: cs =>
    if folding = .line then none
    else
      let (quotes, rest) := trailing '"' cs
      some (quotes, rest)
  | '\\' :: 'u' :: a :: b :: c :: d :: cs =>
    if folding = .line then none
    else match (hexValue? [a, b, c, d]).bind scalar? with
      | some x => prepend x (multiBasic .off cs)
      | none => none
  | '\\' :: 'U' :: a :: b :: c :: d :: e :: f :: g :: h :: cs =>
    if folding = .line then none
    else match (hexValue? [a, b, c, d, e, f, g, h]).bind scalar? with
      | some x => prepend x (multiBasic .off cs)
      | none => none
  | '\\' :: c :: cs =>
    if folding = .line then none
    else if c = '\n' then multiBasic .blanks cs
    else if isBlank c then multiBasic .line cs
    else match escape? c with
      | some x => prepend x (multiBasic .off cs)
      | none => none
  | c :: cs =>
    match folding with
    | .line =>
      if isBlank c then multiBasic .line cs
      else if c = '\n' then multiBasic .blanks cs
      else none
    | .blanks =>
      if isBlank c || c = '\n' then multiBasic .blanks cs
      else if isControl c then none
      else prepend c (multiBasic .off cs)
    | .off =>
      if isControl c && c ≠ '\n' then none else prepend c (multiBasic .off cs)

/-- A literal text over several lines, up to the first three apostrophes. -/
def multiLiteral : Reader (List Char)
  | [] => none
  | c :: cs =>
    if c = apostrophe && cs.take 2 = [apostrophe, apostrophe] then
      let (quotes, rest) := trailing apostrophe (cs.drop 2)
      some (quotes, rest)
    else if isControl c && c ≠ '\n' then none
    else prepend c (multiLiteral cs)

/-- A line end right after the opening quotes does not belong to the text. -/
def dropFirstLineEnd : List Char → List Char
  | '\n' :: cs => cs
  | cs => cs

/-- A text in any form. -/
def text (cs : List Char) : Option (String × List Char) :=
  let read :=
    match cs with
    | '"' :: '"' :: '"' :: rest => multiBasic .off (dropFirstLineEnd rest)
    | '"' :: rest => basic rest
    | c :: rest =>
      if c ≠ apostrophe then none
      else if rest.take 2 = [apostrophe, apostrophe] then
        multiLiteral (dropFirstLineEnd (rest.drop 2))
      else literal rest
    | [] => none
  read.map fun (s, rest) => (String.ofList s, rest)

/-- A part of a key: bare, or a text on one line. -/
def keyPart (cs : List Char) : Option (String × List Char) :=
  match cs with
  | '"' :: rest => (basic rest).map fun (s, rest) => (String.ofList s, rest)
  | c :: rest =>
    if c = apostrophe then (literal rest).map fun (s, rest) => (String.ofList s, rest)
    else if isBareKeyChar c then
      some (String.ofList (cs.takeWhile isBareKeyChar), cs.dropWhile isBareKeyChar)
    else none
  | [] => none

/-- A key: parts joined by points, blanks around them allowed. There are at most `n` parts. -/
def keyParts : Nat → Reader (List String)
  | 0, _ => none
  | n + 1, cs => do
    let (part, rest) ← keyPart cs
    match skipBlanks rest with
    | '.' :: more =>
      let (parts, rest) ← keyParts n (skipBlanks more)
      return (part :: parts, rest)
    | rest => return ([part], rest)

/-- A key. -/
def key (cs : List Char) : Option (List String × List Char) := keyParts (cs.length + 1) cs

end AsyncMigration.Toml
