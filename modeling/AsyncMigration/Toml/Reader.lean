import AsyncMigration.Toml.Document
import AsyncMigration.Toml.Number

/-!
# Reading TOML

A text is read statement by statement, and each is added to the document at once, so that the first
fault in the text is the one that is found. Values nest, so the readers of values carry the room
that is left for nesting, and a bound on the steps: each character takes two of them at most.
-/

namespace AsyncMigration.Toml

/-- The rest after a comment, if one begins here. -/
def skipComment (cs : List Char) : Option (List Char) :=
  match cs with
  | '#' :: rest =>
    if (rest.takeWhile (· ≠ '\n')).any isControl then none else some (rest.dropWhile (· ≠ '\n'))
  | _ => some cs

/-- The rest after blanks, line ends and comments. -/
def skipFiller (inComment : Bool) : List Char → Option (List Char)
  | [] => some []
  | c :: cs =>
    if inComment then
      if c = '\n' then skipFiller false cs else if isControl c then none else skipFiller true cs
    else if isBlank c || c = '\n' then skipFiller false cs
    else if c = '#' then skipFiller true cs
    else some (c :: cs)

mutual

/-- A value. There are at most `n` steps, and `room` is left for nesting. -/
def value : Nat → Nat → List Char → Except Fault (ConfigValue × List Char)
  | 0, _, _ => .error .malformed
  | n + 1, room, cs =>
    match cs with
    | 't' :: 'r' :: 'u' :: 'e' :: rest => .ok (.truth true, rest)
    | 'f' :: 'a' :: 'l' :: 's' :: 'e' :: rest => .ok (.truth false, rest)
    | '[' :: rest =>
      if room < 3 then .error (.excess .nesting)
      else do
        let (items, rest) ← listItems n (room - 2) (← fitting (skipFiller false rest))
        return (.list items, rest)
    | '\x7b' :: rest =>
      if room < 5 then .error (.excess .nesting)
      else do
        let (t, rest) ← inlineEntries n (room - 3) true {} (skipBlanks rest)
        return (.table t.table, rest)
    | c :: _ =>
      if c = '"' || c = apostrophe then
        fitting ((text cs).map fun (s, rest) => (.text s, rest))
      else figures cs
    | [] => .error .malformed

/-- The items of a list up to its end. -/
def listItems : Nat → Nat → List Char → Except Fault (List ConfigValue × List Char)
  | 0, _, _ => .error .malformed
  | n + 1, room, cs =>
    match cs with
    | ']' :: rest => .ok ([], rest)
    | _ => do
      let (v, rest) ← value n room cs
      match ← fitting (skipFiller false rest) with
      | ']' :: rest => return ([v], rest)
      | ',' :: rest =>
        let (vs, rest) ← listItems n room (← fitting (skipFiller false rest))
        return (v :: vs, rest)
      | _ => .error .malformed

/-- Adds the entries of a table in one piece, up to its end. Only the first may be missing. -/
def inlineEntries : Nat → Nat → Bool → InlineTable → List Char →
    Except Fault (InlineTable × List Char)
  | 0, _, _, _, _ => .error .malformed
  | n + 1, room, isFirst, t, cs =>
    match isFirst, cs with
    | true, '\x7d' :: rest => .ok (t, rest)
    | _, _ => do
      let (k, rest) ← fitting (key cs)
      let (v, rest) ← value n room (skipBlanks (← fitting (expect '=' rest)))
      let t ← fitting (t.add k v)
      match skipBlanks rest with
      | '\x7d' :: rest => return (t, rest)
      | ',' :: rest => inlineEntries n room false t (skipBlanks rest)
      | _ => .error .malformed

end

/-- A header or an entry. -/
def statement (cs : List Char) : Except Fault (Statement × List Char) :=
  match cs with
  | '[' :: '[' :: rest => do
    let (k, rest) ← fitting (key (skipBlanks rest))
    return (.listHeader k, ← fitting ((expect ']' rest).bind (expect ']')))
  | '[' :: rest => do
    let (k, rest) ← fitting (key (skipBlanks rest))
    return (.tableHeader k, ← fitting (expect ']' rest))
  | _ => do
    let (k, rest) ← fitting (key cs)
    let (v, rest) ← value (2 * cs.length + 1) nestingRoom (skipBlanks (← fitting (expect '=' rest)))
    return (.entry k v, rest)

/-- Adds the statements of a text to a document, each on a line of its own. There are at most `n`
lines. -/
def statements : Nat → Document → List Char → Except Fault Document
  | 0, _, _ => .error .malformed
  | n + 1, d, cs =>
    match skipBlanks cs with
    | [] => .ok d
    | '\n' :: rest => statements n d rest
    | '#' :: rest => do
      match ← fitting (skipComment ('#' :: rest)) with
      | [] => return d
      | _ :: rest => statements n d rest
    | cs => do
      let (s, rest) ← statement cs
      let d ← fitting (d.add s)
      match ← fitting (skipComment (skipBlanks rest)) with
      | [] => return d
      | '\n' :: rest => statements n d rest
      | _ => .error .malformed

/-- The table that a text spells. -/
def parse (s : String) : Except Fault ConfigTable :=
  (statements (s.length + 1) {} s.toList).map (·.table)

end AsyncMigration.Toml
