/-!
# Shown text

Text that is shown is stripped of the codes by which a terminal would be steered: the escape
character, an opening bracket, parameters, and a letter. Each character is looked at once, so what
stands on both sides of a code makes no further code. A line end is a line feed: a carriage return
right before it is dropped too.
-/

namespace AsyncMigration.Text

/-- The character that begins a code. -/
def escapeChar : Char := Char.ofNat 0x1b

/-- Whether a character may stand between the opening bracket and the letter of a code. -/
def isCodeParameter (c : Char) : Bool := c.isDigit || c = ';' || c = '?'

/-- What is kept so far, and what may turn out to be a code; both newest first. -/
structure CodeFilter where
  kept : List Char := []
  pending : List Char := []
deriving DecidableEq, Repr

namespace CodeFilter

/-- All that has been read and is not known to be a code, newest first. -/
def all (f : CodeFilter) : List Char := f.pending ++ f.kept

/-- Takes a character. -/
def step (f : CodeFilter) (c : Char) : CodeFilter :=
  if c = escapeChar then { kept := f.all, pending := [c] }
  else
    match f.pending with
    | [] => { kept := c :: f.kept }
    | [_] => if c = '[' then { f with pending := c :: f.pending } else { kept := c :: f.all }
    | _ =>
      if isCodeParameter c then { f with pending := c :: f.pending }
      else if c.isAlpha then { kept := f.kept }
      else { kept := c :: f.all }

end CodeFilter

/-- A text without its codes. -/
def withoutCodes (s : String) : String :=
  String.ofList (s.toList.foldl CodeFilter.step {}).all.reverse

/-- Drops the carriage returns that stand right before a line feed. -/
def dropReturns : List Char → List Char
  | [] => []
  | '\r' :: '\n' :: cs => '\n' :: dropReturns cs
  | c :: cs => c :: dropReturns cs

/-- A text as it is shown. -/
def shown (s : String) : String := String.ofList (dropReturns (withoutCodes s).toList)

end AsyncMigration.Text
