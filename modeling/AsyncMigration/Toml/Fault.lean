import AsyncMigration.Number.Numeral

/-!
# Faults of TOML texts

A text may be no TOML, or it may go beyond what is read. Faults are found in the order of the text:
the first one counts.
-/

namespace AsyncMigration.Toml

/-- What goes beyond the limits of a text. -/
inductive Excess where
  /-- An integer in decimal figures has too many of them. -/
  | digits (count : Nat)
  /-- Lists and tables are too deep inside one another. -/
  | nesting
deriving DecidableEq, Repr

/-- How far lists and tables may stand inside one another; a list takes two units, a table
three. -/
def nestingRoom : Nat := 987

/-- What goes beyond the limits, in words. -/
def Excess.message : Excess → String
  | digits count => (Numeral.Fault.tooLong count).message
  | nesting => "maximum recursion depth exceeded"

/-- What is wrong with a text. -/
inductive Fault where
  | malformed
  | excess (e : Excess)
deriving DecidableEq, Repr

/-- What was read, which is malformed if it is nothing. -/
def fitting {α : Type} : Option α → Except Fault α
  | some a => .ok a
  | none => .error .malformed

end AsyncMigration.Toml
