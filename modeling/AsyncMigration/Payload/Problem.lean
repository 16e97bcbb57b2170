/-!
# Problems of a payload

A payload is checked as a whole: all that is wrong with it is listed, each problem with the place
where it was found. `Checked` values are combined so that problems add up.
-/

namespace AsyncMigration

/-- A step on the way to a place in a payload. -/
inductive PlaceStep where
  | name (s : String)
  | index (i : Nat)
deriving DecidableEq, Repr

/-- The kinds of problems. -/
inductive ProblemKind where
  | jsonInvalid
  | missing
  | objectExpected
  | listExpected
  | textExpected
  | integerExpected
  | integerText
  | integerFraction
  | integerSize
  | finiteExpected
  | truthExpected
  | truthText
  | versionExpected
deriving DecidableEq, Repr

/-- The name of a kind of problem. -/
def ProblemKind.code : ProblemKind → String
  | jsonInvalid => "json_invalid"
  | missing => "missing"
  | objectExpected => "model_type"
  | listExpected => "list_type"
  | textExpected => "string_type"
  | integerExpected => "int_type"
  | integerText => "int_parsing"
  | integerFraction => "int_from_float"
  | integerSize => "int_parsing_size"
  | finiteExpected => "finite_number"
  | truthExpected => "bool_type"
  | truthText => "bool_parsing"
  | versionExpected => "literal_error"

/-- Something that is wrong at a place. -/
structure Problem where
  place : List PlaceStep := []
  kind : ProblemKind
deriving DecidableEq, Repr

/-- A value, or all that is wrong with it. -/
abbrev Checked (α : Type) := Except (List Problem) α

namespace Checked

variable {α β : Type}

/-- One problem right here. -/
def problem (k : ProblemKind) : Checked α := .error [{ kind := k }]

/-- Applies a function that was checked to an argument that was checked. -/
def ap (f : Checked (α → β)) (x : Checked α) : Checked β :=
  match f, x with
  | .ok f, .ok a => .ok (f a)
  | .ok _, .error q => .error q
  | .error p, .ok _ => .error p
  | .error p, .error q => .error (p ++ q)

/-- Places problems below a step. -/
def below (step : PlaceStep) : Checked α → Checked α
  | .ok a => .ok a
  | .error ps => .error (ps.map fun p => { p with place := step :: p.place })

/-- Checks the items of a list from position `i` on. -/
def items (check : β → Checked α) : Nat → List β → Checked (List α)
  | _, [] => .ok []
  | i, b :: bs => ap ((below (.index i) (check b)).map List.cons) (items check (i + 1) bs)

end Checked
end AsyncMigration
