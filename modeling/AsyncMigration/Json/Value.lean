import AsyncMigration.Number.Binary64

/-!
# JSON values

Integers and other numbers are kept apart: an integer has any size, any other number is a double.
Members of an object keep their order, and a name may occur more than once.
-/

namespace AsyncMigration

/-- A JSON value. -/
inductive Json where
  | null
  | bool (b : Bool)
  | integer (i : Int)
  | real (x : Binary64)
  | text (s : String)
  | list (items : List Json)
  | object (members : List (String × Json))
deriving Repr

namespace Json

/-- A list of texts. -/
def texts (ss : List String) : Json := .list (ss.map .text)

/-- The value under a name in a list of members; of several the last counts. -/
def member? (name : String) : List (String × Json) → Option Json
  | [] => none
  | (k, v) :: rest =>
    match member? name rest with
    | some w => some w
    | none => if k = name then some v else none

end Json
end AsyncMigration
