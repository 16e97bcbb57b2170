/-!
# Constraints

What can keep a function from being migrated in full, and sets of such constraints.

| here | in `riprap.analysis.model` |
| --- | --- |
| `Constraint` | `Constraint` |
| `ConstraintSet` | the frozen sets of `Constraint` throughout |
-/

namespace AsyncMigration

/-- A reason against migrating a function in full. -/
inductive Constraint where
  | interopExposure
  | protocolRequirement
  | externalSinkDependency
deriving DecidableEq, Repr

namespace Constraint

/-- The constraint as reports show it. -/
def name : Constraint → String
  | interopExposure => "InteropExposure"
  | protocolRequirement => "ProtocolRequirement"
  | externalSinkDependency => "ExternalSinkDependency"

/-- All constraints, in the order of their names. -/
def all : List Constraint := [externalSinkDependency, interopExposure, protocolRequirement]

end Constraint

/-- A set of constraints. -/
structure ConstraintSet where
  interopExposure : Bool := false
  protocolRequirement : Bool := false
  externalSinkDependency : Bool := false
deriving DecidableEq, Repr

namespace ConstraintSet

/-- The set without constraints. -/
def empty : ConstraintSet := {}

/-- Whether a constraint is in the set. -/
def contains (a : ConstraintSet) : Constraint → Bool
  | .interopExposure => a.interopExposure
  | .protocolRequirement => a.protocolRequirement
  | .externalSinkDependency => a.externalSinkDependency

/-- The set of the constraints with a property. -/
def ofPred (p : Constraint → Bool) : ConstraintSet :=
  ⟨p .interopExposure, p .protocolRequirement, p .externalSinkDependency⟩

/-- The constraints of either set. -/
def union (a b : ConstraintSet) : ConstraintSet := ofPred fun c => a.contains c || b.contains c

/-- The members in the order of their names. -/
def toList (a : ConstraintSet) : List Constraint := Constraint.all.filter a.contains

@[simp] theorem contains_ofPred (p : Constraint → Bool) (c : Constraint) :
    (ofPred p).contains c = p c := by cases c <;> rfl

@[simp] theorem contains_union (a b : ConstraintSet) (c : Constraint) :
    (a.union b).contains c = (a.contains c || b.contains c) := contains_ofPred _ c

end ConstraintSet
end AsyncMigration
