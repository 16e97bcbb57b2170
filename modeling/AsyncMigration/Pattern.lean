/-!
# Asynchronous patterns

What a scan finds in a function: places where it is asynchronous. All kinds but the natively
structured one call for migration.

| here | in `riprap.analysis.model` |
| --- | --- |
| `PatternKind`, `Pattern`, `ScanReport` | `PatternKind`, `Pattern`, `ScanReport` |
| `PatternKind.isSuspension`, `PatternKind.isMigration` | `SUSPENSION_KINDS`, `Pattern.is_migration` |
| `ScanReport.analyzable` | `ScanReport.analyzable` |
| `ScanReport.migrationPatterns`, `ScanReport.maxNesting` | `ScanReport.migration_patterns`, `ScanReport.max_nesting` |
-/

namespace AsyncMigration

/-- The ways in which a function is asynchronous. -/
inductive PatternKind where
  | callbackParameter
  | suspensionChecked
  | suspensionUncheckedUnsafe
  | nestedSuspension
  | nativeStructured
deriving DecidableEq, Repr

namespace PatternKind

/-- The kind as reports show it. -/
def name : PatternKind → String
  | callbackParameter => "CallbackParameter"
  | suspensionChecked => "SuspensionChecked"
  | suspensionUncheckedUnsafe => "SuspensionUncheckedUnsafe"
  | nestedSuspension => "NestedSuspension"
  | nativeStructured => "NativeStructured"

/-- All kinds, in the order of their names. -/
def all : List PatternKind :=
  [callbackParameter, nativeStructured, nestedSuspension, suspensionChecked,
    suspensionUncheckedUnsafe]

/-- The kind of a given name. -/
def ofName? (s : String) : Option PatternKind := all.find? (·.name = s)

/-- Whether a pattern of this kind is to be migrated. -/
def isMigration (k : PatternKind) : Bool := k ≠ nativeStructured

/-- Whether a pattern of this kind is a suspension in its own right. -/
def isSuspension : PatternKind → Bool
  | suspensionChecked | suspensionUncheckedUnsafe => true
  | _ => false

end PatternKind

/-- A set of pattern kinds. -/
structure PatternKindSet where
  callbackParameter : Bool := false
  suspensionChecked : Bool := false
  suspensionUncheckedUnsafe : Bool := false
  nestedSuspension : Bool := false
  nativeStructured : Bool := false
deriving DecidableEq, Repr

namespace PatternKindSet

/-- Whether a kind is in the set. -/
def contains (a : PatternKindSet) : PatternKind → Bool
  | .callbackParameter => a.callbackParameter
  | .suspensionChecked => a.suspensionChecked
  | .suspensionUncheckedUnsafe => a.suspensionUncheckedUnsafe
  | .nestedSuspension => a.nestedSuspension
  | .nativeStructured => a.nativeStructured

/-- The set of the kinds with a property. -/
def ofPred (p : PatternKind → Bool) : PatternKindSet :=
  ⟨p .callbackParameter, p .suspensionChecked, p .suspensionUncheckedUnsafe, p .nestedSuspension,
    p .nativeStructured⟩

/-- The kinds of either set. -/
def union (a b : PatternKindSet) : PatternKindSet := ofPred fun k => a.contains k || b.contains k

/-- The kinds of a list. -/
def ofList (ks : List PatternKind) : PatternKindSet := ofPred (ks.contains ·)

/-- The members in the order of their names. -/
def toList (a : PatternKindSet) : List PatternKind := PatternKind.all.filter a.contains

@[simp] theorem contains_ofPred (p : PatternKind → Bool) (k : PatternKind) :
    (ofPred p).contains k = p k := by cases k <;> rfl

@[simp] theorem contains_union (a b : PatternKindSet) (k : PatternKind) :
    (a.union b).contains k = (a.contains k || b.contains k) := contains_ofPred _ k

end PatternKindSet

/-- A place where a function is asynchronous. `nestedDepth` counts what encloses it; `callee` is the
function that a suspension wraps, if it names one. -/
structure Pattern where
  kind : PatternKind
  function : String
  line : Int
  nestedDepth : Int := 0
  callee : Option String := none
deriving DecidableEq, Repr

/-- What a scan says of one function: its patterns in source order, or why it could not be
scanned. -/
structure ScanReport where
  function : String
  patterns : List Pattern := []
  failure : Option String := none
deriving DecidableEq, Repr

namespace ScanReport

/-- Whether the function could be scanned. -/
def analyzable (r : ScanReport) : Bool := r.failure.isNone

/-- The patterns to be migrated. -/
def migrationPatterns (r : ScanReport) : List Pattern := r.patterns.filter (·.kind.isMigration)

/-- The greatest depth of a pattern to be migrated; zero if there is none. -/
def maxNesting (r : ScanReport) : Int := (r.migrationPatterns.map (·.nestedDepth)).max?.getD 0

/-- The kinds of the patterns found. -/
def kinds (r : ScanReport) : PatternKindSet := .ofList (r.patterns.map (·.kind))

end ScanReport
end AsyncMigration
