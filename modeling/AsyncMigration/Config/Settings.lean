import AsyncMigration.Config.Value
import AsyncMigration.Settings
import AsyncMigration.Text.Blank

/-!
# Settings from a configuration

A setting that is missing, or of a type that does not fit, has its default. Weights are never
negative, so that deeper nesting and more call sites only ever raise a score. An integer that stands
for a number has to be in the range of numbers.

| here | in `riprap.config` |
| --- | --- |
| `ConfigTable.number`, `ConfigTable.weight`, `ConfigTable.integer` | `_number`, `_weight`, `_integer` |
| `namesInText`, `namesInValue` | `_normalize_name_list` |
| `PrioritySettings.ofTable` | `priority_config_from_table` |
| `ConfigTable.wrappedSinks` | `decision_config_from_table` |
| `Settings.ofTable` | `engine_config` |
-/

namespace AsyncMigration

open Binary64 (ConversionError)

namespace ConfigTable

/-- A number; an integer is converted. -/
def number (t : ConfigTable) (key : String) (default : Binary64) :
    Except ConversionError Binary64 :=
  match t.lookup key with
  | some (.integer i) => Binary64.ofInt i
  | some (.real x) => .ok x
  | _ => .ok default

/-- A number that is not negative. -/
def weight (t : ConfigTable) (key : String) (default : Binary64) :
    Except ConversionError Binary64 := do
  let x ← t.number key default
  return if Binary64.zero.le x then x else default

/-- An integer. -/
def integer (t : ConfigTable) (key : String) (default : Int) : Int :=
  match t.lookup key with
  | some (.integer i) => i
  | _ => default

end ConfigTable

/-- The names in a text, separated by commas; blanks around names do not count. -/
def namesInText (s : String) : List String :=
  (((Text.cut ',' s.toList).map (Text.trim Text.isBlank)).filter (!·.isEmpty)).map String.ofList

/-- The names in a value: in a text, or in the texts of a list. -/
def namesInValue : ConfigValue → List String
  | .text s => namesInText s
  | .list items => items.flatMap fun
    | .text s => namesInText s
    | _ => []
  | _ => []

/-- The names under a key. -/
def ConfigTable.names (t : ConfigTable) (key : String) : List String :=
  ((t.lookup key).map namesInValue).getD []

/-- The priority settings of a table. -/
def PrioritySettings.ofTable (t : ConfigTable) : Except ConversionError PrioritySettings := do
  let d : PrioritySettings := {}
  return {
    nestingWeight := ← t.weight "nesting_weight" d.nestingWeight
    callSiteWeight := ← t.weight "call_site_weight" d.callSiteWeight
    redundantWrapperBonus := ← t.weight "redundant_wrapper_bonus" d.redundantWrapperBonus
    mediumThreshold := ← t.number "medium_threshold" d.mediumThreshold
    highThreshold := ← t.number "high_threshold" d.highThreshold
    highNestingDepth := t.integer "high_nesting_depth" d.highNestingDepth }

/-- The sinks that a table says have a structured wrapper. -/
def ConfigTable.wrappedSinks (t : ConfigTable) : NameSet := .ofList (t.names "wrapped_sinks")

/-- The settings of a configuration. -/
def Settings.ofTable (t : ConfigTable) : Except ConversionError Settings := do
  return {
    priority := ← PrioritySettings.ofTable (t.inner "priority")
    wrappedSinks := (t.inner "decision").wrappedSinks
    workers := max 1 ((t.inner "scan").integer "workers" 1) }

end AsyncMigration
