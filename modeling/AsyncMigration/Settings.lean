import AsyncMigration.NameSet
import AsyncMigration.Number.Binary64

/-!
# Settings

The knobs of an analysis with their defaults.

| here | in `riprap.config` |
| --- | --- |
| `PrioritySettings` | `PriorityConfig` |
| `Settings` | `EngineConfig`, `DecisionConfig` |
-/

namespace AsyncMigration

/-- How scores are made and where the tiers begin. -/
structure PrioritySettings where
  nestingWeight : Binary64 := .ofSmall 2
  callSiteWeight : Binary64 := .ofSmall 1
  redundantWrapperBonus : Binary64 := .ofSmall 5
  mediumThreshold : Binary64 := .ofSmall 2
  highThreshold : Binary64 := .ofSmall 8
  highNestingDepth : Int := 3
deriving DecidableEq, Repr

/-- All settings. `wrappedSinks` names the sinks that have a structured wrapper; `workers` is the
number of units scanned at a time, which no answer depends on. -/
structure Settings where
  priority : PrioritySettings := {}
  wrappedSinks : NameSet := {}
  workers : Int := 1
deriving DecidableEq, Repr

end AsyncMigration
