import AsyncMigration.Decision
import AsyncMigration.Settings

/-!
# Priorities

How urgent a migration is: a score from the nesting of its patterns and the number of its call
sites, and a tier from the score. Functions that are kept or cannot be analysed have the lowest
tier.

| here | in `riprap.analysis` |
| --- | --- |
| `Tier`, `Tier.rank`, `Priority` | `model.Tier`, `model.Tier.rank`, `model.Priority` |
| `PrioritySignals.of` | `priority.signals_for` |
| `PrioritySignals.score`, `PrioritySignals.tier` | `priority.score`, `priority.tier_for` |
| `Category.priority` | `priority.rank` |
-/

namespace AsyncMigration

/-- How urgent a migration is. -/
inductive Tier where
  | low
  | medium
  | high
deriving DecidableEq, Repr

namespace Tier

/-- The tier as reports show it. -/
def name : Tier → String
  | low => "Low"
  | medium => "Medium"
  | high => "High"

/-- The position of the tier. -/
def rank : Tier → Nat
  | low => 0
  | medium => 1
  | high => 2

/-- All tiers. -/
def all : List Tier := [low, medium, high]

end Tier

/-- A tier with the score behind it. -/
structure Priority where
  tier : Tier
  score : Binary64 := .zero
deriving DecidableEq, Repr

/-- What a score is made from. -/
structure PrioritySignals where
  nestingDepth : Int
  callSites : Int
  redundantWrapper : Bool
deriving DecidableEq, Repr

namespace PrioritySignals

/-- The signals of a function. -/
def of (d : Decision) (scan : ScanReport) (callSites : Int) : PrioritySignals :=
  ⟨scan.maxNesting, callSites, d.redundantWrapper⟩

/-- The score: the weighted sum of depth and call sites, and a bonus for redundant wrappers. -/
def score (x : PrioritySignals) (p : PrioritySettings) :
    Except Binary64.ConversionError Binary64 := do
  let depth ← Binary64.ofInt x.nestingDepth
  let calls ← Binary64.ofInt x.callSites
  let value := (p.nestingWeight.mul depth).add (p.callSiteWeight.mul calls)
  return if x.redundantWrapper then value.add p.redundantWrapperBonus else value

/-- The tier of a score. Deep nesting and redundancy lead to the highest tier by themselves. -/
def tier (x : PrioritySignals) (value : Binary64) (p : PrioritySettings) : Tier :=
  if p.highThreshold.le value || decide (p.highNestingDepth ≤ x.nestingDepth)
      || x.redundantWrapper then .high
  else if p.mediumThreshold.le value then .medium
  else .low

end PrioritySignals

/-- The priority of a decision. -/
def Category.priority (c : Category) (x : PrioritySignals) (p : PrioritySettings) :
    Except Binary64.ConversionError Priority :=
  match c with
  | .preserve | .unanalyzable => .ok { tier := .low }
  | .fullRefactor | .partialRefactor => do
    let value ← x.score p
    return ⟨x.tier value p, value⟩

end AsyncMigration
