/-!
# Broken invariants

Some places of the analysis are not reached as long as its invariants hold.

| here | in `riprap` |
| --- | --- |
| `BrokenInvariant` | `exceptions.NeverThrown`, as `invariants.never` raises it |
-/

namespace AsyncMigration

/-- A place was reached that should not be; `reason` may say why it should not. -/
structure BrokenInvariant where
  reason : String := ""
deriving DecidableEq, Repr

/-- The error in words. -/
def BrokenInvariant.message (b : BrokenInvariant) : String :=
  if b.reason = "" then "never() marker reached" else b.reason

end AsyncMigration
