import AsyncMigration.Dependency.Traversal
import AsyncMigration.Priority

/-!
# Reports

What an analysis answers: a report per function, a report per root with everything it reaches, and
the result for all roots.

| here | in `riprap.analysis.result` |
| --- | --- |
| `FunctionReport`, `RootReport`, `Result` | `FunctionReport`, `RootReport`, `AnalysisResult` |
| `Result.root?`, `Result.functionReports` | `AnalysisResult.root`, `AnalysisResult.function_reports` |
| `Result.requiresAttention` | `requires_attention` |
-/

namespace AsyncMigration

/-- What is said of a function. -/
structure FunctionReport where
  name : String
  path : String
  line : Int
  patterns : List Pattern
  constraints : ConstraintSummary
  decision : Decision
  priority : Priority
  callSites : Nat
deriving DecidableEq, Repr

/-- What is said of a root: the function itself, what a walk from it found, and the functions met on
the walk. -/
structure RootReport where
  function : FunctionReport
  traversal : Traversal
  dependencies : List FunctionReport
deriving DecidableEq, Repr

/-- The answer of an analysis. -/
structure Result where
  roots : List RootReport := []
  failures : List Failure := []
deriving DecidableEq, Repr

namespace Result

/-- One answer after another. -/
def append (a b : Result) : Result := ⟨a.roots ++ b.roots, a.failures ++ b.failures⟩

/-- The report on a root. -/
def root? (r : Result) (name : String) : Option RootReport :=
  r.roots.find? (·.function.name = name)

/-- All reports on functions, root by root. -/
def functionReports (r : Result) : List FunctionReport :=
  r.roots.flatMap fun root => root.function :: root.dependencies

/-- Whether some function reported on reaches a tier. -/
def requiresAttention (r : Result) (t : Tier) : Bool :=
  r.functionReports.any fun f => t.rank ≤ f.priority.tier.rank

end Result
end AsyncMigration
