import AsyncMigration.Json.Value
import AsyncMigration.Report

/-!
# Reports as JSON

The members of each object, in the order in which they are written.

| here | in `riprap.analysis.result` |
| --- | --- |
| `Pattern.toJson`, `ConstraintSummary.toJson` | `_pattern_payload`, `_constraints_payload` |
| `FunctionReport.toJson` | `function_payload` |
| `Traversal.toJson` | `TraversalSummary.from_record`, `traversal_payload` |
| `Result.toJson` | `result_payload` |
-/

namespace AsyncMigration

/-- A pattern; its callee is left out if there is none. -/
def Pattern.toJson (p : Pattern) : Json :=
  .object ([("kind", .text p.kind.name), ("line", .integer p.line),
      ("nested_depth", .integer p.nestedDepth)]
    ++ p.callee.toList.map fun callee => ("callee", .text callee))

def ConstraintSummary.toJson (s : ConstraintSummary) : Json :=
  .object [("direct", .texts (s.direct.toList.map Constraint.name)),
    ("transitive", .texts (s.transitive.toList.map Constraint.name)),
    ("in_cycle", .bool s.inCycle),
    ("cycle_component", .texts (s.cycleComponent.map Node.text)),
    ("external_sinks", .texts s.externalSinks.names)]

/-- The members that describe a function. -/
def FunctionReport.members (f : FunctionReport) : List (String × Json) :=
  [("function", .text f.name), ("path", .text f.path), ("line", .integer f.line),
    ("patterns", .list (f.patterns.map Pattern.toJson)),
    ("constraints", f.constraints.toJson),
    ("decision", .object [("category", .text f.decision.category.name),
      ("rationale", .texts (f.decision.rationale.map Reason.text))]),
    ("priority", .object [("tier", .text f.priority.tier.name), ("score", .real f.priority.score)]),
    ("call_sites", .integer f.callSites)]

def FunctionReport.toJson (f : FunctionReport) : Json := .object f.members

def Traversal.toJson (t : Traversal) : Json :=
  .object [("reachable", .texts (t.visited.map Node.text)),
    ("reachable_count", .integer t.visited.length),
    ("cycle_components", .list (t.cycles.map fun members => .texts (members.map Node.text))),
    ("back_edges", .list (t.backEdges.map fun (a, b) => .texts [a.text, b.text])),
    ("external_sinks", .texts t.externalSinks),
    ("max_depth", .integer t.maxDepth)]

def RootReport.toJson (r : RootReport) : Json :=
  .object (r.function.members
    ++ [("traversal", r.traversal.toJson),
      ("dependencies", .list (r.dependencies.map FunctionReport.toJson))])

def Failure.toJson (f : Failure) : Json :=
  .object [("kind", .text f.kind), ("subject", .text f.subject), ("reason", .text f.reason),
    ("path", .text f.path)]

/-- A result, with a word on whether it calls for attention. -/
def Result.toJson (r : Result) : Json :=
  .object [("roots", .list (r.roots.map RootReport.toJson)),
    ("failures", .list (r.failures.map Failure.toJson)),
    ("requires_attention", .bool (r.requiresAttention .high))]

end AsyncMigration
