import AsyncMigration.Invariant
import AsyncMigration.Report

/-!
# Sessions

A session holds the call graph of a set of units and everything found out about it. Answers are kept
and given again, also after the graph has grown. A query that fails leaves behind what it found out
before it failed.

Building and growing the graph puts failures in words. `start`, `addCall`, `addUnit` and `analyze` do so
for numbers of any length; `tryStart`, `tryAddCall`, `tryAddUnit` and `tryAnalyze` do the same as far as
all numbers can be printed, and fail at the first that cannot.

| here | in `riprap.analysis` |
| --- | --- |
| `Session.start`, `Session.tryStart` | `session.AnalysisSession.__init__`, `session.scan_units` |
| `Session.aggregate`, `Session.traverse` | `dependency.DependencyAnalyzer.aggregate`, `traverse` |
| `Session.summarize` | `constraints.ConstraintClassifier.summarize` |
| `Session.decide`, `Session.evaluate` | `decision.DecisionEngine.decide`, `_evaluate` |
| `Session.isRedundantWrapper` | `decision.DecisionEngine.is_redundant_wrapper` |
| `Session.report`, `Session.analyze` | `session.AnalysisSession.report`, `analyze` |
| `analyze`, `tryAnalyze` | `session.analyze` |
-/

namespace AsyncMigration

/-- Why a query has no answer. -/
inductive AnalysisError where
  /-- The node is not a catalogued function. -/
  | notCatalogued (node : Node)
  /-- Nothing has been found out about the node. -/
  | notAggregated (node : Node)
  /-- A decision was asked for about a node that is not a catalogued function. -/
  | notDecidable (node : Node)
  /-- A depth or a number of calls is out of range. -/
  | outOfRange
  /-- The graph cannot be built, or cannot grow. -/
  | notBuilt (e : Catalog.BuildError)
deriving DecidableEq, Repr

/-- The error in words. -/
def AnalysisError.message : AnalysisError → String
  | notCatalogued node => node.text
  | notAggregated node => node.text
  | notDecidable _ => BrokenInvariant.message ⟨"decision requested for uncatalogued function"⟩
  | outOfRange => Binary64.ConversionError.outOfRange.message
  | notBuilt e => e.message

/-- What cannot be printed, as an error. -/
def AnalysisError.ofPrintFault (fault : Numeral.PrintFault) : AnalysisError :=
  .notBuilt (.unprintable fault)

/-- The events of scanning a unit. -/
def SourceUnit.scanEvents (u : SourceUnit) : List Event :=
  if u.parsed then
    u.scan.filterMap fun r => r.failure.map fun reason => .bodyUnscannable r.function u.path reason
  else []

/-- The state of an analysis. -/
structure Session where
  settings : Settings := {}
  graph : CallGraph := {}
  memo : Memo := {}
  summaries : Table Node ConstraintSummary := {}
  decisions : Table Node Decision := {}
  reports : Table Node FunctionReport := {}
  /-- What has been told, oldest first. -/
  log : List Event := []

/-- A question to a session. -/
abbrev Query (α : Type) := ExceptT AnalysisError (StateM Session) α

namespace Session

/-- All failures noted, those of the catalogue first. -/
def failures (s : Session) : List Failure := s.graph.catalog.failures ++ s.graph.failures

/-- A session over the graph of units, which has just been built. -/
def onGraph (units : List SourceUnit) (settings : Settings) (graph : CallGraph) : Session :=
  { settings
    graph
    log := units.flatMap SourceUnit.scanEvents
      ++ (graph.catalog.failures ++ graph.failures).filterMap Failure.event?
      ++ [graph.builtEvent] }

/-- A session over units that are scanned, catalogued and linked. -/
def start (units : List SourceUnit) (settings : Settings) : Session :=
  onGraph units settings (CallGraph.build (Catalog.ofUnits units) units)

/-- A session over units that are scanned, catalogued and linked, all of them in each stage before the
next one. -/
def tryStart (units : List SourceUnit) (settings : Settings) : Except AnalysisError Session := do
  let reports ← (units.mapM SourceUnit.tryScan).mapError .ofPrintFault
  let catalog ← (Catalog.tryBuild units reports).mapError .notBuilt
  let graph ← (CallGraph.tryBuild catalog units).mapError .ofPrintFault
  return onGraph units settings graph

/-- Tells events. -/
def tell (events : List Event) : Query Unit :=
  modify fun s => { s with log := s.log ++ events }

/-- What a node depends on. -/
def aggregate (n : Node) : Query Aggregate := do
  let s ← get
  let (memo, cycles) := s.memo.ensure s.graph n
  set { s with memo }
  tell (cycles.map fun members => .cycleFound (members.map Node.text))
  match memo.aggregates.get? n with
  | some a => return a
  | none => throw (.notAggregated n)

/-- The cyclic components of visited nodes, in order and without repeats, or the first node about
which nothing is known. -/
def cyclesOf (m : Memo) : List Node → List (List Node) → Except Node (List (List Node))
  | [], found => .ok found
  | n :: ns, found =>
    match m.aggregates.get? n with
    | none => .error n
    | some a =>
      cyclesOf m ns (if a.cyclic && !found.contains a.component then found ++ [a.component] else found)

/-- Walks everything that a root reaches. -/
def traverse (root : Node) : Query Traversal := do
  let _ ← aggregate root
  let s ← get
  let t := Traversal.walk s.graph root
  match cyclesOf s.memo t.visited [] with
  | .error n => throw (.notAggregated n)
  | .ok cycles =>
    if !t.backEdges.isEmpty then
      tell [.backEdgesFound root.text (t.backEdges.map fun (a, b) => (a.text, b.text))]
    return { t with cycles }

/-- The constraints of a node, its own and those below it. -/
def summarize (n : Node) : Query ConstraintSummary := do
  match (← get).summaries.get? n with
  | some summary => return summary
  | none =>
    let a ← aggregate n
    let summary := ConstraintSummary.ofAggregate ((← get).graph.ownConstraints n) a
    modify fun s => { s with summaries := s.summaries.insert n summary }
    return summary

/-- Makes a decision. -/
def evaluate (n : Node) : Query Decision := do
  match (← get).graph.entry? n with
  | none => throw (.notDecidable n)
  | some entry =>
    match entry.scan.failure with
    | some failure => return decideUnscanned entry failure
    | none =>
      let summary ← summarize n
      let s ← get
      return decideScanned s.graph s.settings.wrappedSinks entry summary

/-- The decision for a function. -/
def decide (n : Node) : Query Decision := do
  match (← get).decisions.get? n with
  | some d => return d
  | none =>
    let d ← evaluate n
    modify fun s => { s with decisions := s.decisions.insert n d }
    tell [.decided d.function d.category.name (d.rationale.map Reason.text)]
    return d

/-- Whether a function is a redundant wrapper. -/
def isRedundantWrapper (n : Node) : Query Bool := do
  let s ← get
  match s.graph.entry? n with
  | none => throw (.notCatalogued n)
  | some entry => return s.graph.isRedundantWrapper entry

/-- The report on a function. -/
def report (n : Node) : Query FunctionReport := do
  match (← get).reports.get? n with
  | some r => return r
  | none =>
    match (← get).graph.entry? n with
    | none => throw (.notCatalogued n)
    | some entry =>
      let decision ← decide n
      let s ← get
      let callSites := s.graph.callSiteCount n
      let signals := PrioritySignals.of decision entry.scan callSites
      match decision.category.priority signals s.settings.priority with
      | .error .outOfRange => throw .outOfRange
      | .ok priority =>
        let constraints ← summarize n
        let r : FunctionReport :=
          { name := entry.name, path := entry.signature.path, line := entry.signature.line,
            patterns := entry.scan.patterns, constraints, decision, priority, callSites }
        modify fun s => { s with reports := s.reports.insert n r }
        return r

/-- The answer for one root. -/
def analyzeRoot (root : String) : Query Result := do
  if (← get).graph.catalog.contains root then
    let traversal ← traverse (.function root)
    let function ← report (.function root)
    let s ← get
    let reached := traversal.visited.tail.filter fun n => (s.graph.entry? n).isSome
    let dependencies ← reached.mapM report
    return { roots := [⟨function, traversal, dependencies⟩] }
  else
    tell [.unknownRoot root]
    return { failures := [.unknownRoot root] }

/-- The answers for roots, one after another. -/
def analyzeRoots : List String → Query Result
  | [] => return {}
  | root :: roots => do
    let first ← analyzeRoot root
    let rest ← analyzeRoots roots
    return first.append rest

/-- The answer for a list of roots; repeated roots count once. -/
def analyze (roots : List String) : Query Result := do
  let noted := (← get).failures
  let r ← analyzeRoots roots.eraseDups
  return { r with failures := noted ++ r.failures }

/-- Adds a call site to the graph. -/
def addCall (site : CallSite) : Query (Option CallEdge) := do
  let s ← get
  let (graph, edge) := s.graph.addCall site
  set { s with graph }
  tell ((graph.failures.drop s.graph.failures.length).filterMap Failure.event?)
  return edge

/-- Enters a function into the catalogue. -/
def addFunction (signature : Signature) (scan : ScanReport) : Query Bool := do
  let s ← get
  let (graph, added) := s.graph.addFunction signature scan
  set { s with graph }
  tell ((graph.catalog.failures.drop s.graph.catalog.failures.length).filterMap Failure.event?)
  return added

/-- Adds the functions and call sites of a unit, and says which functions are new and which edges
came of the calls. -/
def addUnit (u : SourceUnit) : Query (List Bool × List (Option CallEdge)) := do
  tell u.scanEvents
  let added ← u.functions.mapM fun f => addFunction f.signature (u.scanOf f)
  let edges ← u.callSites.mapM addCall
  return (added, edges)

/-- Adds a call site to the graph, if what is to be said of it can be printed. -/
def tryAddCall (site : CallSite) : Query (Option CallEdge) := do
  match (← get).graph.tryAddCall site with
  | .error fault => throw (.ofPrintFault fault)
  | .ok _ => addCall site

/-- Enters a function into the catalogue, if what is to be said of it can be printed. -/
def tryAddFunction (signature : Signature) (scan : ScanReport) : Query Bool := do
  match (← get).graph.catalog.tryAdd signature scan with
  | .error fault => throw (.ofPrintFault fault)
  | .ok _ => addFunction signature scan

/-- Adds the functions and call sites of a unit, as far as what is to be said of them can be printed. The
functions are scanned before any of them is entered. -/
def tryAddUnit (u : SourceUnit) : Query (List Bool × List (Option CallEdge)) := do
  match u.tryScan with
  | .error fault => throw (.ofPrintFault fault)
  | .ok reports =>
    tell u.scanEvents
    let added ← (u.functions.zip reports).mapM fun (f, r) => tryAddFunction f.signature r
    let edges ← u.callSites.mapM tryAddCall
    return (added, edges)

end Session

/-- Analyses units from roots, in a session of its own. Without roots nothing is scanned. -/
def analyze (units : List SourceUnit) (roots : List String) (settings : Settings) :
    Except AnalysisError Result × List Event :=
  if roots.isEmpty then (.ok {}, [])
  else
    let (answer, s) := (Session.analyze roots).run.run (Session.start units settings)
    (answer, s.log)

/-- Analyses units from roots, if what is to be said of the units can be printed. -/
def tryAnalyze (units : List SourceUnit) (roots : List String) (settings : Settings) :
    Except AnalysisError Result := do
  if roots.isEmpty then return {}
  let s ← Session.tryStart units settings
  ((Session.analyze roots).run.run s).1

end AsyncMigration
