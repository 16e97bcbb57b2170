import AsyncMigration.Catalog
import AsyncMigration.NameSet
import AsyncMigration.Table

/-!
# The call graph

Nodes are functions and external sinks; a sink stands for all calls to one name that leads out of
the catalogued code. There is one edge per call site, so repeated calls are repeated edges. Calls
from functions that are not catalogued are dropped and noted as failures, in words at once.

| here | in `riprap.analysis.call_graph` |
| --- | --- |
| `Node.sink`, `Node.isSink`, `Node.name` | `sink_node`, `is_sink`, `sink_name` |
| `CallGraph.outEdges`, `CallGraph.successors` | `CallGraph.out_edges`, `CallGraph.successors` |
| `CallGraph.resolvedCallees` | `CallGraph.resolved_callees` |
| `CallGraph.ownConstraints` | `CallGraph.own_constraints` |
| `CallGraph.incomingCalls`, `CallGraph.outgoingCalls` | `CallGraph.incoming_call_sites`, `outgoing_call_sites` |
| `CallGraph.callSiteCount` | `CallGraph.call_site_count` |
| `CallGraph.addCall`, `CallGraph.tryAddCall` | `CallGraph.add_call_site` |
| `CallGraph.build`, `CallGraph.tryBuild` | `build_call_graph` |
-/

namespace AsyncMigration

/-- A node of the call graph. -/
inductive Node where
  | function (name : String)
  | sink (name : String)
deriving DecidableEq, Repr

namespace Node

/-- The node as reports show it. -/
def text : Node → String
  | function name => name
  | sink name => "external::" ++ name

/-- The name without the mark of a sink. -/
def name : Node → String
  | function name => name
  | sink name => name

def isSink : Node → Bool
  | function _ => false
  | sink _ => true

/-- The name of a sink. -/
def sinkName? : Node → Option String
  | function _ => none
  | sink name => some name

/-- The name of a function. -/
def functionName? : Node → Option String
  | function name => some name
  | sink _ => none

end Node

/-- A call from a catalogued function. -/
structure CallEdge where
  caller : String
  callee : Node
  /-- Whether the call leads to a catalogued function. -/
  resolved : Bool
  line : Int
  target : String
deriving DecidableEq, Repr

/-- The calls between catalogued functions and to external sinks. -/
structure CallGraph where
  catalog : Catalog := {}
  /-- The calls of each function, in order. -/
  outgoing : Table String (List CallEdge) := {}
  /-- The number of resolved calls to each function. -/
  incoming : Table String Nat := {}
  /-- The names of the sinks, in the order of the first call to each. -/
  sinks : List String := []
  failures : List Failure := []
deriving Repr

namespace CallGraph

/-- The calls made by a node. -/
def outEdges (g : CallGraph) : Node → List CallEdge
  | .function name => (g.outgoing.get? name).getD []
  | .sink _ => []

/-- The distinct callees of a node, in the order of their first calls. -/
def successors (g : CallGraph) (n : Node) : List Node := ((g.outEdges n).map (·.callee)).eraseDups

/-- The callees that are functions. -/
def resolvedCallees (g : CallGraph) (n : Node) : List String :=
  (g.successors n).filterMap Node.functionName?

/-- All edges, function by function. -/
def edges (g : CallGraph) : List CallEdge := g.outgoing.values.flatten

/-- All nodes that some call leads to. -/
def callees (g : CallGraph) : List Node := g.edges.map (·.callee)

/-- The catalogue entry of a node. -/
def entry? (g : CallGraph) : Node → Option CatalogEntry
  | .function name => g.catalog.get? name
  | .sink _ => none

/-- The constraints of a node itself. -/
def ownConstraints (g : CallGraph) (n : Node) : ConstraintSet :=
  match n with
  | .sink _ => { externalSinkDependency := true }
  | .function name => ((g.catalog.get? name).map (·.constraints)).getD {}

/-- The pattern kinds of a node itself. -/
def ownKinds (g : CallGraph) (n : Node) : PatternKindSet :=
  ((g.entry? n).map (·.scan.kinds)).getD {}

/-- The number of resolved calls to a node. -/
def incomingCalls (g : CallGraph) : Node → Nat
  | .function name => (g.incoming.get? name).getD 0
  | .sink _ => 0

/-- The number of calls made by a node. -/
def outgoingCalls (g : CallGraph) (n : Node) : Nat := (g.outEdges n).length

/-- The number of call sites that a node takes part in. -/
def callSiteCount (g : CallGraph) (n : Node) : Nat := g.incomingCalls n + g.outgoingCalls n

/-- Notes a failure. -/
def fail (g : CallGraph) (f : Failure) : CallGraph := { g with failures := g.failures ++ [f] }

/-- Adds an edge to the calls of its caller. -/
def addEdge (g : CallGraph) (e : CallEdge) : CallGraph :=
  { g with outgoing := g.outgoing.insert e.caller (g.outEdges (.function e.caller) ++ [e]) }

/-- Adds a call site, and gives its edge unless the call is dropped. -/
def addCall (g : CallGraph) (s : CallSite) : CallGraph × Option CallEdge :=
  if g.catalog.contains s.caller then
    match s.callee.filter g.catalog.contains with
    | some callee =>
      let e : CallEdge := ⟨s.caller, .function callee, true, s.line, s.target⟩
      let count := g.incomingCalls (.function callee)
      ({ g.addEdge e with incoming := g.incoming.insert callee (count + 1) }, some e)
    | none =>
      let e : CallEdge := ⟨s.caller, .sink s.sinkName, false, s.line, s.target⟩
      let sinks := if g.sinks.contains s.sinkName then g.sinks else g.sinks ++ [s.sinkName]
      ({ g.addEdge e with sinks }, some e)
  else (g.fail (.unknownCaller s.caller s.sinkName s.line), none)

/-- Adds call sites in order. -/
def addCalls (g : CallGraph) (sites : List CallSite) : CallGraph :=
  sites.foldl (fun g s => (g.addCall s).1) g

/-- The failure that adding a call site notes if its caller is not catalogued. -/
def dropped? (g : CallGraph) (s : CallSite) : Option Failure :=
  if g.catalog.contains s.caller then none else some (.unknownCaller s.caller s.sinkName s.line)

/-- Adds a call site, and gives its edge unless the call is dropped, if what is to be said of it can be
printed. -/
def tryAddCall (g : CallGraph) (s : CallSite) :
    Except Numeral.PrintFault (CallGraph × Option CallEdge) :=
  Numeral.printing ((g.dropped? s).toList.flatMap Failure.printed) (g.addCall s)

/-- Adds call sites in order, as far as what is said of them can be printed. -/
def tryAddCalls (g : CallGraph) (sites : List CallSite) : Except Numeral.PrintFault CallGraph :=
  sites.foldlM (fun g s => (g.tryAddCall s).map (·.1)) g

/-- Enters a function into the catalogue. -/
def addFunction (g : CallGraph) (s : Signature) (scan : ScanReport) : CallGraph × Bool :=
  let (catalog, added) := g.catalog.add s scan
  ({ g with catalog }, added)

/-- The call graph of units over a catalogue. -/
def build (catalog : Catalog) (units : List SourceUnit) : CallGraph :=
  CallGraph.addCalls { catalog } (units.flatMap (·.callSites))

/-- The call graph of units over a catalogue, if what is said of the calls can be printed. -/
def tryBuild (catalog : Catalog) (units : List SourceUnit) : Except Numeral.PrintFault CallGraph :=
  CallGraph.tryAddCalls { catalog } (units.flatMap (·.callSites))

/-- What the log says of a graph that has just been built. -/
def builtEvent (g : CallGraph) : Event :=
  .graphBuilt g.catalog.entries.length g.sinks.length g.edges.length

theorem mem_successors {g : CallGraph} {n c : Node} :
    c ∈ g.successors n ↔ ∃ e ∈ g.outEdges n, e.callee = c := by
  simp [successors, List.mem_eraseDups]

theorem mem_edges_of_mem_outEdges {g : CallGraph} {n : Node} {e : CallEdge}
    (h : e ∈ g.outEdges n) : e ∈ g.edges := by
  match n with
  | .sink _ => simp [outEdges] at h
  | .function name =>
    match hf : g.outgoing.get? name with
    | none => simp [outEdges, hf] at h
    | some es =>
      simp only [outEdges, hf, Option.getD_some] at h
      exact List.mem_flatten.2 ⟨es, List.mem_map.2 ⟨_, Table.mem_of_find hf, rfl⟩, h⟩

theorem mem_callees_of_mem_successors {g : CallGraph} {n c : Node} (h : c ∈ g.successors n) :
    c ∈ g.callees := by
  obtain ⟨e, he, rfl⟩ := mem_successors.1 h
  exact List.mem_map.2 ⟨e, mem_edges_of_mem_outEdges he, rfl⟩

end CallGraph
end AsyncMigration
