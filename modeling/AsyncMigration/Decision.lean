import AsyncMigration.Dependency.Aggregate

/-!
# Decisions

How far a function can be migrated. Four rules cap the migration, each for a reason of its own; if
one applies the function is migrated in part. Otherwise it is migrated in full, or kept if there is
nothing to migrate. Further remarks never change the category.

| here | in `riprap.analysis` |
| --- | --- |
| `Category`, `ConstraintSummary`, `Decision` | `model.Category`, `model.ConstraintSummary`, `model.Decision` |
| `ConstraintSummary.ofAggregate` | `constraints.ConstraintClassifier.summarize` |
| `Reason.text` | the rationale texts of `decision`, `decision._external_sink_rationale` |
| `CallGraph.isRedundantWrapper` | `decision.DecisionEngine.is_redundant_wrapper` |
| `capReasons` | `decision.CAP_RULES`, over `decision.DecisionContext` |
| `decideScanned`, `decideUnscanned` | `decision.DecisionEngine._evaluate` |
-/

namespace AsyncMigration

/-- How far a function is to be migrated. -/
inductive Category where
  | fullRefactor
  | partialRefactor
  | preserve
  | unanalyzable
deriving DecidableEq, Repr

/-- The category as reports show it. -/
def Category.name : Category → String
  | fullRefactor => "FullRefactor"
  | partialRefactor => "PartialRefactor"
  | preserve => "Preserve"
  | unanalyzable => "Unanalyzable"

/-- All categories. -/
def Category.all : List Category := [fullRefactor, partialRefactor, preserve, unanalyzable]

/-- The constraints of a function, its own and those it meets below. -/
structure ConstraintSummary where
  direct : ConstraintSet := {}
  transitive : ConstraintSet := {}
  inCycle : Bool := false
  /-- The members of the cycle that the function is part of. -/
  cycleComponent : List Node := []
  externalSinks : NameSet := {}
deriving DecidableEq, Repr

/-- The summary of an aggregate, given the constraints of the node itself. -/
def ConstraintSummary.ofAggregate (direct : ConstraintSet) (a : Aggregate) : ConstraintSummary :=
  { direct
    transitive := a.below.constraints
    inCycle := a.cyclic
    cycleComponent := if a.cyclic then a.component else []
    externalSinks := a.below.sinks }

/-- Why a decision is what it is, or what else is to be said about it. -/
inductive Reason where
  | directInterop
  | directProtocol
  | externalSink (sinks : List String)
  | mutualRecursion
  | noMigration
  | fullMigration
  | wrappedSinks
  | redundantWrapper
  | unsafeSuspension
  | unscannable (failure : String)
deriving DecidableEq, Repr

/-- The reason in words. -/
def Reason.text : Reason → String
  | directInterop =>
    "direct interop exposure: keep the callback signature for non-structured "
      ++ "hosts and add a structured overload for internal callers"
  | directProtocol =>
    "direct protocol requirement: the conformance needs the callback form; "
      ++ "add a structured overload alongside it"
  | externalSink sinks =>
    "depends on an unanalyzable external call (" ++ ", ".intercalate sinks ++ ")"
  | mutualRecursion =>
    "part of a mutual-recursion cycle; refactor all members atomically or not at all"
  | noMigration => "no migration needed"
  | fullMigration => "no constraint blocks a full migration"
  | wrappedSinks => "external calls all have a structured wrapper"
  | redundantWrapper => "redundant wrapper — removable"
  | unsafeSuspension => "recommend converting to checked suspension before further refactor"
  | unscannable failure => "function body could not be analyzed: " ++ failure

/-- What is decided for a function. -/
structure Decision where
  function : String
  category : Category
  rationale : List Reason := []
  redundantWrapper : Bool := false
deriving DecidableEq, Repr

/-- The only pattern to be migrated, if there is one only and it is a suspension. -/
def CatalogEntry.soleSuspension? (e : CatalogEntry) : Option Pattern :=
  match e.scan.migrationPatterns with
  | [p] => if p.kind.isSuspension then some p else none
  | _ => none

/-- Whether a function is natively structured, by declaration or by what it does. -/
def CatalogEntry.nativelyStructured (e : CatalogEntry) : Bool :=
  e.signature.structured || e.scan.patterns.any (·.kind = .nativeStructured)

/-- The callee that a function merely wraps in a suspension: the one that its only suspension names,
or else the only function that it calls. -/
def CallGraph.wrappedCallee? (g : CallGraph) (e : CatalogEntry) : Option String := do
  let p ← e.soleSuspension?
  match p.callee with
  | some callee => some callee
  | none =>
    match g.resolvedCallees (.function e.name) with
    | [callee] => some callee
    | _ => none

/-- Whether a function only suspends around a callee that is structured already. -/
def CallGraph.isRedundantWrapper (g : CallGraph) (e : CatalogEntry) : Bool :=
  match g.wrappedCallee? e with
  | none => false
  | some callee =>
    match g.catalog.get? callee with
    | none => false
    | some target => target.analyzable && target.nativelyStructured

/-- The reasons that cap the migration of a function, in order. -/
def capReasons (s : ConstraintSummary) (unwrapped : List String) : List Reason :=
  (if s.direct.contains .interopExposure then [.directInterop] else [])
    ++ (if s.direct.contains .protocolRequirement then [.directProtocol] else [])
    ++ (if s.transitive.contains .externalSinkDependency && !unwrapped.isEmpty then
        [.externalSink unwrapped] else [])
    ++ (if s.inCycle then [.mutualRecursion] else [])

/-- What is remarked about a function whatever its category. -/
def remarks (e : CatalogEntry) (s : ConstraintSummary) (unwrapped : List String)
    (redundant : Bool) : List Reason :=
  (if s.transitive.contains .externalSinkDependency && unwrapped.isEmpty then
      [.wrappedSinks] else [])
    ++ (if redundant then [.redundantWrapper] else [])
    ++ (if e.scan.patterns.any (·.kind = .suspensionUncheckedUnsafe) then
        [.unsafeSuspension] else [])

/-- The sinks below a function that have no structured wrapper. -/
def ConstraintSummary.unwrapped (s : ConstraintSummary) (wrapped : NameSet) : List String :=
  s.externalSinks.names.filter fun sink => !wrapped.contains sink

/-- The decision for a function that could be scanned. -/
def decideScanned (g : CallGraph) (wrapped : NameSet) (e : CatalogEntry) (s : ConstraintSummary) :
    Decision :=
  let unwrapped := s.unwrapped wrapped
  let redundantWrapper := g.isRedundantWrapper e
  let caps := capReasons s unwrapped
  let (category, reasons) : Category × List Reason :=
    if !caps.isEmpty then (.partialRefactor, caps)
    else if e.scan.migrationPatterns.isEmpty then (.preserve, [.noMigration])
    else (.fullRefactor, [.fullMigration])
  { function := e.name
    category
    rationale := reasons ++ remarks e s unwrapped redundantWrapper
    redundantWrapper }

/-- The decision for a function that could not be scanned. -/
def decideUnscanned (e : CatalogEntry) (failure : String) : Decision :=
  { function := e.name, category := .unanalyzable, rationale := [.unscannable failure] }

end AsyncMigration
