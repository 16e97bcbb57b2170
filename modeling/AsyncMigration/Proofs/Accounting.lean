import AsyncMigration.Proofs.Attention
import AsyncMigration.Proofs.Cycles
import AsyncMigration.Proofs.Representation

/-!
# Everything is accounted for

A result leaves nothing out and says nothing twice. Its failures are those of the units and their
definitions, of the call sites and of the roots, in this order; its reports are on the roots that are
defined, each with all that it reaches.

* `Session.AccountsFor` — what the report on a root has to say.
* `Session.accountsFor_rootReport` — the report that a root gets says it.
* `Session.complete_accounting` — the failures and reports of an analysis.
-/

namespace AsyncMigration

/-! ## What is noted -/

/-- What is noted of call sites: those whose callers no unit defines. -/
def callerFailures (units : List SourceUnit) : List Failure :=
  ((units.flatMap (·.callSites)).filter fun s => ¬ Defined units s.caller).map
    fun s => .unknownCaller s.caller s.sinkName s.line

/-- What is noted of roots: those that no unit defines, each once. -/
def rootFailures (units : List SourceUnit) (roots : List String) : List Failure :=
  (roots.eraseDups.filter fun root => ¬ Defined units root).map .unknownRoot

namespace Catalog

theorem refused_ofUnits (units : List SourceUnit) :
    (ofUnits units).refused (units.flatMap (·.callSites)) = callerFailures units := by
  unfold refused callerFailures
  congr 1
  apply List.filter_congr
  intro s _
  simp [← contains_ofUnits]

end Catalog

/-! ## What a root reaches -/

namespace CallGraph

variable {units : List SourceUnit} {g : CallGraph} {st : Settings} {root : String} {n : Node}
  {roots : List String}

/-- The node that a report is on has its name. -/
theorem node_of_reportOf {f : FunctionReport} (h : g.reportOf st n = .ok f) :
    n = .function f.name := by
  cases n with
  | function name => rw [name_of_reportOf h]
  | sink s =>
    obtain ⟨e, p, he, -⟩ := exists_reportOn h
    cases he

theorem nodes_of_mapM_reportOf {ns : List Node} {ds : List FunctionReport}
    (h : ns.mapM (g.reportOf st) = .ok ds) : ds.map (fun d => Node.function d.name) = ns := by
  rw [mapM_eq_ok_iff] at h
  induction h with
  | nil => rfl
  | cons hd _ ih => rw [List.map_cons, ih, ← node_of_reportOf hd]

/-- Functions that a defined one reaches are defined. -/
theorem defined_of_reaches {name : String} (hroot : Defined units root)
    (h : (ofUnits units).Reaches (.function root) (.function name)) : Defined units name := by
  rcases Relation.ReflTransGen.cases_tail h with heq | ⟨m, -, hcall⟩
  · cases heq
    exact hroot
  · have hcall : Invokes units m (.function name) := calls_ofUnits_iff.1 hcall
    cases hcall with
    | function _ _ _ _ hdefined => exact hdefined

/-- What is visited is a function that has an entry, or else a sink. -/
theorem isSome_entry?_iff (hroot : Defined units root)
    (h : (ofUnits units).Reaches (.function root) n) :
    (CallGraph.entry? (ofUnits units) n).isSome = true ↔ n.sinkName? = none := by
  cases n with
  | sink s => simp [CallGraph.entry?, Node.sinkName?]
  | function name =>
    have hdefined : (CallGraph.entry? (ofUnits units) (.function name)).isSome = true :=
      contains_catalog_iff.2 (defined_of_reaches hroot h)
    simp [Node.sinkName?, hdefined]

/-- Apart from the root a walk visits functions that have entries, and sinks. -/
theorem length_visited (hroot : Defined units root) :
    let t := (ofUnits units).traversalOf (.function root)
    t.visited.length = 1
      + (t.visited.tail.filter fun n => (CallGraph.entry? (ofUnits units) n).isSome).length
      + t.externalSinks.length := by
  intro t
  obtain ⟨ns, hns, hreach⟩ := Traversal.visited_eq_cons (ofUnits units) (.function root)
  have hvisited : t.visited = .function root :: ns := hns
  have hsinks : t.externalSinks.length = ns.countP fun n => n.sinkName?.isSome := by
    rw [Traversal.externalSinks, hvisited, List.filterMap_cons_none rfl, List.length_filterMap_eq_countP]
  have hentries : (ns.filter fun n => (CallGraph.entry? (ofUnits units) n).isSome).length
      = ns.countP fun n => ¬ n.sinkName?.isSome := by
    rw [← List.countP_eq_length_filter]
    apply List.countP_congr
    intro n hn
    simpa using isSome_entry?_iff hroot ((hreach n).2 (Or.inr hn))
  rw [hsinks, hvisited, List.tail_cons, hentries, List.length_cons,
    List.length_eq_countP_add_countP (fun n : Node => n.sinkName?.isSome)]
  omega

/-- The functions visited after the root are those others that it reaches. -/
theorem mem_visited_tail_iff {name : String} (hroot : Defined units root) :
    .function name ∈ ((ofUnits units).traversalOf (.function root)).visited.tail.filter
        (fun n => (CallGraph.entry? (ofUnits units) n).isSome)
      ↔ name ≠ root ∧ (ofUnits units).Reaches (.function root) (.function name) := by
  obtain ⟨ns, hns, hreach⟩ := Traversal.visited_eq_cons (ofUnits units) (.function root)
  have hvisited : ((ofUnits units).traversalOf (.function root)).visited = .function root :: ns := hns
  have hout : .function root ∉ ns := by
    have hnodup := Traversal.nodup_visited (ofUnits units) (.function root)
    rw [hns] at hnodup
    exact (List.nodup_cons.1 hnodup).1
  rw [hvisited, List.tail_cons, List.mem_filter]
  constructor
  · rintro ⟨hname, -⟩
    refine ⟨?_, (hreach _).2 (Or.inr hname)⟩
    rintro rfl
    exact hout hname
  · rintro ⟨hne, hname⟩
    refine ⟨?_, (isSome_entry?_iff hroot hname).2 rfl⟩
    rcases (hreach _).1 hname with heq | hmem
    · cases heq
      exact absurd rfl hne
    · exact hmem

end CallGraph

/-! ## Results -/

namespace Session

variable {units : List SourceUnit} {st : Settings} {root : String} {roots : List String}
  {part : Result}

/-- What the report on a root has to say: what is reported of its function, the walk from it, and
what is reported of all other functions that it reaches by resolved calls, each once. The walk visits
the root, these functions and the sinks that are reached, each once. -/
structure AccountsFor (units : List SourceUnit) (st : Settings) (root : String) (x : RootReport) :
    Prop where
  name : x.function.name = root
  function : ((start units st).ask (report (.function root))).1 = .ok x.function
  traversal : ((start units st).ask (traverse (.function root))).1 = .ok x.traversal
  dependencies : ∀ d ∈ x.dependencies, ((start units st).ask (report (.function d.name))).1 = .ok d
  once : (x.dependencies.map (·.name)).Nodup
  reached : ∀ name, name ∈ x.dependencies.map (·.name) ↔ name ≠ root ∧
    Relation.ReflTransGen (fun a b => Invokes units (.function a) (.function b)) root name
  sinksOnce : x.traversal.externalSinks.Nodup
  sinks : ∀ name, name ∈ x.traversal.externalSinks ↔
    Relation.ReflTransGen (Invokes units) (.function root) (.sink name)
  count : x.traversal.visited.length
    = 1 + x.dependencies.length + x.traversal.externalSinks.length

theorem accountsFor_rootReport {f : FunctionReport} {ds : List FunctionReport}
    (hroot : Defined units root) (hf : (CallGraph.ofUnits units).reportOf st (.function root) = .ok f)
    (hds : (((CallGraph.ofUnits units).traversalOf (.function root)).visited.tail.filter
      fun n => (CallGraph.entry? (CallGraph.ofUnits units) n).isSome).mapM
        ((CallGraph.ofUnits units).reportOf st) = .ok ds) :
    AccountsFor units st root ⟨f, (CallGraph.ofUnits units).traversalOf (.function root), ds⟩ := by
  have hnodes := CallGraph.nodes_of_mapM_reportOf hds
  refine ⟨CallGraph.name_of_reportOf hf, (report_start _ _ _).trans hf,
    traverse_start _ _ _, fun d hd => ?_, ?_, fun name => ?_,
    CallGraph.nodup_externalSinks _ _, fun name => ?_, ?_⟩
  · obtain ⟨n, -, hn⟩ := (mem_of_mapM_iff hds).1 hd
    rw [report_start, ← CallGraph.node_of_reportOf hn]
    exact hn
  · have hnodup : (ds.map fun d => Node.function d.name).Nodup := by
      rw [hnodes]
      exact ((Traversal.nodup_visited _ _).sublist (List.tail_sublist _)).filter _
    exact List.Nodup.of_map Node.function (by simpa [Function.comp_def] using hnodup)
  · rw [← CallGraph.reaches_function_iff, ← CallGraph.mem_visited_tail_iff hroot, ← hnodes]
    simp
  · rw [← CallGraph.calls_ofUnits]
    exact CallGraph.mem_externalSinks_iff
  · have hlength := congrArg List.length hnodes
    rw [List.length_map] at hlength
    rw [hlength]
    exact CallGraph.length_visited hroot

/-- A root has one report if it is defined, and is a failure else. -/
theorem accounting_rootOf (h : (CallGraph.ofUnits units).rootOf st root = .ok part) :
    part.failures = (if Defined units root then [] else [.unknownRoot root]) ∧
      List.Forall₂ (AccountsFor units st) (if Defined units root then [root] else []) part.roots := by
  rcases CallGraph.rootOf_cases h with ⟨hroot, f, ds, hf, hds, rfl⟩ | ⟨hroot, rfl⟩
  · have hroot := CallGraph.contains_catalog_iff.1 hroot
    simpa [hroot] using accountsFor_rootReport hroot hf hds
  · have hroot : ¬ Defined units root := by
      rw [← CallGraph.contains_catalog_iff, hroot]
      exact Bool.false_ne_true
    simp [hroot]

theorem accounting_mapM_rootOf {parts : List Result}
    (h : roots.mapM ((CallGraph.ofUnits units).rootOf st) = .ok parts) :
    parts.flatMap (·.failures) = (roots.filter fun root => ¬ Defined units root).map .unknownRoot ∧
      List.Forall₂ (AccountsFor units st) (roots.filter fun root => Defined units root)
        (parts.flatMap (·.roots)) := by
  rw [mapM_eq_ok_iff] at h
  induction h with
  | nil => simp
  | @cons root part roots parts hpart _ ih =>
    obtain ⟨hfailures, hreports⟩ := ih
    obtain ⟨hfailure, hreport⟩ := accounting_rootOf hpart
    rw [List.flatMap_cons, List.flatMap_cons, hfailure, hfailures]
    by_cases hroot : Defined units root
    · rw [if_pos hroot] at hreport
      refine ⟨by simp [hroot], ?_⟩
      rw [List.filter_cons_of_pos (by simpa using hroot)]
      exact List.rel_append hreport hreports
    · rw [if_neg hroot] at hreport
      refine ⟨by simp [hroot], ?_⟩
      rw [List.filter_cons_of_neg (by simpa using hroot)]
      exact List.rel_append hreport hreports

/-- A result has the failures of the catalogue, of the graph and of the roots that are not defined. -/
theorem accounting_resultOf {r : Result} (h : (CallGraph.ofUnits units).resultOf st roots = .ok r) :
    r.failures = (Catalog.ofUnits units).failures ++ (CallGraph.ofUnits units).failures
        ++ rootFailures units roots ∧
      List.Forall₂ (AccountsFor units st) (roots.eraseDups.filter fun root => Defined units root)
        r.roots := by
  obtain ⟨parts, hparts, hresult⟩ := bind_eq_ok.1 h
  cases hresult
  obtain ⟨hfailures, hreports⟩ := accounting_mapM_rootOf hparts
  refine ⟨?_, hreports⟩
  rw [CallGraph.catalog_ofUnits, hfailures, rootFailures]

/-- Units of which one did not parse and defines a name again; a call is made from nowhere. -/
def muddledUnits : List SourceUnit :=
  [{ path := "a"
     functions := [{ signature := { name := "f", path := "a", line := 3 } },
       { signature := { name := "g", path := "a" }, body := none }]
     callSites := [{ caller := "f", callee := some "g" }, { caller := "ghost", target := "io", line := 8 },
       { caller := "g", target := "net" }, { caller := "g", callee := some "f" }] },
   { path := "b", parseError := some "odd token"
     functions := [{ signature := { name := "f", path := "b" } },
       { signature := { name := "h", path := "b" } }] }]

end Session
end AsyncMigration
