import AsyncMigration.Proofs.Units
import Mathlib.Algebra.BigOperators.Group.List.Lemmas
import Mathlib.Algebra.Ring.Nat

/-!
# What a graph keeps of its calls

A graph keeps its calls several times over: by caller, counted by callee, and as a list of sinks. Its
catalogue may grow between calls, so a name that calls led out to may be defined later. Whatever
comes in whatever order, all that the graph keeps can be read off one list, the edges of the accepted
call sites in order.

* `CallGraph.Represents` — what a graph keeps of a list of edges.
* `CallGraph.Represents.enter`, `accept`, `refuse` — one step keeps this up.
* `CallGraph.represents_grown` — so do all steps.
* `CallGraph.grown_consistent` — the parts of a graph agree in every state that steps lead to.
-/

namespace AsyncMigration

/-! ## Histories -/

theorem eraseDups_concat {α : Type} [DecidableEq α] (l : List α) (a : α) :
    (l ++ [a]).eraseDups = if a ∈ l then l.eraseDups else l.eraseDups ++ [a] := by
  rw [List.eraseDups_append]
  by_cases ha : a ∈ l <;> simp [List.removeAll, ha, List.eraseDups_cons]

/-- A step in the making of a graph: a function is entered into the catalogue, or a call site is
added. -/
inductive GraphStep where
  | enter (s : Signature) (scan : ScanReport)
  | call (site : CallSite)

namespace GraphStep

/-- The name that a step defines. -/
def name? : GraphStep → Option String
  | enter s _ => some s.name
  | call _ => none

/-- The call site that a step adds. -/
def site? : GraphStep → Option CallSite
  | enter _ _ => none
  | call site => some site

end GraphStep

/-- The names that steps define. -/
def definedBy (steps : List GraphStep) : List String := steps.filterMap GraphStep.name?

/-- The call sites that steps add, each with the names that were defined by then. -/
def sitesOf (steps : List GraphStep) : List (List String × CallSite) :=
  (eachAfter steps).filterMap fun (before, step) => step.site?.map (definedBy before, ·)

/-- The call sites whose callers were defined by then. -/
def acceptedSites (steps : List GraphStep) : List (List String × CallSite) :=
  (sitesOf steps).filter fun (names, site) => site.caller ∈ names

/-- The call sites whose callers were not defined by then. -/
def refusedSites (steps : List GraphStep) : List (List String × CallSite) :=
  (sitesOf steps).filter fun (names, site) => site.caller ∉ names

/-- An edge stands for a call site that was added when some names were defined: it leads to the
function that the site names if that was defined, and else to the sink known by the callee or the
text of the call. -/
structure CallEdge.Records (e : CallEdge) (names : List String) (s : CallSite) : Prop where
  caller : e.caller = s.caller
  line : e.line = s.line
  target : e.target = s.target
  function : ∀ name, e.callee = .function name ↔ s.callee = some name ∧ name ∈ names
  sink : e.resolved = false ↔ e.callee = .sink s.sinkName

section

variable {steps : List GraphStep} {s : Signature} {scan : ScanReport} {site : CallSite}

theorem definedBy_enter : definedBy (steps ++ [.enter s scan]) = definedBy steps ++ [s.name] := by
  simp [definedBy, GraphStep.name?]

theorem definedBy_call : definedBy (steps ++ [.call site]) = definedBy steps := by
  simp [definedBy, GraphStep.name?]

theorem sitesOf_enter : sitesOf (steps ++ [.enter s scan]) = sitesOf steps := by
  simp [sitesOf, eachAfter_concat, GraphStep.site?]

theorem sitesOf_call : sitesOf (steps ++ [.call site]) = sitesOf steps ++ [(definedBy steps, site)] := by
  simp [sitesOf, eachAfter_concat, GraphStep.site?]

theorem acceptedSites_enter : acceptedSites (steps ++ [.enter s scan]) = acceptedSites steps := by
  rw [acceptedSites, sitesOf_enter, acceptedSites]

theorem acceptedSites_call : acceptedSites (steps ++ [.call site]) = acceptedSites steps
    ++ if site.caller ∈ definedBy steps then [(definedBy steps, site)] else [] := by
  rw [acceptedSites, sitesOf_call, List.filter_append, acceptedSites]
  by_cases hcaller : site.caller ∈ definedBy steps <;> simp [hcaller]

end

/-! ## Tables of lists -/

/-- Putting an item at the end of the list under a key adds that item to all there is. -/
theorem Table.flatten_put_perm {κ α : Type} [DecidableEq κ] (k : κ) (a : α) (es : List (κ × List α)) :
    ((Table.put k ((Table.find k es).getD [] ++ [a]) es).map (·.2)).flatten.Perm
      ((es.map (·.2)).flatten ++ [a]) := by
  induction es with
  | nil => simp [Table.put, Table.find]
  | cons e es ih =>
    by_cases hk : e.1 = k
    · simp only [Table.put, Table.find, hk, if_pos, Option.getD_some, List.map_cons, List.flatten_cons,
        List.append_assoc]
      exact List.Perm.append_left _ List.perm_append_comm
    · simp only [Table.put, Table.find, hk, if_false, List.map_cons, List.flatten_cons,
        List.append_assoc]
      exact ih.append_left _

theorem sum_eq_count {κ : Type} [DecidableEq κ] (k : κ) (keys : List κ) :
    (keys.map fun k' => if k = k' then 1 else 0).sum = keys.count k := by
  induction keys with
  | nil => rfl
  | cons x keys ih =>
    rw [List.map_cons, List.sum_cons, ih, List.count_cons]
    by_cases hx : k = x <;> simp [hx, Nat.add_comm, Ne.symm]

/-- Counts by key, summed over distinct keys, are the number of items that have one of them. -/
theorem sum_countP_eq {α κ : Type} [DecidableEq κ] {keys : List κ} (hkeys : keys.Nodup)
    (key? : α → Option κ) (l : List α) (hl : ∀ a ∈ l, ∀ k, key? a = some k → k ∈ keys) :
    (keys.map fun k => l.countP (key? · = some k)).sum = l.countP fun a => (key? a).isSome := by
  induction l with
  | nil => simp
  | cons a l ih =>
    have hrest := ih fun b hb => hl b (List.mem_cons_of_mem _ hb)
    simp only [List.countP_cons, List.sum_map_add, hrest, Nat.add_left_cancel_iff]
    cases hk : key? a with
    | none => simp
    | some k =>
      -- the key of the item stands among the keys once
      have hone : keys.count k = 1 := List.count_eq_one_of_mem hkeys (hl a List.mem_cons_self k hk)
      simpa [hone] using sum_eq_count k keys

/-- A definition adds an entry if its name is new. -/
theorem Catalog.entries_add (c : Catalog) (s : Signature) (scan : ScanReport) :
    (c.add s scan).1.entries = if c.contains s.name then c.entries else c.entries ++ [⟨s, scan⟩] := by
  unfold add contains
  cases c.get? s.name with
  | some first => rfl
  | none => cases scan.failure <;> simp [fail]

theorem Catalog.contains_iff_mem {c : Catalog} {name : String} :
    c.contains name = true ↔ name ∈ c.entries.map (·.name) := by
  simp [contains, get?]

/-- The edge of a call site records it. -/
theorem Catalog.edge_records {c : Catalog} {names : List String}
    (h : ∀ name, c.contains name = true ↔ name ∈ names) (s : CallSite) :
    (c.edge s).Records names s := by
  refine ⟨rfl, rfl, rfl, fun name => ?_, ?_⟩
  · rw [← h]
    exact target_eq_function_iff
  · unfold edge target
    split <;> simp [Node.isSink]

namespace CallGraph

variable {g : CallGraph} {names : List String} {edges : List CallEdge} {site : CallSite}

theorem edges_addEdge_perm (g : CallGraph) (e : CallEdge) :
    (g.addEdge e).edges.Perm (g.edges ++ [e]) :=
  Table.flatten_put_perm e.caller e g.outgoing.entries

theorem edges_addCall_perm (h : g.catalog.contains site.caller = true) :
    (g.addCall site).1.edges.Perm (g.edges ++ [g.catalog.edge site]) := by
  unfold addCall Catalog.edge Catalog.target
  rw [if_pos h]
  cases site.callee.filter g.catalog.contains with
  | some callee => exact edges_addEdge_perm g _
  | none => exact edges_addEdge_perm g _

/-- A call that leads out is noted under the name of its sink, unless that has been noted before. -/
theorem sinks_addCall (h : g.catalog.contains site.caller = true) :
    (g.addCall site).1.sinks = match (g.catalog.edge site).callee.sinkName? with
      | none => g.sinks
      | some name => if name ∈ g.sinks then g.sinks else g.sinks ++ [name] := by
  unfold addCall Catalog.edge Catalog.target
  rw [if_pos h]
  cases site.callee.filter g.catalog.contains with
  | some callee => rfl
  | none => simp [Node.sinkName?]

/-! ## Steps -/

/-- The graph after a step. -/
def change (g : CallGraph) : GraphStep → CallGraph
  | .enter s scan => (g.addFunction s scan).1
  | .call site => (g.addCall site).1

/-- The graph that steps lead to from nothing. -/
def grown (steps : List GraphStep) : CallGraph := steps.foldl change {}

theorem grown_concat (steps : List GraphStep) (step : GraphStep) :
    grown (steps ++ [step]) = (grown steps).change step := by
  simp [grown]

/-- What a graph keeps, given the names that are defined and the edges in the order of their calls. -/
structure Represents (g : CallGraph) (names : List String) (edges : List CallEdge) : Prop where
  known : ∀ name, g.catalog.contains name = true ↔ name ∈ names
  distinct : (g.catalog.entries.map (·.name)).Nodup
  outEdges : ∀ name, g.outEdges (.function name) = edges.filter (·.caller = name)
  all : g.edges.Perm edges
  incoming : ∀ name, g.incomingCalls (.function name) = edges.countP (·.callee = .function name)
  sinks : g.sinks = (edges.filterMap (·.callee.sinkName?)).eraseDups
  callers : ∀ e ∈ edges, e.caller ∈ names
  callees : ∀ e ∈ edges, ∀ name, e.callee = .function name → name ∈ names
  resolved : ∀ e ∈ edges, e.resolved = !e.callee.isSink

theorem represents_empty : ({} : CallGraph).Represents [] [] := by
  refine ⟨?_, ?_, ?_, ?_, ?_, ?_, ?_, ?_, ?_⟩ <;>
    simp [Catalog.contains, Catalog.get?, CallGraph.outEdges, CallGraph.edges, CallGraph.incomingCalls,
      Table.get?, Table.find, Table.values]

namespace Represents

variable (h : g.Represents names edges)

include h

/-- A definition is entered under a new name only, and no call changes. -/
theorem enter (s : Signature) (scan : ScanReport) :
    (g.addFunction s scan).1.Represents (names ++ [s.name]) edges where
  known name := by
    show (g.catalog.add s scan).1.contains name = true ↔ _
    have hknown := h.known name
    simp only [Catalog.contains, Catalog.get?_add, Option.isSome_or, Bool.or_eq_true, List.mem_append,
      List.mem_singleton] at hknown ⊢
    rw [hknown]
    by_cases hname : s.name = name <;> simp [hname, Ne.symm]
  distinct := by
    show ((g.catalog.add s scan).1.entries.map (·.name)).Nodup
    rw [Catalog.entries_add]
    split
    · exact h.distinct
    · next hnew =>
      have hout : s.name ∉ g.catalog.entries.map (·.name) := by
        simpa [Catalog.contains, Catalog.get?] using hnew
      rw [List.map_append, List.nodup_append]
      refine ⟨h.distinct, by simp, ?_⟩
      rintro name hname _ hs rfl
      obtain rfl : name = s.name := List.mem_singleton.1 hs
      exact hout hname
  outEdges := h.outEdges
  all := h.all
  incoming := h.incoming
  sinks := h.sinks
  callers e he := List.mem_append_left _ (h.callers e he)
  callees e he name hname := List.mem_append_left _ (h.callees e he name hname)
  resolved := h.resolved

/-- A call site whose caller is defined adds its edge to all that the graph keeps. -/
theorem accept (hcaller : site.caller ∈ names) :
    (g.addCall site).1.Represents names (edges ++ [g.catalog.edge site]) := by
  have hknown := (h.known site.caller).2 hcaller
  have haccepted : g.catalog.accepted [site] = [g.catalog.edge site] := by
    simp [Catalog.accepted, hknown]
  refine ⟨fun name => ?_, ?_, fun name => ?_, ?_, fun name => ?_, ?_, fun e he => ?_,
    fun e he name hname => ?_, fun e he => ?_⟩
  · rw [catalog_addCall]
    exact h.known name
  · rw [catalog_addCall]
    exact h.distinct
  · rw [(addCall_spec g site name).1, h.outEdges, haccepted, List.filter_append]
  · exact (edges_addCall_perm hknown).trans (h.all.append_right _)
  · rw [(addCall_spec g site name).2.1, h.incoming, haccepted, List.countP_append]
  · rw [sinks_addCall hknown, h.sinks, List.filterMap_append]
    cases hname : (g.catalog.edge site).callee.sinkName? with
    | none => simp [hname]
    | some name => simp [hname, eraseDups_concat]
  · rcases List.mem_append.1 he with he | he
    · exact h.callers e he
    · rw [List.mem_singleton.1 he]
      exact hcaller
  · rcases List.mem_append.1 he with he | he
    · exact h.callees e he name hname
    · rw [List.mem_singleton.1 he] at hname
      exact (h.known name).1 (Catalog.target_eq_function_iff.1 hname).2
  · rcases List.mem_append.1 he with he | he
    · exact h.resolved e he
    · rw [List.mem_singleton.1 he]
      rfl

/-- A call site whose caller is not defined leaves what the graph keeps. -/
theorem refuse (hcaller : site.caller ∉ names) : (g.addCall site).1.Represents names edges := by
  have hunknown : ¬ g.catalog.contains site.caller = true := mt (h.known site.caller).1 hcaller
  unfold addCall
  rw [if_neg hunknown]
  exact { h with }

/-- Every call is counted once for its caller, and once more for its callee if that is a function. -/
theorem sum_callSiteCount :
    (g.catalog.entries.map fun e => g.callSiteCount (.function e.name)).sum
      = edges.length + edges.countP (·.resolved) := by
  have hcallee : ∀ (e : CallEdge) name,
      e.callee = .function name ↔ e.callee.functionName? = some name := by
    intro e name
    cases e.callee <;> simp [Node.functionName?]
  have hcount : ∀ name, g.callSiteCount (.function name)
      = edges.countP (·.callee.functionName? = some name)
        + edges.countP (fun e => some e.caller = some name) := by
    intro name
    simp only [callSiteCount, outgoingCalls, h.incoming, h.outEdges, hcallee, Option.some.injEq,
      List.countP_eq_length_filter]
  have hlisted : ∀ name ∈ names, name ∈ g.catalog.entries.map (·.name) := fun name hname =>
    Catalog.contains_iff_mem.1 ((h.known name).2 hname)
  have hcallees : ∀ e ∈ edges, ∀ name, e.callee.functionName? = some name →
      name ∈ g.catalog.entries.map (·.name) := fun e he name hname =>
    hlisted name (h.callees e he name ((hcallee e name).2 hname))
  have hcallers : ∀ e ∈ edges, ∀ name, some e.caller = some name →
      name ∈ g.catalog.entries.map (·.name) := fun e he name hname =>
    hlisted name (Option.some.inj hname ▸ h.callers e he)
  have hresolved : edges.countP (fun e => e.callee.functionName?.isSome)
      = edges.countP (·.resolved) := by
    apply List.countP_congr
    intro e he
    rw [h.resolved e he]
    cases e.callee <;> simp [Node.functionName?, Node.isSink]
  calc (g.catalog.entries.map fun e => g.callSiteCount (.function e.name)).sum
      = ((g.catalog.entries.map (·.name)).map fun name =>
          edges.countP (·.callee.functionName? = some name)
            + edges.countP (fun e => some e.caller = some name)).sum := by
        simp only [List.map_map, Function.comp_def, hcount]
    _ = edges.countP (fun e => e.callee.functionName?.isSome)
          + edges.countP (fun e => (some e.caller).isSome) := by
        rw [List.sum_map_add, sum_countP_eq h.distinct _ _ hcallees,
          sum_countP_eq h.distinct _ _ hcallers]
    _ = edges.length + edges.countP (·.resolved) := by
        simp [hresolved, Nat.add_comm]

end Represents

/-- After any steps there are the edges of the accepted call sites, in order. -/
theorem represents_grown (steps : List GraphStep) :
    ∃ edges, (grown steps).Represents (definedBy steps) edges ∧
      List.Forall₂ (fun x e => e.Records x.1 x.2) (acceptedSites steps) edges := by
  induction steps using List.reverseRecOn with
  | nil => exact ⟨[], represents_empty, .nil⟩
  | append_singleton steps step ih =>
    obtain ⟨edges, h, hrecords⟩ := ih
    rw [grown_concat]
    cases step with
    | enter s scan =>
      rw [definedBy_enter, acceptedSites_enter]
      exact ⟨edges, h.enter s scan, hrecords⟩
    | call site =>
      rw [definedBy_call, acceptedSites_call]
      by_cases hcaller : site.caller ∈ definedBy steps
      · refine ⟨_, h.accept hcaller, List.rel_append hrecords ?_⟩
        simpa [hcaller] using Catalog.edge_records h.known site
      · refine ⟨edges, h.refuse hcaller, ?_⟩
        simpa [hcaller] using hrecords

/-- The call sites that give no edge are noted as failures, in order. -/
theorem failures_grown (steps : List GraphStep) :
    (grown steps).failures = (refusedSites steps).map fun x =>
      .unknownCaller x.2.caller x.2.sinkName x.2.line := by
  induction steps using List.reverseRecOn with
  | nil => rfl
  | append_singleton steps step ih =>
    obtain ⟨edges, h, -⟩ := represents_grown steps
    rw [grown_concat, refusedSites]
    cases step with
    | enter s scan =>
      rw [sitesOf_enter]
      exact ih
    | call site =>
      have hfail : ((grown steps).change (.call site)).failures
          = (grown steps).failures ++ (grown steps).catalog.refused [site] :=
        (addCall_spec (grown steps) site "").2.2
      rw [hfail, ih, sitesOf_call, List.filter_append, List.map_append, refusedSites]
      congr 1
      by_cases hcaller : site.caller ∈ definedBy steps
      · simp [Catalog.refused, hcaller, (h.known site.caller).2 hcaller]
      · have hunknown : (grown steps).catalog.contains site.caller = false := by
          simpa using mt (h.known site.caller).1 hcaller
        simp [Catalog.refused, hcaller, hunknown]

/-- **The parts of a graph agree** after any steps, in any order. The names defined are catalogued, each
once. There is one edge for each call site whose caller was defined by then, in order, which leads to
the callee if that was defined by then and else to a sink; the other call sites are failures. The
calls of a function are those edges of which it is the caller. Callers are catalogued, and so are
callees that are functions. The count of a node is the number of resolved edges that lead to it, the
sinks are listed in the order of their first edges, and the counts of all functions add up to the
edges and the resolved edges. -/
theorem grown_consistent (steps : List GraphStep) :
    let g := grown steps
    (∀ name, g.catalog.contains name = true ↔ name ∈ definedBy steps) ∧
    (g.catalog.entries.map (·.name)).Nodup ∧
    (g.failures = (refusedSites steps).map fun x =>
      .unknownCaller x.2.caller x.2.sinkName x.2.line) ∧
    ∃ edges : List CallEdge,
      List.Forall₂ (fun x e => e.Records x.1 x.2) (acceptedSites steps) edges ∧
      (∀ name, g.outEdges (.function name) = edges.filter (·.caller = name)) ∧
      g.edges.Perm edges ∧
      (∀ e ∈ g.edges, g.catalog.contains e.caller = true ∧
        (e.resolved = true ↔ ∃ name, e.callee = .function name) ∧
        ∀ name, e.callee = .function name → g.catalog.contains name = true) ∧
      (∀ n, g.incomingCalls n = g.edges.countP fun e => e.resolved && e.callee = n) ∧
      g.sinks = (edges.filterMap (·.callee.sinkName?)).eraseDups ∧
      (g.catalog.entries.map fun e => g.callSiteCount (.function e.name)).sum
        = g.edges.length + g.edges.countP (·.resolved) := by
  intro g
  obtain ⟨edges, h, hrecords⟩ := represents_grown steps
  refine ⟨h.known, h.distinct, failures_grown steps, edges, hrecords, h.outEdges, h.all,
    fun e he => ⟨?_, ?_, fun name hname => ?_⟩, fun n => ?_, h.sinks, ?_⟩
  · exact (h.known _).2 (h.callers e (h.all.mem_iff.1 he))
  · rw [h.resolved e (h.all.mem_iff.1 he)]
    cases e.callee <;> simp [Node.isSink]
  · exact (h.known name).2 (h.callees e (h.all.mem_iff.1 he) name hname)
  · rw [h.all.countP_eq]
    cases n with
    | function name =>
      rw [h.incoming name]
      apply List.countP_congr
      intro e he
      rw [h.resolved e he]
      cases hcallee : e.callee <;> simp [Node.isSink]
    | sink name =>
      symm
      simp only [CallGraph.incomingCalls, List.countP_eq_zero]
      intro e he
      rw [h.resolved e he]
      cases hcallee : e.callee <;> simp [Node.isSink]
  · rw [h.sum_callSiteCount, h.all.length_eq, h.all.countP_eq]

-- a name that a call led out to is defined, and called again
example :
    let g := grown [.enter { name := "f" } { function := "f" }, .call { caller := "f", callee := some "g" },
      .enter { name := "g" } { function := "g" }, .call { caller := "f", callee := some "g" }]
    g.sinks = ["g"] ∧ g.successors (.function "f") = [.sink "g", .function "g"] ∧
      g.incomingCalls (.function "g") = 1 := by decide

end CallGraph
end AsyncMigration
