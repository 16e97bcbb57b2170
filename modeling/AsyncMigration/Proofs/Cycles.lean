import AsyncMigration.Proofs.BackEdges
import AsyncMigration.Proofs.Likeness
import Mathlib.Data.List.Induction

/-!
# Walks and searches find the same cycles

A walk tells cycles by its back edges, a search by strong components. Both tell of the same ones: a
back edge lies within a cyclic component, and no cyclic component is without one, since the calls
that are no back edges do not lead round.

* `CallGraph.pairwise_cyclesOf`, `mem_cycles_iff` — a traversal lists the cyclic components below its
  root, in the order of their first visited members.
* `CallGraph.exists_component_of_mem_backEdges`, `exists_backEdge_of_cycleBelow` — back edges and
  cyclic components belong together.
* `Session.traversal_agrees` — so the walk and the aggregate of a root agree.
-/

namespace AsyncMigration
namespace CallGraph

variable {g : CallGraph} {root n m x y : Node} {c : List Node}

/-! ## Components of linked nodes -/

theorem component_eq_of_linked (h : g.Linked n m) :
    (g.aggregateOf n).component = (g.aggregateOf m).component := by
  have hn := g.aggregateOf_describes n
  have hm := g.aggregateOf_describes m
  refine eq_of_pairwise_text hn.ordered hm.ordered fun x => ?_
  rw [hn.member, hm.member]
  exact ⟨fun hx => h.symm.trans hx, fun hx => h.trans hx⟩

theorem mem_component (g : CallGraph) (n : Node) : n ∈ (g.aggregateOf n).component :=
  ((g.aggregateOf_describes n).member n).2 ⟨.refl g n, .refl g n⟩

theorem Linked.recurs_congr (h : g.Linked n m) (hn : g.Recurs n) : g.Recurs m :=
  (Relation.TransGen.trans_right h.2 hn).trans_left h.1

/-! ## The list of cyclic components -/

theorem cyclesOf_append (ns ms : List Node) (found : List (List Node)) :
    g.cyclesOf (ns ++ ms) found = g.cyclesOf ms (g.cyclesOf ns found) := by
  induction ns generalizing found with
  | nil => rfl
  | cons n ns ih => exact ih _

theorem nodup_cyclesOf (ns : List Node) {found : List (List Node)} (hfound : found.Nodup) :
    (g.cyclesOf ns found).Nodup := by
  induction ns generalizing found with
  | nil => exact hfound
  | cons n ns ih =>
    unfold cyclesOf
    refine ih ?_
    split
    · next hnew =>
      have hnot : (g.aggregateOf n).component ∉ found := by
        simp only [Bool.and_eq_true, Bool.not_eq_true', List.contains_eq_mem,
          decide_eq_false_iff_not] at hnew
        exact hnew.2
      exact List.nodup_append.2 ⟨hfound, List.nodup_singleton _, by grind⟩
    · exact hfound

/-- Of a component that is listed some member has been passed. -/
theorem findIdx_lt_of_mem_cyclesOf {ns : List Node} (hc : c ∈ g.cyclesOf ns []) :
    ns.findIdx c.contains < ns.length := by
  rcases (mem_cyclesOf_iff ns []).1 hc with hnil | ⟨n, hn, -, rfl⟩
  · cases hnil
  · exact List.findIdx_lt_length_of_exists ⟨n, hn, by simpa using g.mem_component n⟩

/-- Of a component that is new no member has been passed. -/
theorem findIdx_eq_of_not_mem_cyclesOf {ns : List Node} (hcyclic : (g.aggregateOf n).cyclic = true)
    (hnew : (g.aggregateOf n).component ∉ g.cyclesOf ns []) :
    (ns ++ [n]).findIdx (g.aggregateOf n).component.contains = ns.length := by
  have hn := g.aggregateOf_describes n
  have hnone : ∀ m ∈ ns, (g.aggregateOf n).component.contains m = false := by
    intro m hm
    by_contra hmem
    have hlinked : g.Linked n m := (hn.member m).1 (by simpa using hmem)
    have hrecurs := hlinked.recurs_congr (hn.cyclic.1 hcyclic)
    refine hnew ((mem_cyclesOf_iff ns []).2 (Or.inr ⟨m, hm, ?_, ?_⟩))
    · exact (g.aggregateOf_describes m).cyclic.2 hrecurs
    · exact (component_eq_of_linked hlinked).symm
  rw [List.findIdx_append, List.findIdx_eq_length_of_false hnone]
  simp [List.findIdx_cons, g.mem_component n]

theorem pairwise_cyclesOf (g : CallGraph) (ns : List Node) :
    (g.cyclesOf ns []).Pairwise fun c d => ns.findIdx c.contains < ns.findIdx d.contains := by
  induction ns using List.reverseRecOn with
  | nil => exact .nil
  | append_singleton ns n ih =>
    have hkeep : ∀ c ∈ g.cyclesOf ns [],
        (ns ++ [n]).findIdx c.contains = ns.findIdx c.contains := by
      intro c hc
      rw [List.findIdx_append, if_pos (findIdx_lt_of_mem_cyclesOf hc)]
    have hold : (g.cyclesOf ns []).Pairwise
        fun c d => (ns ++ [n]).findIdx c.contains < (ns ++ [n]).findIdx d.contains := by
      refine ih.imp_of_mem fun hc hd hlt => ?_
      rw [hkeep _ hc, hkeep _ hd]
      exact hlt
    rw [cyclesOf_append]
    unfold cyclesOf cyclesOf
    -- the last node adds its component only if none of its members has been passed
    split
    · next hnew =>
      simp only [Bool.and_eq_true, Bool.not_eq_true', List.contains_eq_mem,
        decide_eq_false_iff_not] at hnew
      refine List.pairwise_append.2 ⟨hold, List.pairwise_singleton _ _, fun c hc d hd => ?_⟩
      rw [List.mem_singleton.1 hd, findIdx_eq_of_not_mem_cyclesOf hnew.1 hnew.2, hkeep c hc]
      exact findIdx_lt_of_mem_cyclesOf hc
    · exact hold

/-! ## Cycles below a root -/

/-- A list is a strong component of what a root reaches, with a way round in it, in the order of the
texts. -/
def CycleBelow (g : CallGraph) (root : Node) (c : List Node) : Prop :=
  c.Pairwise (fun x y => x.text < y.text) ∧
    ∃ n, g.Reaches root n ∧ Relation.TransGen (g.CallsBelow root) n n ∧
      ∀ m, m ∈ c ↔ Relation.ReflTransGen (g.CallsBelow root) n m ∧
        Relation.ReflTransGen (g.CallsBelow root) m n

theorem linked_below_iff (hn : g.Reaches root n) :
    (Relation.ReflTransGen (g.CallsBelow root) n m ∧ Relation.ReflTransGen (g.CallsBelow root) m n) ↔
      g.Linked n m := by
  rw [reflTransGen_callsBelow_iff hn]
  exact and_congr_right fun hnm => reflTransGen_callsBelow_iff (hn.trans hnm)

theorem cycleBelow_iff : g.CycleBelow root c ↔
    ∃ n, g.Reaches root n ∧ g.Recurs n ∧ (g.aggregateOf n).component = c := by
  constructor
  · rintro ⟨hordered, n, hn, hround, hmem⟩
    have hdesc := g.aggregateOf_describes n
    refine ⟨n, hn, (transGen_callsBelow_iff hn).1 hround, ?_⟩
    refine eq_of_pairwise_text hdesc.ordered hordered fun m => ?_
    rw [hdesc.member, hmem, linked_below_iff hn]
  · rintro ⟨n, hn, hround, rfl⟩
    have hdesc := g.aggregateOf_describes n
    refine ⟨hdesc.ordered, n, hn, (transGen_callsBelow_iff hn).2 hround, fun m => ?_⟩
    rw [hdesc.member, linked_below_iff hn]

theorem mem_cycles_iff : c ∈ (g.traversalOf root).cycles ↔ g.CycleBelow root c := by
  unfold traversalOf
  simp only [mem_cyclesOf_iff, List.not_mem_nil, false_or, Traversal.mem_visited, cycleBelow_iff,
    (g.aggregateOf_describes _).cyclic]

theorem exists_component_of_mem_backEdges (h : (x, y) ∈ (Traversal.walk g root).backEdges) :
    ∃ c, g.CycleBelow root c ∧ x ∈ c ∧ y ∈ c := by
  obtain ⟨⟨hx, hcall⟩, hyx⟩ := Traversal.of_mem_backEdges h
  have hxy : g.Reaches x y := (Reaches.refl g x).call hcall
  refine ⟨_, cycleBelow_iff.2 ⟨x, hx, recurs_iff.2 ⟨y, hcall, hyx⟩, rfl⟩, g.mem_component x, ?_⟩
  exact ((g.aggregateOf_describes x).member y).2 ⟨hxy, hyx⟩

/-- A way round stays in its component. -/
theorem transGen_within {R : Node → Node → Prop} (hn : g.Recurs n)
    (hR : ∀ x y, g.Linked n x → g.Linked n y → g.Calls x y → R x y) : Relation.TransGen R n n := by
  have hway : ∀ z, Relation.TransGen g.Calls n z → g.Reaches z n → Relation.TransGen R n z := by
    intro z hz
    induction hz with
    | single hcall =>
      intro hback
      exact .single (hR _ _ ⟨.refl g n, .refl g n⟩ ⟨(Reaches.refl g n).call hcall, hback⟩ hcall)
    | @tail x y hx hcall ih =>
      intro hback
      have hxn : g.Reaches x n := ((Reaches.refl g x).call hcall).trans hback
      have hnx : g.Reaches n x := hx.to_reflTransGen
      exact (ih hxn).tail (hR _ _ ⟨hnx, hxn⟩ ⟨hnx.call hcall, hback⟩ hcall)
  exact hway n hn (.refl g n)

theorem exists_backEdge_of_cycleBelow (h : g.CycleBelow root c) :
    ∃ x ∈ c, ∃ y ∈ c, (x, y) ∈ (Traversal.walk g root).backEdges := by
  obtain ⟨n, hn, hround, rfl⟩ := cycleBelow_iff.1 h
  have hmem := (g.aggregateOf_describes n).member
  -- otherwise a way round the component would lead over calls that are no back edges
  by_contra hno
  refine Traversal.acyclic g root n (transGen_within hround fun x y hx hy hcall => ?_)
  refine ⟨⟨hn.trans hx.1, hcall⟩, fun hback => hno ?_⟩
  exact ⟨x, (hmem x).2 hx, y, (hmem y).2 hy, hback⟩

/-! ## Sinks -/

theorem nodup_externalSinks (g : CallGraph) (root : Node) :
    (Traversal.walk g root).externalSinks.Nodup := by
  refine List.Nodup.filterMap ?_ (Traversal.nodup_visited g root)
  intro a b name ha hb
  cases a <;> cases b <;> simp_all [Node.sinkName?]

theorem mem_externalSinks_iff {name : String} :
    name ∈ (Traversal.walk g root).externalSinks ↔ g.Reaches root (.sink name) :=
  Traversal.mem_externalSinks.trans Traversal.mem_visited

/-- The sinks that a function reaches are those that its aggregate names. -/
theorem externalSinks_perm (g : CallGraph) (name : String) :
    (Traversal.walk g (.function name)).externalSinks.Perm
      (g.aggregateOf (.function name)).below.sinks.names := by
  have hdesc := g.aggregateOf_describes (.function name)
  have hnodup : (g.aggregateOf (.function name)).below.sinks.names.Nodup := by
    refine List.Pairwise.imp ?_ hdesc.sinksOrdered
    rintro s t hlt rfl
    exact String.lt_irrefl s hlt
  refine (List.perm_ext_iff_of_nodup (g.nodup_externalSinks _) hnodup).2 fun s => ?_
  rw [mem_externalSinks_iff, hdesc.sinks]
  simp

end CallGraph

namespace Session

open Relation (TransGen)

/-- **Walks and aggregates agree.** Whatever has been asked before, a function has a traversal and an
aggregate. Among the calls below it those that are no back edges do not lead round. The traversal
lists the cyclic components below the function, each once, in the order of their first visited
members; a back edge lies within one of them, and each of them holds a back edge. The sinks of the
traversal are those of the aggregate, each once. -/
theorem traversal_agrees (g : CallGraph) (st : Settings) (log : List Event) (earlier : List Question)
    (root : String) :
    let s := (({ settings := st, graph := g, log } : Session).askAll earlier).2
    ∃ t a, (s.ask (traverse (.function root))).1 = .ok t ∧
      (s.ask (aggregate (.function root))).1 = .ok a ∧
      (∀ n, ¬ TransGen (fun x y => g.CallsBelow (.function root) x y ∧ (x, y) ∉ t.backEdges) n n) ∧
      (∀ c, c ∈ t.cycles ↔ g.CycleBelow (.function root) c) ∧ t.cycles.Nodup ∧
      t.cycles.Pairwise
        (fun c d => t.visited.findIdx c.contains < t.visited.findIdx d.contains) ∧
      (∀ x y, (x, y) ∈ t.backEdges →
        g.CallsBelow (.function root) x y ∧ ∃ c ∈ t.cycles, x ∈ c ∧ y ∈ c) ∧
      (∀ c ∈ t.cycles, ∃ x ∈ c, ∃ y ∈ c, (x, y) ∈ t.backEdges) ∧
      t.externalSinks.Nodup ∧ t.externalSinks.Perm a.below.sinks.names := by
  intro s
  have hs : s.Faithful g st := (askAll_spec (faithful_fresh g st log) earlier).2
  refine ⟨g.traversalOf (.function root), g.aggregateOf (.function root), (gives_traverse _ s hs).1,
    (gives_aggregate _ s hs).1, Traversal.acyclic g _, fun c => CallGraph.mem_cycles_iff,
    CallGraph.nodup_cyclesOf _ List.nodup_nil, g.pairwise_cyclesOf _, fun x y hxy => ?_,
    fun c hc => ?_, g.nodup_externalSinks _, g.externalSinks_perm root⟩
  · obtain ⟨c, hc, hx, hy⟩ := CallGraph.exists_component_of_mem_backEdges hxy
    exact ⟨(Traversal.of_mem_backEdges hxy).1, c, CallGraph.mem_cycles_iff.2 hc, hx, hy⟩
  · exact CallGraph.exists_backEdge_of_cycleBelow (CallGraph.mem_cycles_iff.1 hc)

end Session
end AsyncMigration
