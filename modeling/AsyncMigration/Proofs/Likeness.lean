import AsyncMigration.Proofs.History

/-!
# Graphs that are alike

Two graphs with the same entries and the same calls give the same answers, in whatever order the
calls were added and however often.

* `CallGraph.Alike.aggregateOf`, `summaryOf`, `decisionOn` — what is said of a node is the same.
* `CallGraph.Alike.reportOf` — so is the report, if the numbers of calls agree.
* `CallGraph.Alike.visited`, `cycles` — walks agree as sets.
-/

namespace AsyncMigration

theorem nodup_eraseDups {α : Type} [DecidableEq α] (l : List α) : l.eraseDups.Nodup := by
  match l with
  | [] => exact List.nodup_nil
  | a :: as =>
    rw [List.eraseDups_cons, List.nodup_cons]
    refine ⟨?_, nodup_eraseDups _⟩
    simp [List.mem_eraseDups]
termination_by l.length
decreasing_by exact Nat.lt_succ_of_le (List.length_filter_le _ _)

namespace CallGraph

variable {g g' : CallGraph} {st : Settings} {n root : Node}

/-- Two graphs have the same entries, and in both a node calls the same nodes. -/
structure Alike (g g' : CallGraph) : Prop where
  entries : ∀ n, g.entry? n = g'.entry? n
  calls : ∀ a b, g.Calls a b ↔ g'.Calls a b

/-- Distinct functions are called, each once. -/
theorem nodup_resolvedCallees (g : CallGraph) (n : Node) : (g.resolvedCallees n).Nodup := by
  unfold resolvedCallees successors
  refine List.Nodup.filterMap ?_ (nodup_eraseDups _)
  intro a b name ha hb
  cases a <;> cases b <;> simp_all [Node.functionName?]

theorem mem_resolvedCallees_iff {name : String} :
    name ∈ g.resolvedCallees n ↔ g.Calls n (.function name) := by
  unfold resolvedCallees Calls
  rw [List.mem_filterMap]
  constructor
  · rintro ⟨c, hc, hname⟩
    cases c <;> simp_all [Node.functionName?]
  · intro h
    exact ⟨_, h, rfl⟩

theorem mem_cyclesOf_iff {c : List Node} (ns : List Node) (found : List (List Node)) :
    c ∈ g.cyclesOf ns found ↔
      c ∈ found ∨ ∃ n ∈ ns, (g.aggregateOf n).cyclic = true ∧ (g.aggregateOf n).component = c := by
  induction ns generalizing found with
  | nil => simp [cyclesOf]
  | cons n ns ih =>
    unfold cyclesOf
    rw [ih, List.exists_mem_cons_iff, ← or_assoc]
    refine or_congr_left ?_
    split <;> grind

namespace Alike

variable (h : g.Alike g')

include h

theorem get? (name : String) : g.catalog.get? name = g'.catalog.get? name :=
  h.entries (.function name)

theorem reaches : g.Reaches = g'.Reaches := by
  have hcalls : g.Calls = g'.Calls := funext fun a => funext fun b => propext (h.calls a b)
  unfold Reaches
  rw [hcalls]

theorem ownConstraints (n : Node) : g.ownConstraints n = g'.ownConstraints n := by
  cases n with
  | sink name => rfl
  | function name =>
    unfold CallGraph.ownConstraints
    simp only [h.get?]

theorem own (n : Node) : Burden.own g n = Burden.own g' n := by
  unfold Burden.own ownKinds
  rw [h.ownConstraints, h.entries]

theorem aggregateOf (n : Node) : g.aggregateOf n = g'.aggregateOf n := by
  refine (aggregateOf_eq ?_).symm
  exact (g.aggregateOf_describes n).congr h.calls fun m t => by rw [h.own]

theorem summaryOf (n : Node) : g.summaryOf n = g'.summaryOf n := by
  unfold CallGraph.summaryOf
  rw [h.ownConstraints, h.aggregateOf]

/-- The only function called, if there is one only, does not hang on the order of calls. -/
theorem resolvedCallees (n : Node) : (g.resolvedCallees n).Perm (g'.resolvedCallees n) := by
  refine (List.perm_ext_iff_of_nodup (g.nodup_resolvedCallees n) (g'.nodup_resolvedCallees n)).2 ?_
  intro name
  rw [mem_resolvedCallees_iff, mem_resolvedCallees_iff, h.calls]

theorem wrappedCallee? (e : CatalogEntry) : g.wrappedCallee? e = g'.wrappedCallee? e := by
  have hperm := h.resolvedCallees (.function e.name)
  unfold CallGraph.wrappedCallee?
  cases e.soleSuspension? with
  | none => rfl
  | some p =>
    cases hcallee : p.callee with
    | some callee => simp [hcallee]
    | none =>
      simp only [Option.bind_eq_bind, Option.bind_some, hcallee]
      split
      · next callee hone =>
        rw [hone] at hperm
        rw [← List.singleton_perm.1 hperm]
      · next hmany =>
        split
        · next callee hone =>
          rw [hone] at hperm
          exact absurd (List.perm_singleton.1 hperm) (hmany callee)
        · rfl

theorem isRedundantWrapper (e : CatalogEntry) : g.isRedundantWrapper e = g'.isRedundantWrapper e := by
  unfold CallGraph.isRedundantWrapper
  rw [h.wrappedCallee?]
  split
  · rfl
  · rw [h.get?]

theorem decisionOn (wrapped : NameSet) (e : CatalogEntry) (n : Node) :
    g.decisionOn wrapped e n = g'.decisionOn wrapped e n := by
  unfold CallGraph.decisionOn decideScanned
  rw [h.summaryOf, h.isRedundantWrapper]

/-- Reports agree if the numbers of calls do. -/
theorem reportOf (hcount : ∀ n, g.callSiteCount n = g'.callSiteCount n) (st : Settings) (n : Node) :
    g.reportOf st n = g'.reportOf st n := by
  unfold CallGraph.reportOf priorityOf reportOn
  simp only [h.entries, h.decisionOn, h.summaryOf, hcount]

theorem visited (root n : Node) :
    n ∈ (g.traversalOf root).visited ↔ n ∈ (g'.traversalOf root).visited := by
  show n ∈ (Traversal.walk g root).visited ↔ n ∈ (Traversal.walk g' root).visited
  rw [Traversal.mem_visited, Traversal.mem_visited, h.reaches]

theorem cycles (root : Node) (c : List Node) :
    c ∈ (g.traversalOf root).cycles ↔ c ∈ (g'.traversalOf root).cycles := by
  unfold traversalOf
  simp only [mem_cyclesOf_iff, Traversal.mem_visited, h.reaches, h.aggregateOf]

theorem externalSinks (root : Node) (name : String) :
    name ∈ (g.traversalOf root).externalSinks ↔ name ∈ (g'.traversalOf root).externalSinks := by
  unfold Traversal.externalSinks
  simp only [List.mem_filterMap, h.visited]

theorem contains (name : String) : g.catalog.contains name = g'.catalog.contains name := by
  unfold Catalog.contains
  rw [h.get?]

/-- A root that is answered in one graph is answered in the other, with the same failures. -/
theorem rootOf (hcount : ∀ n, g.callSiteCount n = g'.callSiteCount n) {root : String} {p : Result}
    (hp : g.rootOf st root = .ok p) :
    ∃ p', g'.rootOf st root = .ok p' ∧ p'.failures = p.failures := by
  unfold CallGraph.rootOf at hp ⊢
  rw [← h.contains]
  split
  · next hroot =>
    rw [if_pos hroot] at hp
    obtain ⟨f, hf, hp⟩ := bind_eq_ok.1 hp
    obtain ⟨ds, hds, hp⟩ := bind_eq_ok.1 hp
    cases hp
    have hreport := h.reportOf hcount st
    -- what is visited but the root itself is visited in the other walk, or is the root
    have hall : ∀ n ∈ (g'.traversalOf (.function root)).visited.tail.filter
        fun n => (g'.entry? n).isSome, ∃ r, g'.reportOf st n = .ok r := by
      intro n hn
      obtain ⟨hn, hentry⟩ := List.mem_filter.1 hn
      have hn := (h.visited _ n).2 (List.mem_of_mem_tail hn)
      obtain ⟨ns, hns, -⟩ := Traversal.visited_eq_cons g (.function root)
      have hvisited : (g.traversalOf (.function root)).visited = .function root :: ns := hns
      rw [hvisited] at hn hds
      rw [← hreport]
      rcases List.mem_cons.1 hn with rfl | hn
      · exact ⟨f, hf⟩
      · refine exists_ok_of_mapM hds (List.mem_filter.2 ⟨hn, ?_⟩)
        rw [h.entries]
        exact hentry
    obtain ⟨ds', hds'⟩ := exists_mapM_ok hall
    refine ⟨_, bind_eq_ok.2 ⟨f, hreport _ ▸ hf, bind_eq_ok.2 ⟨ds', hds', rfl⟩⟩, rfl⟩
  · next hroot =>
    rw [if_neg hroot] at hp
    exact ⟨p, hp, rfl⟩

theorem rootsOf (hcount : ∀ n, g.callSiteCount n = g'.callSiteCount n) {roots : List String}
    {parts : List Result} (hparts : List.Forall₂ (fun x p => g.rootOf st x = .ok p) roots parts) :
    ∃ parts', List.Forall₂ (fun x p => g'.rootOf st x = .ok p) roots parts' ∧
      parts'.flatMap (·.failures) = parts.flatMap (·.failures) := by
  induction hparts with
  | nil => exact ⟨[], .nil, rfl⟩
  | cons hp _ ih =>
    obtain ⟨p', hp', hfail⟩ := h.rootOf hcount hp
    obtain ⟨ps', hps', hfails⟩ := ih
    refine ⟨p' :: ps', .cons hp' hps', ?_⟩
    rw [List.flatMap_cons, List.flatMap_cons, hfail, hfails]

/-- An analysis that is answered in one graph is answered in the other; the failures agree if those
noted with the graphs do. -/
theorem resultOf (hcount : ∀ n, g.callSiteCount n = g'.callSiteCount n)
    (hnoted : (g.catalog.failures ++ g.failures).Perm (g'.catalog.failures ++ g'.failures))
    {roots : List String} {r : Result} (hr : g.resultOf st roots = .ok r) :
    ∃ r', g'.resultOf st roots = .ok r' ∧ r.failures.Perm r'.failures := by
  obtain ⟨parts, hparts, hr⟩ := bind_eq_ok.1 hr
  cases hr
  obtain ⟨parts', hforall, hfail⟩ := h.rootsOf hcount (mapM_eq_ok_iff.1 hparts)
  refine ⟨_, bind_eq_ok.2 ⟨parts', mapM_eq_ok_iff.2 hforall, rfl⟩, ?_⟩
  rw [hfail]
  exact hnoted.append_right _

end Alike
end CallGraph
end AsyncMigration
