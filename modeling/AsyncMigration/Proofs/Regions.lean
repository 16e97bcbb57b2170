import AsyncMigration.Proofs.Likeness

/-!
# Graphs that agree on a region

A region is a set of nodes that no call leaves. What is said of a node hangs on what the node
reaches, so on a region on which two graphs agree they give the same answers, whatever else they
hold. The walks are the same step by step, since the calls are met in the same order.

* `CallGraph.SameWays.summaryOf` — the constraints of a node are the same.
* `CallGraph.SameWays.traversalOf` — so is the walk from a root.
* `CallGraph.SameWays.rootOf` — so is the answer for a root, if the reports on functions are.
* `CallGraph.AgreeOn.reportOf` — so is the report on a function, if the decision is.
-/

namespace AsyncMigration

namespace CallGraph

/-- Two graphs have the same ways in a region: there a node calls the same nodes in the same order and
has the same constraints. -/
structure SameWays (P : Node → Prop) (g g' : CallGraph) : Prop where
  closed : ∀ a, P a → ∀ c ∈ g.successors a, P c
  successors : ∀ a, P a → g.successors a = g'.successors a
  ownConstraints : ∀ a, P a → g.ownConstraints a = g'.ownConstraints a

/-- Two graphs agree on a region: they have the same ways in it, and a node takes part in the same
number of calls. -/
structure AgreeOn (P : Node → Prop) (g g' : CallGraph) : Prop extends SameWays P g g' where
  callSiteCount : ∀ a, P a → g.callSiteCount a = g'.callSiteCount a

/-- The constraints of a node are those of its signature. -/
theorem ownConstraints_congr {g g' : CallGraph} {a : Node}
    (h : (g.entry? a).map (·.signature) = (g'.entry? a).map (·.signature)) :
    g.ownConstraints a = g'.ownConstraints a := by
  cases a with
  | sink name => rfl
  | function name =>
    have h := congrArg (fun x => (x.map Signature.constraints).getD {}) h
    simp only [CallGraph.entry?, Option.map_map] at h
    exact h

/-- Graphs agree where they have the same calls, the same counts and the same signatures. -/
theorem AgreeOn.of_outEdges {P : Node → Prop} {g g' : CallGraph}
    (hclosed : ∀ a, P a → ∀ c ∈ g.successors a, P c)
    (hout : ∀ a, P a → g.outEdges a = g'.outEdges a)
    (hin : ∀ a, P a → g.incomingCalls a = g'.incomingCalls a)
    (hsignature : ∀ a, P a → (g.entry? a).map (·.signature) = (g'.entry? a).map (·.signature)) :
    AgreeOn P g g' where
  closed := hclosed
  successors a ha := by
    unfold CallGraph.successors
    rw [hout a ha]
  ownConstraints a ha := ownConstraints_congr (hsignature a ha)
  callSiteCount a ha := by
    unfold CallGraph.callSiteCount CallGraph.outgoingCalls
    rw [hout a ha, hin a ha]

namespace SameWays

variable {P : Node → Prop} {g g' : CallGraph} {a b n root : Node} {st : Settings}

theorem symm (h : SameWays P g g') : SameWays P g' g where
  closed a ha c hc := h.closed a ha c (h.successors a ha ▸ hc)
  successors a ha := (h.successors a ha).symm
  ownConstraints a ha := (h.ownConstraints a ha).symm

/-! ## Reaching -/

theorem mem_of_reaches (h : SameWays P g g') (ha : P a) (hab : g.Reaches a b) : P b :=
  hab.mem_of_closed h.closed ha

theorem reaches (h : SameWays P g g') (ha : P a) (hab : g.Reaches a b) : g'.Reaches a b := by
  induction hab with
  | refl => exact .refl g' a
  | @tail b c hab hcall ih =>
    refine ih.call ?_
    rw [← h.successors b (h.mem_of_reaches ha hab)]
    exact hcall

theorem linked (h : SameWays P g g') (ha : P a) (hab : g.Linked a b) : g'.Linked a b :=
  ⟨h.reaches ha hab.1, h.reaches (h.mem_of_reaches ha hab.1) hab.2⟩

theorem recurs_iff (h : SameWays P g g') (ha : P a) : g.Recurs a ↔ g'.Recurs a := by
  rw [CallGraph.recurs_iff, CallGraph.recurs_iff, ← h.successors a ha]
  constructor
  · rintro ⟨c, hc, hca⟩
    exact ⟨c, hc, h.reaches (h.closed a ha c hc) hca⟩
  · rintro ⟨c, hc, hca⟩
    exact ⟨c, hc, h.symm.reaches (h.closed a ha c hc) hca⟩

/-! ## Aggregates -/

theorem component (h : SameWays P g g') (ha : P a) :
    (g.aggregateOf a).component = (g'.aggregateOf a).component := by
  have hg := g.aggregateOf_describes a
  have hg' := g'.aggregateOf_describes a
  apply eq_of_pairwise_text hg.ordered hg'.ordered
  intro m
  rw [hg.member, hg'.member]
  exact ⟨h.linked ha, h.symm.linked ha⟩

theorem cyclic (h : SameWays P g g') (ha : P a) :
    (g.aggregateOf a).cyclic = (g'.aggregateOf a).cyclic := by
  rw [Bool.eq_iff_iff, (g.aggregateOf_describes a).cyclic, (g'.aggregateOf_describes a).cyclic]
  exact h.recurs_iff ha

/-- A trait is found below a node in both graphs, if the nodes of the region bring it in both. -/
theorem below_has_iff (h : SameWays P g g') (ha : P a) {τ : Trait}
    (hown : ∀ m, P m → ((Burden.own g m).Has τ ↔ (Burden.own g' m).Has τ)) :
    (g.aggregateOf a).below.Has τ ↔ (g'.aggregateOf a).below.Has τ := by
  rw [(g.aggregateOf_describes a).below, (g'.aggregateOf_describes a).below]
  constructor
  · rintro ⟨m, hne, hreach, hm⟩
    exact ⟨m, hne, h.reaches ha hreach, (hown m (h.mem_of_reaches ha hreach)).1 hm⟩
  · rintro ⟨m, hne, hreach, hm⟩
    exact ⟨m, hne, h.symm.reaches ha hreach, (hown m (h.symm.mem_of_reaches ha hreach)).2 hm⟩

theorem belowConstraints (h : SameWays P g g') (ha : P a) :
    (g.aggregateOf a).below.constraints = (g'.aggregateOf a).below.constraints := by
  apply ConstraintSet.ext_of_contains
  intro c
  refine Bool.eq_iff_iff.2 (h.below_has_iff ha (τ := .constraint c) fun m hm => ?_)
  simp only [Burden.own, Burden.Has, h.ownConstraints m hm]

theorem belowSinks (h : SameWays P g g') (ha : P a) :
    (g.aggregateOf a).below.sinks = (g'.aggregateOf a).below.sinks := by
  apply NameSet.ext_of_pairwise (g.aggregateOf_describes a).sinksOrdered
    (g'.aggregateOf_describes a).sinksOrdered
  intro s
  refine h.below_has_iff ha (τ := .sink s) fun m _ => ?_
  rw [Burden.own_has_sink, Burden.own_has_sink]

/-- The constraints of a node are the same; what patterns are met below it may differ. -/
theorem summaryOf (h : SameWays P g g') (ha : P a) : g.summaryOf a = g'.summaryOf a := by
  unfold CallGraph.summaryOf ConstraintSummary.ofAggregate
  rw [h.ownConstraints a ha, h.belowConstraints ha, h.belowSinks ha, h.cyclic ha, h.component ha]

end SameWays
end CallGraph

/-! ## Walks -/

/-- What can be seen of a frame without its graph. -/
def Frame.outline {g : CallGraph} (f : Frame g) : Node × List Node := (f.node, f.pending)

namespace Walk

variable {P : Node → Prop} {g g' : CallGraph} {w : Walk g} {w' : Walk g'} {f : Frame g}
  {fs : List (Frame g)} {c root : Node}

/-- Two walks have got equally far, and what is pending lies in the region. -/
structure Matches (P : Node → Prop) (w : Walk g) (w' : Walk g') : Prop where
  visits : w.visits = w'.visits
  backEdges : w.backEdges = w'.backEdges
  frames : w.frames.map Frame.outline = w'.frames.map Frame.outline
  inside : ∀ n c, Frame.Pending w.frames n c → P c

theorem onWay_eq (w : Walk g) (c : Node) :
    w.onWay c = (w.frames.map Frame.outline).any (·.1 = c) := by
  rw [List.any_map]
  rfl

theorem Matches.hasVisited (h : Matches P w w') (c : Node) : w.hasVisited c = w'.hasVisited c := by
  unfold Walk.hasVisited
  rw [h.visits]

theorem Matches.onWay (h : Matches P w w') (c : Node) : w.onWay c = w'.onWay c := by
  rw [onWay_eq, onWay_eq, h.frames]

theorem Matches.length_frames (h : Matches P w w') : w.frames.length = w'.frames.length := by
  have := congrArg List.length h.frames
  simpa using this

/-- Visiting a node of the region opens the same calls. -/
theorem Matches.visit (h : Matches P w w') (hg : CallGraph.SameWays P g g') (hc : P c) :
    Matches P (w.visit c) (w'.visit c) where
  visits := by simp only [Walk.visit, h.visits, h.length_frames]
  backEdges := h.backEdges
  frames := by simp [Walk.visit, Frame.enter, Frame.outline, hg.successors c hc, ← h.frames]
  inside n x hx := by
    rcases (Frame.pending_iff rfl).1 hx with ⟨-, hx⟩ | hx
    · exact hg.closed c hc x hx
    · exact h.inside n x hx

theorem Matches.examine (h : Matches P w w') (hg : CallGraph.SameWays P g g') {f' : Frame g'}
    {fs' : List (Frame g')} {cs : List Node} (hw : w.frames = f :: fs) (hw' : w'.frames = f' :: fs')
    (hf : f.pending = c :: cs) : Matches P (w.examine f fs c) (w'.examine f' fs' c) := by
  have hframes := h.frames
  rw [hw, hw', List.map_cons, List.map_cons, List.cons.injEq] at hframes
  obtain ⟨hout, hrest⟩ := hframes
  have hnode : f.node = f'.node := congrArg Prod.fst hout
  have hpending : f.pending = f'.pending := congrArg Prod.snd hout
  have hc : P c := h.inside f.node c (Frame.pending_head hw hf)
  -- both walks take the call from their innermost frames first
  have hadv : Matches P ({ w with frames := f.advance :: fs } : Walk g)
      ({ w' with frames := f'.advance :: fs' } : Walk g') := by
    refine ⟨h.visits, h.backEdges, ?_, fun n x hx => ?_⟩
    · simp [Frame.outline, Frame.advance, hnode, hpending, ← hrest]
    · exact h.inside n x ((Frame.pending_advance hw hf).1 (Or.inl hx))
  unfold Walk.examine
  simp only [hadv.onWay c, hadv.hasVisited c]
  split
  · exact { hadv with backEdges := by simp only [hnode, h.backEdges] }
  · split
    · exact hadv
    · exact hadv.visit hg hc

theorem Matches.step (h : Matches P w w') (hg : CallGraph.SameWays P g g') (hw : w.frames = f :: fs) :
    ∃ f' fs', w'.frames = f' :: fs' ∧ Matches P (w.step f fs) (w'.step f' fs') := by
  have hframes := h.frames
  rw [hw, List.map_cons] at hframes
  obtain ⟨f', fs', hw', hout, hrest⟩ := List.map_eq_cons_iff.1 hframes.symm
  have hpending : f'.pending = f.pending := congrArg Prod.snd hout
  refine ⟨f', fs', hw', ?_⟩
  unfold Walk.step
  rw [hpending]
  cases hf : f.pending with
  | cons c cs => exact h.examine hg hw hw' hf
  | nil =>
    refine ⟨h.visits, h.backEdges, hrest.symm, fun n x hx => ?_⟩
    exact h.inside n x ((Frame.pending_iff hw).2 (Or.inr hx))

/-- Walks that have got equally far end alike. -/
theorem Matches.run (h : Matches P w w') (hg : CallGraph.SameWays P g g') : Matches P w.run w'.run := by
  induction w using Walk.run.induct generalizing w' with
  | case1 w hw =>
    have hw' : w'.frames = [] := by
      have hframes := h.frames
      rw [hw] at hframes
      exact List.map_eq_nil_iff.1 hframes.symm
    rw [run_nil hw, run_nil hw']
    exact h
  | case2 w f fs hw ih =>
    obtain ⟨f', fs', hw', hstep⟩ := h.step hg hw
    rw [run_cons hw, run_cons hw']
    exact ih hstep

theorem matches_start (hg : CallGraph.SameWays P g g') (hroot : P root) :
    Matches P (Walk.start g root) (Walk.start g' root) := by
  have hidle : Matches P (⟨[], [], []⟩ : Walk g) (⟨[], [], []⟩ : Walk g') := by
    refine ⟨rfl, rfl, rfl, ?_⟩
    simp [Frame.Pending]
  exact hidle.visit hg hroot

end Walk

/-! ## Answers -/

theorem mapM_congr {α β ε : Type} {f f' : α → Except ε β} {l : List α} (h : ∀ a ∈ l, f a = f' a) :
    l.mapM f = l.mapM f' := by
  induction l with
  | nil => rfl
  | cons a l ih =>
    rw [List.mapM_cons, List.mapM_cons, h a List.mem_cons_self,
      ih fun x hx => h x (List.mem_cons_of_mem _ hx)]

namespace CallGraph

/-- What a function wraps is named by a suspension in it, or called by it. -/
theorem exists_of_wrappedCallee? {g : CallGraph} {e : CatalogEntry} {callee : String}
    (h : g.wrappedCallee? e = some callee) :
    (∃ p ∈ e.scan.patterns, p.kind.isSuspension = true ∧ p.callee = some callee) ∨
      .function callee ∈ g.successors (.function e.name) := by
  obtain ⟨p, hp, h⟩ := Option.bind_eq_some_iff.1 h
  split at h
  · next c hc =>
    obtain rfl : c = callee := Option.some.inj h
    unfold CatalogEntry.soleSuspension? at hp
    split at hp
    · next q hq =>
      split at hp
      · next hkind =>
        obtain rfl : q = p := Option.some.inj hp
        have hmem : q ∈ e.scan.migrationPatterns := hq ▸ List.mem_cons_self
        exact Or.inl ⟨q, (List.mem_filter.1 hmem).1, hkind, hc⟩
      · cases hp
    · cases hp
  · split at h
    · next c hc =>
      obtain rfl : c = callee := Option.some.inj h
      have hmem : c ∈ g.resolvedCallees (.function e.name) := hc ▸ List.mem_cons_self
      exact Or.inr (mem_resolvedCallees_iff.1 hmem)
    · cases h

/-- Whether a function is a redundant wrapper hangs on its calls and on the entry of what it wraps. -/
theorem isRedundantWrapper_congr {g g' : CallGraph} {e : CatalogEntry}
    (hcalls : g.successors (.function e.name) = g'.successors (.function e.name))
    (hget : ∀ callee, g.wrappedCallee? e = some callee →
      g.catalog.get? callee = g'.catalog.get? callee) :
    g.isRedundantWrapper e = g'.isRedundantWrapper e := by
  have hwrapped : g.wrappedCallee? e = g'.wrappedCallee? e := by
    unfold wrappedCallee? resolvedCallees
    rw [hcalls]
  unfold isRedundantWrapper
  rw [← hwrapped]
  cases h : g.wrappedCallee? e with
  | none => rfl
  | some callee => simp only [hget callee h]

namespace SameWays

variable {P : Node → Prop} {g g' : CallGraph} {n root : Node} {st : Settings}

/-- Walks from a root of the region are the same. -/
theorem walk (h : SameWays P g g') (hroot : P root) :
    Traversal.walk g root = Traversal.walk g' root := by
  have hmatch := (Walk.matches_start h hroot).run h
  simp only [Traversal.walk, hmatch.visits, hmatch.backEdges]

theorem cyclesOf (h : SameWays P g g') (ns : List Node) (hns : ∀ n ∈ ns, P n)
    (found : List (List Node)) : g.cyclesOf ns found = g'.cyclesOf ns found := by
  induction ns generalizing found with
  | nil => rfl
  | cons n ns ih =>
    have hn : P n := hns n List.mem_cons_self
    unfold CallGraph.cyclesOf
    rw [h.cyclic hn, h.component hn]
    exact ih (fun x hx => hns x (List.mem_cons_of_mem _ hx)) _

theorem traversalOf (h : SameWays P g g') (hroot : P root) :
    g.traversalOf root = g'.traversalOf root := by
  have hvisited : ∀ n ∈ (Traversal.walk g root).visited, P n := fun n hn =>
    h.mem_of_reaches hroot (Traversal.mem_visited.1 hn)
  unfold CallGraph.traversalOf
  rw [← h.walk hroot, h.cyclesOf _ hvisited]

/-- The category does not hang on whether a function is a redundant wrapper. -/
theorem category (h : SameWays P g g') (hn : P n) (wrapped : NameSet) (e : CatalogEntry) :
    (g.decisionOn wrapped e n).category = (g'.decisionOn wrapped e n).category := by
  unfold CallGraph.decisionOn
  cases e.scan.failure with
  | some failure => rfl
  | none =>
    rw [h.summaryOf hn]
    rfl

/-- Decisions are the same if a function is a redundant wrapper in both graphs or in neither. -/
theorem decisionOn_of_redundant (h : SameWays P g g') (hn : P n) (wrapped : NameSet) (e : CatalogEntry)
    (hredundant : g.isRedundantWrapper e = g'.isRedundantWrapper e) :
    g.decisionOn wrapped e n = g'.decisionOn wrapped e n := by
  unfold CallGraph.decisionOn
  cases e.scan.failure with
  | some failure => rfl
  | none => simp only [decideScanned, h.summaryOf hn, hredundant]

/-- Decisions are the same if they agree on whether a function is a redundant wrapper. -/
theorem decisionOn (h : SameWays P g g') (hn : P n) (wrapped : NameSet) (e : CatalogEntry)
    (hflag : (g.decisionOn wrapped e n).redundantWrapper
      = (g'.decisionOn wrapped e n).redundantWrapper) :
    g.decisionOn wrapped e n = g'.decisionOn wrapped e n := by
  cases hf : e.scan.failure with
  | some failure => simp only [CallGraph.decisionOn, hf]
  | none =>
    simp only [CallGraph.decisionOn, hf] at hflag
    exact h.decisionOn_of_redundant hn wrapped e hflag

/-- Reports on a function that has the same entry are the same if the decisions and the numbers of calls
are. -/
theorem reportOf_of_count (h : SameWays P g g') (hn : P n) (he : g.entry? n = g'.entry? n)
    (hdecision : ∀ e, g.entry? n = some e →
      g.decisionOn st.wrappedSinks e n = g'.decisionOn st.wrappedSinks e n)
    (hcount : ∀ e, g.entry? n = some e → g.callSiteCount n = g'.callSiteCount n) :
    g.reportOf st n = g'.reportOf st n := by
  unfold CallGraph.reportOf
  rw [← he]
  cases hentry : g.entry? n with
  | none => rfl
  | some e =>
    simp only [priorityOf, reportOn, hdecision e hentry, hcount e hentry, h.summaryOf hn]

/-- The answer for a root is the same if all over the region the same nodes have entries, and the
reports are the same. -/
theorem rootOf {name : String} (h : SameWays P g g') (hroot : P (.function name))
    (hentry : ∀ n, P n → (g.entry? n).isSome = (g'.entry? n).isSome)
    (hreport : ∀ n, P n → g.reportOf st n = g'.reportOf st n) :
    g.rootOf st name = g'.rootOf st name := by
  have hvisited : ∀ n ∈ (g'.traversalOf (.function name)).visited, P n := fun n hn =>
    h.symm.mem_of_reaches hroot (Traversal.mem_visited.1 hn)
  have hknown : g.catalog.contains name = g'.catalog.contains name := hentry _ hroot
  have hreached : (g'.traversalOf (.function name)).visited.tail.filter (fun n => (g.entry? n).isSome)
      = (g'.traversalOf (.function name)).visited.tail.filter fun n => (g'.entry? n).isSome := by
    apply List.filter_congr
    intro n hn
    rw [hentry n (hvisited n (List.mem_of_mem_tail hn))]
  unfold CallGraph.rootOf
  rw [hknown, hreport _ hroot, h.traversalOf hroot, hreached]
  split
  · rw [mapM_congr fun n hn => hreport n
      (hvisited n (List.mem_of_mem_tail (List.mem_filter.1 hn).1))]
  · rfl

end SameWays

/-- Reports on a function that has the same entry are the same if the decisions are. -/
theorem AgreeOn.reportOf {P : Node → Prop} {g g' : CallGraph} {n : Node} {st : Settings}
    (h : AgreeOn P g g') (hn : P n) (he : g.entry? n = g'.entry? n)
    (hdecision : ∀ e, g.entry? n = some e →
      g.decisionOn st.wrappedSinks e n = g'.decisionOn st.wrappedSinks e n) :
    g.reportOf st n = g'.reportOf st n :=
  h.reportOf_of_count hn he hdecision fun _ _ => h.callSiteCount n hn

end CallGraph
end AsyncMigration
