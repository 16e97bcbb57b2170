import AsyncMigration.Proofs.Walks

/-!
# What walks call back edges

A walk leaves a node when all its callees have been examined. By then every call of the node that is
no back edge leads to a node that was left before, so the calls that are no back edges lead down
through the nodes left, and cannot come round again.

* `Traversal.nodup_visited` — a walk visits a node once.
* `Traversal.of_mem_backEdges` — a back edge is a call to a node that reaches its caller.
* `Traversal.acyclic` — without the back edges no way leads round.
-/

namespace AsyncMigration

namespace CallGraph

variable {g : CallGraph} {root a b : Node}

/-- A call made by a node that a root reaches. -/
def CallsBelow (g : CallGraph) (root a b : Node) : Prop := g.Reaches root a ∧ g.Calls a b

/-- Below a root the ways are those of the whole graph. -/
theorem reflTransGen_callsBelow_iff (ha : g.Reaches root a) :
    Relation.ReflTransGen (g.CallsBelow root) a b ↔ g.Reaches a b := by
  constructor
  · intro h
    exact Relation.ReflTransGen.mono (fun _ _ hcall => hcall.2) _ _ h
  · intro h
    induction h with
    | refl => exact .refl
    | tail hab hcall ih => exact ih.tail ⟨ha.trans hab, hcall⟩

theorem transGen_callsBelow_iff (ha : g.Reaches root a) :
    Relation.TransGen (g.CallsBelow root) a b ↔ Relation.TransGen g.Calls a b := by
  constructor
  · intro h
    exact Relation.TransGen.mono (fun _ _ hcall => hcall.2) _ _ h
  · intro h
    induction h with
    | single hcall => exact .single ⟨ha, hcall⟩
    | tail hab hcall ih => exact ih.tail ⟨ha.trans hab.to_reflTransGen, hcall⟩

end CallGraph

namespace Walk

variable {g : CallGraph} {root c n : Node} {w v : Walk g} {f : Frame g} {fs : List (Frame g)}
  {cs : List Node}

/-- The nodes on the way from the root, innermost first. -/
def way (w : Walk g) : List Node := w.frames.map (·.node)

/-- A call that has not been met as a back edge. -/
def Forward (w : Walk g) (a b : Node) : Prop := b ∈ g.successors a ∧ (a, b) ∉ w.backEdges

/-- What a walk has found out about the calls that it has examined. -/
structure Marked (w : Walk g) : Prop where
  once : (w.visits.map (·.1)).Nodup
  way_reach : w.way.Pairwise fun a b => g.Reaches b a
  back : ∀ a b, (a, b) ∈ w.backEdges → w.hasVisited a = true ∧ g.Calls a b ∧ g.Reaches b a
  /-- A call examined from the way is a back edge, or leads to a node off the way to its caller. -/
  examined : ∀ f fs, f :: fs <:+ w.frames → ∀ c ∈ g.successors f.node,
    c ∈ f.pending ∨ (f.node, c) ∈ w.backEdges ∨
      (w.hasVisited c = true ∧ c ∉ (f :: fs).map (·.node))
  /-- No endless way leads on from a node that has been left. -/
  left : ∀ n, w.hasVisited n = true → n ∉ w.way → Acc (fun y x => w.Forward x y) n

theorem onWay_iff : w.onWay n = true ↔ n ∈ w.way := by
  simp [onWay, way]

theorem way_cons (hw : w.frames = f :: fs) : w.way = f.node :: fs.map (·.node) := by
  simp [way, hw]

theorem way_advance (hw : w.frames = f :: fs) (hv : v.frames = f.advance :: fs) : v.way = w.way := by
  rw [way_cons hv, way_cons hw]
  rfl

theorem hasVisited_iff : w.hasVisited n = true ↔ n ∈ w.visits.map (·.1) := by
  simp [hasVisited]

namespace Marked

theorem reaches_top (h : w.Marked) (hw : w.frames = f :: fs) (hn : n ∈ w.way) :
    g.Reaches n f.node := by
  have hreach := h.way_reach
  rw [way_cons hw] at hreach hn
  rcases List.mem_cons.1 hn with rfl | hn
  · exact .refl g _
  · exact (List.pairwise_cons.1 hreach).1 n hn

/-- Taking the first pending call of the innermost frame leaves the other calls as they are, so that
only this call has to be accounted for. -/
theorem examined_advance (h : w.Marked) (hw : w.frames = f :: fs) (hf : f.pending = c :: cs)
    (hback : ∀ e ∈ w.backEdges, e ∈ v.backEdges)
    (hvisited : ∀ n, w.hasVisited n = true → v.hasVisited n = true)
    (hc : (f.node, c) ∈ v.backEdges ∨ (v.hasVisited c = true ∧ c ∉ w.way)) :
    ∀ f' fs', f' :: fs' <:+ f.advance :: fs → ∀ x ∈ g.successors f'.node,
      x ∈ f'.pending ∨ (f'.node, x) ∈ v.backEdges ∨
        (v.hasVisited x = true ∧ x ∉ (f' :: fs').map (·.node)) := by
  intro f' fs' hsuffix x hx
  have hpast : ∀ p ps, p :: ps <:+ w.frames → x ∈ g.successors p.node → x ∈ p.pending ∨
      (p.node, x) ∈ v.backEdges ∨ (v.hasVisited x = true ∧ x ∉ (p :: ps).map (·.node)) := by
    intro p ps hps hxp
    rcases h.examined p ps hps x hxp with hp | hb | ⟨hv, hoff⟩
    · exact Or.inl hp
    · exact Or.inr (Or.inl (hback _ hb))
    · exact Or.inr (Or.inr ⟨hvisited x hv, hoff⟩)
  rcases List.suffix_cons_iff.1 hsuffix with heq | hsuffix
  · obtain ⟨rfl, rfl⟩ := List.cons.inj heq
    have hall : f :: fs' <:+ w.frames := ⟨[], hw.symm⟩
    rcases hpast f fs' hall hx with hp | hdone
    · rw [hf] at hp
      rcases List.mem_cons.1 hp with rfl | hp
      · rw [way_cons hw] at hc
        exact Or.inr hc
      · refine Or.inl ?_
        simpa [Frame.advance, hf] using hp
    · exact Or.inr hdone
  · have hin : f' :: fs' <:+ w.frames := by
      rw [hw]
      exact hsuffix.trans (List.suffix_cons f fs)
    exact hpast f' fs' hin hx

theorem addBackEdge (h : w.Marked) (hs : w.Sound root) (hw : w.frames = f :: fs)
    (hf : f.pending = c :: cs) (hc : c ∈ w.way) :
    ({ w with frames := f.advance :: fs, backEdges := (f.node, c) :: w.backEdges } : Walk g).Marked := by
  have hway : ({ w with frames := f.advance :: fs, backEdges := (f.node, c) :: w.backEdges } :
      Walk g).way = w.way := way_advance hw rfl
  have hcall : g.Calls f.node c := hs.pending_mem _ _ (Frame.pending_head hw hf)
  refine ⟨h.once, by rw [hway]; exact h.way_reach, fun a b hab => ?_, ?_, fun n hn hoff => ?_⟩
  · rcases List.mem_cons.1 hab with heq | hab
    · obtain ⟨rfl, rfl⟩ := Prod.mk.inj heq
      have hfv := hs.frame_visited f (by rw [hw]; exact List.mem_cons_self)
      exact ⟨hfv, hcall, h.reaches_top hw hc⟩
    · exact h.back a b hab
  · exact h.examined_advance hw hf (fun e he => List.mem_cons_of_mem _ he) (fun _ hv => hv)
      (Or.inl List.mem_cons_self)
  · rw [hway] at hoff
    refine Subrelation.accessible (fun {y x} hyx => ?_) (h.left n hn hoff)
    exact ⟨hyx.1, fun hmem => hyx.2 (List.mem_cons_of_mem _ hmem)⟩

theorem passOver (h : w.Marked) (hw : w.frames = f :: fs) (hf : f.pending = c :: cs)
    (hc : w.hasVisited c = true) (hoff : c ∉ w.way) :
    ({ w with frames := f.advance :: fs } : Walk g).Marked := by
  have hway : ({ w with frames := f.advance :: fs } : Walk g).way = w.way := way_advance hw rfl
  refine ⟨h.once, by rw [hway]; exact h.way_reach, h.back, ?_, by rw [hway]; exact h.left⟩
  exact h.examined_advance hw hf (fun _ he => he) (fun _ hv => hv) (Or.inr ⟨hc, hoff⟩)

theorem visit (h : w.Marked) (hs : w.Sound root) (hw : w.frames = f :: fs)
    (hf : f.pending = c :: cs) (hnew : ¬ w.hasVisited c = true) (hoff : c ∉ w.way) :
    (({ w with frames := f.advance :: fs } : Walk g).visit c).Marked := by
  have hway : (({ w with frames := f.advance :: fs } : Walk g).visit c).way = c :: w.way :=
    congrArg (c :: ·) (way_advance (v := { w with frames := f.advance :: fs }) hw rfl)
  have hvisited := hasVisited_visit ({ w with frames := f.advance :: fs } : Walk g) c
  have hkept : ∀ n, w.hasVisited n = true →
      (({ w with frames := f.advance :: fs } : Walk g).visit c).hasVisited n = true :=
    fun n hn => (hvisited n).2 (Or.inr hn)
  have hcall : c ∈ g.successors f.node := hs.pending_mem _ _ (Frame.pending_head hw hf)
  refine ⟨?_, ?_, fun a b hab => ?_, fun f' fs' hsuffix x hx => ?_, fun n hn hout => ?_⟩
  · refine List.nodup_cons.2 ⟨?_, h.once⟩
    rw [← hasVisited_iff]
    exact hnew
  · rw [hway]
    refine List.pairwise_cons.2 ⟨fun p hp => ?_, h.way_reach⟩
    exact (h.reaches_top hw hp).call hcall
  · obtain ⟨hv, hab'⟩ := h.back a b hab
    exact ⟨hkept a hv, hab'⟩
  · rcases List.suffix_cons_iff.1 hsuffix with heq | hsuffix
    · obtain ⟨rfl, rfl⟩ := List.cons.inj heq
      exact Or.inl hx
    · exact h.examined_advance (v := ({ w with frames := f.advance :: fs } : Walk g).visit c) hw hf
        (fun _ he => he) hkept (Or.inr ⟨(hvisited c).2 (Or.inl rfl), hoff⟩) f' fs' hsuffix x hx
  · rw [hway, List.mem_cons, not_or] at hout
    have hn' : w.hasVisited n = true := ((hvisited n).1 hn).resolve_left (Ne.symm hout.1)
    exact h.left n hn' hout.2

theorem leave (h : w.Marked) (hw : w.frames = f :: fs) (hf : f.pending = []) :
    ({ w with frames := fs } : Walk g).Marked := by
  have hreach := h.way_reach
  rw [way_cons hw] at hreach
  refine ⟨h.once, (List.pairwise_cons.1 hreach).2, h.back, fun f' fs' hsuffix => ?_, fun n hn hoff => ?_⟩
  · exact h.examined f' fs' (by rw [hw]; exact hsuffix.trans (List.suffix_cons f fs))
  · by_cases hnf : n = f.node
    · -- its calls that are no back edges lead to nodes that were left before
      subst hnf
      refine Acc.intro _ fun y hy => ?_
      rcases h.examined f fs ⟨[], hw.symm⟩ y hy.1 with hp | hb | ⟨hv, hout⟩
      · rw [hf] at hp; cases hp
      · exact absurd hb hy.2
      · exact h.left y hv (by rw [way_cons hw]; exact hout)
    · refine h.left n hn ?_
      rw [way_cons hw, List.mem_cons, not_or]
      exact ⟨hnf, hoff⟩

theorem step (h : w.Marked) (hs : w.Sound root) (hw : w.frames = f :: fs) : (w.step f fs).Marked := by
  unfold Walk.step
  split
  · next c cs hf =>
    have hway : ({ w with frames := f.advance :: fs } : Walk g).way = w.way := way_advance hw rfl
    simp only [examine, onWay_iff, hway]
    split
    · next hc => exact h.addBackEdge hs hw hf hc
    · next hoff =>
      -- off the way the callee has been left, or it is new
      split
      · next hc => exact h.passOver hw hf hc hoff
      · next hnew => exact h.visit hs hw hf hnew hoff
  · next hf => exact h.leave hw hf

theorem run (h : w.Marked) (hs : w.Sound root) : w.run.Marked := by
  induction w using Walk.run.induct with
  | case1 w hw =>
    rw [run_nil hw]
    exact h
  | case2 w f fs hw ih =>
    rw [run_cons hw]
    exact ih (h.step hs hw) (hs.step hw)

end Marked

theorem marked_start (g : CallGraph) (root : Node) : (Walk.start g root).Marked := by
  refine ⟨by simp [start, Walk.visit], by simp [start, Walk.visit, way], nofun,
    fun f fs hsuffix c hc => ?_, fun n hn hoff => ?_⟩
  · -- no call of the root has been examined
    rcases List.suffix_cons_iff.1 hsuffix with heq | hsuffix
    · obtain ⟨rfl, -⟩ := List.cons.inj heq
      exact Or.inl hc
    · cases List.suffix_nil.1 hsuffix
  · have hroot : n = root := by simpa [start, Walk.visit, hasVisited, eq_comm] using hn
    exact absurd (by simp [start, Walk.visit, way, Frame.enter, hroot]) hoff

theorem marked_run (g : CallGraph) (root : Node) : (Walk.start g root).run.Marked :=
  (marked_start g root).run (sound_start g root)

end Walk

/-- From where every way ends no way leads round. -/
theorem not_transGen_of_acc {α : Type} {r : α → α → Prop} {a : α} (h : Acc (fun y x => r x y) a) :
    ¬ Relation.TransGen r a a := by
  intro hround
  have hback : Relation.TransGen (fun y x => r x y) a a := Relation.transGen_swap.2 hround
  have hacc : Acc (Relation.TransGen fun y x => r x y) a := h.transGen
  clear h hround
  induction hacc with
  | intro x _ ih => exact ih x hback hback

namespace Traversal

variable {g : CallGraph} {root a b n : Node}

theorem nodup_visited (g : CallGraph) (root : Node) : (walk g root).visited.Nodup := by
  have honce := (Walk.marked_run g root).once
  unfold visited walk
  rw [List.map_reverse, List.nodup_reverse]
  exact honce

theorem of_mem_backEdges (h : (a, b) ∈ (walk g root).backEdges) :
    g.CallsBelow root a b ∧ g.Reaches b a := by
  obtain ⟨hv, hcall, hreach⟩ := (Walk.marked_run g root).back a b (List.mem_reverse.1 h)
  exact ⟨⟨(Walk.hasVisited_run g root a).1 hv, hcall⟩, hreach⟩

theorem acyclic (g : CallGraph) (root n : Node) :
    ¬ Relation.TransGen (fun a b => g.CallsBelow root a b ∧ (a, b) ∉ (walk g root).backEdges) n n := by
  intro hround
  -- when the walk is over every visited node has been left
  obtain ⟨-, hframes, -⟩ := (Walk.sound_start g root).run
  obtain ⟨_, ⟨⟨hreach, -⟩, -⟩, -⟩ := Relation.TransGen.head'_iff.1 hround
  have hleft := (Walk.marked_run g root).left n ((Walk.hasVisited_run g root n).2 hreach)
    (by simp [Walk.way, hframes])
  refine not_transGen_of_acc hleft (Relation.TransGen.mono (fun x y hxy => ?_) n n hround)
  exact ⟨hxy.1.2, fun hmem => hxy.2 (List.mem_reverse.2 hmem)⟩

end Traversal
end AsyncMigration
