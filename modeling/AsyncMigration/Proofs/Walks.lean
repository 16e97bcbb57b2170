import AsyncMigration.Dependency.Traversal
import AsyncMigration.Proofs.Reach

/-!
# Walks visit what a root reaches

Every callee of a visited node is visited, or still pending in the frame of that node. When no frame
is left the visited nodes are closed under calls, and so hold all that the root reaches.

* `Traversal.mem_visited` — a walk visits a node if and only if its root reaches it.
* `Traversal.visited_eq_cons` — it visits the root first, and then all else that the root reaches.
-/

namespace AsyncMigration
namespace Walk

variable {g : CallGraph} {root c n : Node} {w : Walk g} {f : Frame g} {fs : List (Frame g)}
  {cs : List Node} {late : Node → Node → Prop}

/-- The invariant of a walk, but for the calls in `late`, which are being examined. -/
structure SoundBut (root : Node) (late : Node → Node → Prop) (w : Walk g) : Prop where
  reach : ∀ n, w.hasVisited n = true → g.Reaches root n
  frame_visited : ∀ f ∈ w.frames, w.hasVisited f.node = true
  pending_mem : ∀ n c, Frame.Pending w.frames n c → c ∈ g.successors n
  call : ∀ n, w.hasVisited n = true → ∀ c ∈ g.successors n,
    w.hasVisited c = true ∨ Frame.Pending w.frames n c ∨ late n c

/-- The invariant of a walk. -/
def Sound (root : Node) (w : Walk g) : Prop := w.SoundBut root fun _ _ => False

theorem hasVisited_visit (w : Walk g) (c n : Node) :
    (w.visit c).hasVisited n = true ↔ c = n ∨ w.hasVisited n = true := by
  simp [visit, hasVisited]

/-- Taking the first pending call of the innermost frame leaves that call to be dealt with. -/
theorem Sound.advance (h : w.Sound root) (hw : w.frames = f :: fs) (hf : f.pending = c :: cs) :
    ({ w with frames := f.advance :: fs } : Walk g).SoundBut root
      fun n x => n = f.node ∧ x = c := by
  have hpending := fun {n x} => Frame.pending_advance (n := n) (x := x) hw hf
  refine ⟨h.reach, fun f' hf' => ?_, fun n x hx => ?_, fun n hn x hx => ?_⟩
  · have hframe := h.frame_visited
    rw [hw] at hframe
    rcases List.mem_cons.1 hf' with rfl | hf'
    · exact hframe f List.mem_cons_self
    · exact hframe f' (List.mem_cons_of_mem _ hf')
  · exact h.pending_mem n x (hpending.1 (Or.inl hx))
  · rcases h.call n hn x hx with hv | hp | hfalse
    · exact Or.inl hv
    · exact Or.inr (hpending.2 hp)
    · exact hfalse.elim

/-- Calls to visited nodes have been dealt with, whatever is noted of them. -/
theorem SoundBut.resolve (h : w.SoundBut root late)
    (hlate : ∀ n c, late n c → w.hasVisited c = true) (bs : List (Node × Node)) :
    ({ w with backEdges := bs } : Walk g).Sound root := by
  refine ⟨h.reach, h.frame_visited, h.pending_mem, fun n hn c hc => ?_⟩
  rcases h.call n hn c hc with hv | hp | hl
  · exact Or.inl hv
  · exact Or.inr (Or.inl hp)
  · exact Or.inl (hlate n c hl)

/-- A node that the root reaches may be visited, and that deals with the calls to it. -/
theorem SoundBut.visit (h : w.SoundBut root late) (hreach : g.Reaches root c)
    (hlate : ∀ n x, late n x → x = c) : (w.visit c).Sound root := by
  have hframes : (w.visit c).frames = .enter g c :: w.frames := rfl
  have hvis := hasVisited_visit w c
  refine ⟨fun n hn => ?_, fun f' hf' => ?_, fun n x hx => ?_, fun n hn x hx => ?_⟩
  · rcases (hvis n).1 hn with rfl | hn
    · exact hreach
    · exact h.reach n hn
  · rcases List.mem_cons.1 hf' with rfl | hf'
    · exact (hvis _).2 (Or.inl rfl)
    · exact (hvis _).2 (Or.inr (h.frame_visited f' hf'))
  · rcases (Frame.pending_iff hframes).1 hx with ⟨rfl, hx'⟩ | hx'
    · exact hx'
    · exact h.pending_mem n x hx'
  · rcases (hvis n).1 hn with rfl | hn
    · exact Or.inr (Or.inl ((Frame.pending_iff hframes).2 (Or.inl ⟨rfl, hx⟩)))
    rcases h.call n hn x hx with hv | hp | hl
    · exact Or.inl ((hvis x).2 (Or.inr hv))
    · exact Or.inr (Or.inl ((Frame.pending_iff hframes).2 (Or.inr hp)))
    · exact Or.inl ((hvis x).2 (Or.inl (hlate n x hl).symm))

theorem Sound.step (h : w.Sound root) (hw : w.frames = f :: fs) : (w.step f fs).Sound root := by
  unfold Walk.step
  split
  · next c cs hf =>
    have hadv := h.advance hw hf
    have hfv := h.frame_visited f (by rw [hw]; exact List.mem_cons_self)
    have hcall : c ∈ g.successors f.node := h.pending_mem _ _ (Frame.pending_head hw hf)
    simp only [examine]
    split
    · next hway =>
      obtain ⟨f', hf', he⟩ := List.any_eq_true.1 hway
      have hc := hadv.frame_visited f' hf'
      rw [of_decide_eq_true he] at hc
      exact hadv.resolve (fun n x ⟨_, hx⟩ => by rw [hx]; exact hc) _
    · split
      · next hc => exact hadv.resolve (fun n x ⟨_, hx⟩ => by rw [hx]; exact hc) w.backEdges
      · exact hadv.visit ((h.reach _ hfv).call hcall) fun n x ⟨_, hx⟩ => hx
  · next hf =>
    refine ⟨h.reach, fun f' hf' => ?_, fun n x hx => ?_, fun n hn x hx => ?_⟩
    · exact h.frame_visited f' (by rw [hw]; exact List.mem_cons_of_mem _ hf')
    · exact h.pending_mem n x ((Frame.pending_iff hw).2 (Or.inr hx))
    · rcases h.call n hn x hx with hv | hp | hfalse
      · exact Or.inl hv
      · rcases (Frame.pending_iff hw).1 hp with ⟨-, hx'⟩ | hp
        · rw [hf] at hx'; cases hx'
        · exact Or.inr (Or.inl hp)
      · exact hfalse.elim

/-- A step forgets no visit. -/
theorem visits_suffix_step : w.visits <:+ (w.step f fs).visits := by
  unfold Walk.step
  split
  · simp only [examine]
    split
    · exact List.suffix_rfl
    · split
      · exact List.suffix_rfl
      · exact List.suffix_cons _ _
  · exact List.suffix_rfl

theorem run_nil (hw : w.frames = []) : w.run = w := by
  rw [Walk.run.eq_def]
  split
  · rfl
  · next hcons => rw [hw] at hcons; cases hcons

theorem run_cons (hw : w.frames = f :: fs) : w.run = (w.step f fs).run := by
  rw [Walk.run.eq_def]
  split
  · next hnil => rw [hw] at hnil; cases hnil
  · next f' fs' hcons =>
    rw [hw] at hcons
    obtain ⟨rfl, rfl⟩ := List.cons.inj hcons
    rfl

/-- A run ends without frames, and forgets no visit. -/
theorem Sound.run (h : w.Sound root) :
    w.run.Sound root ∧ w.run.frames = [] ∧ w.visits <:+ w.run.visits := by
  induction w using Walk.run.induct with
  | case1 w hw =>
    rw [run_nil hw]
    exact ⟨h, hw, List.suffix_rfl⟩
  | case2 w f fs hw ih =>
    obtain ⟨hsound, hframes, hkeep⟩ := ih (h.step hw)
    rw [run_cons hw]
    exact ⟨hsound, hframes, visits_suffix_step.trans hkeep⟩

theorem sound_start (g : CallGraph) (n : Node) : (Walk.start g n).Sound n := by
  have hidle : (⟨[], [], []⟩ : Walk g).Sound n := by
    refine ⟨?_, ?_, ?_, ?_⟩ <;> simp [hasVisited, Frame.Pending]
  exact hidle.visit (.refl g n) fun _ _ h => h.elim

/-- A walk visits what its root reaches. -/
theorem hasVisited_run (g : CallGraph) (root n : Node) :
    (Walk.start g root).run.hasVisited n = true ↔ g.Reaches root n := by
  obtain ⟨hsound, hframes, hkeep⟩ := (sound_start g root).run
  refine ⟨hsound.reach n, fun h => ?_⟩
  refine h.mem_of_closed (p := fun n => (Walk.start g root).run.hasVisited n = true) ?_ ?_
  · intro x hx y hy
    rcases hsound.call x hx y hy with hv | ⟨f, hf, -⟩ | hfalse
    · exact hv
    · rw [hframes] at hf; cases hf
    · exact hfalse.elim
  · exact List.any_eq_true.2 ⟨_, hkeep.mem List.mem_cons_self, decide_eq_true rfl⟩

end Walk

theorem Traversal.mem_visited {g : CallGraph} {root n : Node} :
    n ∈ (Traversal.walk g root).visited ↔ g.Reaches root n := by
  rw [← Walk.hasVisited_run]
  simp [visited, walk, Walk.hasVisited]

/-- The sinks listed are those visited. -/
theorem Traversal.mem_externalSinks {t : Traversal} {name : String} :
    name ∈ t.externalSinks ↔ .sink name ∈ t.visited := by
  unfold externalSinks
  rw [List.mem_filterMap]
  constructor
  · rintro ⟨n, hn, hname⟩
    cases n with
    | function _ => cases hname
    | sink s =>
      cases hname
      exact hn
  · intro h
    exact ⟨_, h, rfl⟩

/-- The root is visited first, and then all else that it reaches. -/
theorem Traversal.visited_eq_cons (g : CallGraph) (root : Node) :
    ∃ ns, (Traversal.walk g root).visited = root :: ns ∧
      ∀ n, g.Reaches root n ↔ n = root ∨ n ∈ ns := by
  obtain ⟨-, -, vs, hvs⟩ := (Walk.sound_start g root).run
  have hvisited : (Traversal.walk g root).visited = root :: vs.reverse.map (·.1) := by
    simp only [visited, walk]
    rw [← hvs]
    simp [Walk.start, Walk.visit]
  refine ⟨_, hvisited, fun n => ?_⟩
  rw [← mem_visited, hvisited, List.mem_cons]

end AsyncMigration
