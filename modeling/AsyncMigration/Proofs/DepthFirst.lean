import AsyncMigration.Proofs.BackEdges
import AsyncMigration.Proofs.Likeness

/-!
# Walks are depth-first searches

A depth-first search is a recursion: the callees of a node are examined in order, one that was met
before is passed over, and what is below a new one is searched before the next one is examined. A walk
does the same with frames. While it is busy with one frame and what comes above that frame, it does
what the recursion does with the callees pending there.

* `CallGraph.explore` — the recursive search, `CallTree` what it examines.
* `Walk.run_eq_explore` — a walk gets past a frame as the recursion gets past its callees.
* `CallGraph.Explores.mem_backEdges_iff` — the back edges are the calls up the tree.
* `Session.traversal_depthFirst` — so a traversal is the depth-first search from its root.
-/

namespace AsyncMigration

/-- What a search examines from a node on, call by call. -/
inductive CallTree where
  /-- No call is left. -/
  | done
  /-- A call to a node that was met before, and the calls after it. -/
  | met (c : Node) (rest : CallTree)
  /-- A call to a new node, what is examined below that node, and the calls after it. -/
  | found (c : Node) (below rest : CallTree)
deriving DecidableEq, Repr

namespace CallTree

/-- The new nodes in the order in which they are found. -/
def nodes : CallTree → List Node
  | done => []
  | met _ rest => rest.nodes
  | found c below rest => c :: (below.nodes ++ rest.nodes)

/-- The new nodes with their depths; those that the node itself calls have the given depth. -/
def visits (depth : Nat) : CallTree → List (Node × Nat)
  | done => []
  | met _ rest => rest.visits depth
  | found c below rest => (c, depth) :: (below.visits (depth + 1) ++ rest.visits depth)

/-- A node is found by a call from another, in the tree of a given caller. -/
def Finds (caller : Node) : CallTree → Node → Node → Prop
  | done, _, _ => False
  | met _ rest, a, b => rest.Finds caller a b
  | found c below rest, a, b => (a = caller ∧ b = c) ∨ below.Finds c a b ∨ rest.Finds caller a b

/-- The calls that lead to their own caller or to a node above it, in the order in which they are
examined. -/
def backEdges (caller : Node) (above : List Node) : CallTree → List (Node × Node)
  | done => []
  | met c rest =>
    (if c ∈ caller :: above then [(caller, c)] else []) ++ rest.backEdges caller above
  | found c below rest => below.backEdges c (caller :: above) ++ rest.backEdges caller above

end CallTree

namespace CallGraph

/-- The recursive search. Examines the calls `todo` of a node when the nodes `seen` have been met, and
gives what it examines together with the nodes that have been met then. -/
def explore (g : CallGraph) (seen todo : List Node) (hknown : ∀ c ∈ todo, c ∈ g.callees) :
    { r : CallTree × List Node // ∀ n ∈ seen, n ∈ r.2 } :=
  match todo with
  | [] => ⟨(.done, seen), fun _ hn => hn⟩
  | c :: cs =>
    have hcs : ∀ x ∈ cs, x ∈ g.callees := fun x hx => hknown x (List.mem_cons_of_mem c hx)
    if _hc : c ∈ seen then
      match g.explore seen cs hcs with
      | ⟨(rest, seen'), hrest⟩ => ⟨(.met c rest, seen'), hrest⟩
    else
      match g.explore (c :: seen) (g.successors c) fun _ => mem_callees_of_mem_successors with
      | ⟨(below, seen'), hbelow⟩ =>
        match g.explore seen' cs hcs with
        | ⟨(rest, seen''), hrest⟩ =>
          ⟨(.found c below rest, seen''), fun n hn => hrest n (hbelow n (List.mem_cons_of_mem c hn))⟩
termination_by Frame.unopened g (fun n => decide (n ∈ seen)) + todo.length
decreasing_by
  · simp
  · have hopen := Frame.unopened_add_le g (fun n => decide (n ∈ seen))
      (fun n => decide (n ∈ c :: seen)) (hknown c List.mem_cons_self) (by simp_all) (by simpa using _hc)
      (by simp)
    simp only [List.length_cons]
    omega
  · have hopen := Frame.unopened_add_le g (fun n => decide (n ∈ seen))
      (fun n => decide (n ∈ seen')) (hknown c List.mem_cons_self)
      (fun n hn => by simpa using hbelow n (List.mem_cons_of_mem c (by simpa using hn)))
      (by simpa using _hc) (by simpa using hbelow c List.mem_cons_self)
    simp only [List.length_cons]
    omega

/-- What the recursive search from a root examines. -/
def callTree (g : CallGraph) (root : Node) : CallTree :=
  (g.explore [root] (g.successors root) fun _ h => mem_callees_of_mem_successors h).1.1

/-- The rules of the search, by which it is reasoned about: the calls `todo` are examined when the nodes
in the first list have been met, and when they are done with, those in the second have. -/
inductive Explores (g : CallGraph) : List Node → List Node → CallTree → List Node → Prop
  | done {seen : List Node} : Explores g seen [] .done seen
  | met {seen seen' cs : List Node} {c : Node} {rest : CallTree} (hc : c ∈ seen)
      (hrest : Explores g seen cs rest seen') : Explores g seen (c :: cs) (.met c rest) seen'
  | found {seen seen' seen'' cs : List Node} {c : Node} {below rest : CallTree} (hc : c ∉ seen)
      (hbelow : Explores g (c :: seen) (g.successors c) below seen')
      (hrest : Explores g seen' cs rest seen'') : Explores g seen (c :: cs) (.found c below rest) seen''

theorem explores_explore (g : CallGraph) (seen todo : List Node)
    (hknown : ∀ c ∈ todo, c ∈ g.callees) :
    g.Explores seen todo (g.explore seen todo hknown).1.1 (g.explore seen todo hknown).1.2 := by
  fun_induction explore g seen todo hknown with
  | case1 seen hknown => exact .done
  | case2 seen c cs hknown hcs hc rest seen' hrest heq _ ih =>
    rw [heq] at ih
    exact .met hc ih
  | case3 seen c cs hknown hcs hc below seen' hbelow heq rest seen'' hrest heq' _ ih ih' =>
    rw [heq] at ih
    rw [heq'] at ih'
    exact .found hc ih ih'

theorem explores_callTree (g : CallGraph) (root : Node) :
    ∃ seen, g.Explores [root] (g.successors root) (g.callTree root) seen :=
  ⟨_, explores_explore g _ _ _⟩

end CallGraph

/-! ## Walks -/

namespace Walk

variable {g : CallGraph} {w : Walk g} {f : Frame g} {fs : List (Frame g)} {c : Node}
  {cs seen seen' todo : List Node} {tree : CallTree}

theorem step_of_mem_way (hw : w.frames = f :: fs) (hf : f.pending = c :: cs) (hc : c ∈ w.way) :
    w.step f fs
      = { w with frames := f.advance :: fs, backEdges := (f.node, c) :: w.backEdges } := by
  have hon : ({ w with frames := f.advance :: fs } : Walk g).onWay c = true := by
    rw [onWay_iff, way_advance hw rfl]
    exact hc
  simp only [step, hf, examine, hon, if_true]

theorem step_of_not_mem_way (hw : w.frames = f :: fs) (hf : f.pending = c :: cs) (hc : c ∉ w.way) :
    w.step f fs = if w.hasVisited c then { w with frames := f.advance :: fs }
      else ({ w with frames := f.advance :: fs } : Walk g).visit c := by
  have hoff : ({ w with frames := f.advance :: fs } : Walk g).onWay c = false := by
    rw [Bool.eq_false_iff, ne_eq, onWay_iff, way_advance hw rfl]
    exact hc
  simp only [step, hf, examine, hoff, Bool.false_eq_true, if_false]
  rfl

/-- The walk has met the nodes of a list, those on the way among them. -/
structure HasMet (w : Walk g) (seen : List Node) : Prop where
  visited : ∀ n, w.hasVisited n = true ↔ n ∈ seen
  way : ∀ n ∈ w.way, n ∈ seen

/-- **A walk is a recursion.** The walk from a frame on gets to where the frame is left, and by then it
has visited what the search of the pending calls finds, and noted the back edges of that search. -/
theorem run_eq_explore (h : g.Explores seen todo tree seen') (hw : w.frames = f :: fs)
    (hf : f.pending = todo) (hmet : w.HasMet seen) :
    ∃ v : Walk g, w.run = v.run ∧ v.frames = fs ∧ v.HasMet seen' ∧
      v.visits = (tree.visits (fs.length + 1)).reverse ++ w.visits ∧
      v.backEdges = (tree.backEdges f.node (fs.map (·.node))).reverse ++ w.backEdges := by
  induction h generalizing w f fs with
  | @done seen =>
    have hstep : w.step f fs = { w with frames := fs } := by simp only [step, hf]
    refine ⟨{ w with frames := fs }, by rw [run_cons hw, hstep], rfl, ⟨hmet.visited, fun n hn => ?_⟩,
      rfl, rfl⟩
    refine hmet.way n ?_
    rw [way_cons hw]
    exact List.mem_cons_of_mem _ hn
  | @met seen seen' cs c rest hc _ ih =>
    have hpending : f.advance.pending = cs := by simp [Frame.advance, hf]
    by_cases hway : c ∈ w.way
    · -- the call leads back to a node on the way
      obtain ⟨v, hrun, hframes, hmet', hvisits, hedges⟩ :=
        ih (w := { w with frames := f.advance :: fs, backEdges := (f.node, c) :: w.backEdges }) rfl
          hpending ⟨hmet.visited, by rw [way_advance hw rfl]; exact hmet.way⟩
      refine ⟨v, ?_, hframes, hmet', hvisits, ?_⟩
      · rw [run_cons hw, step_of_mem_way hw hf hway, hrun]
      · rw [way_cons hw] at hway
        rw [hedges, CallTree.backEdges, if_pos hway]
        simp [Frame.advance]
    · obtain ⟨v, hrun, hframes, hmet', hvisits, hedges⟩ :=
        ih (w := { w with frames := f.advance :: fs }) rfl hpending
          ⟨hmet.visited, by rw [way_advance hw rfl]; exact hmet.way⟩
      refine ⟨v, ?_, hframes, hmet', hvisits, ?_⟩
      · rw [run_cons hw, step_of_not_mem_way hw hf hway, if_pos ((hmet.visited c).2 hc), hrun]
      · rw [way_cons hw] at hway
        rw [hedges, CallTree.backEdges, if_neg hway]
        simp [Frame.advance]
  | @found seen seen' seen'' cs c below rest hc _ _ ihbelow ihrest =>
    have hpending : f.advance.pending = cs := by simp [Frame.advance, hf]
    have hway : c ∉ w.way := fun hmem => hc (hmet.way c hmem)
    have hnew : ¬ w.hasVisited c = true := fun hv => hc ((hmet.visited c).1 hv)
    have hadv : ({ w with frames := f.advance :: fs } : Walk g).way = w.way := way_advance hw rfl
    have hopened : (({ w with frames := f.advance :: fs } : Walk g).visit c).frames
        = .enter g c :: f.advance :: fs := rfl
    have hmetc : (({ w with frames := f.advance :: fs } : Walk g).visit c).HasMet (c :: seen) := by
      refine ⟨fun n => ?_, fun n hn => ?_⟩
      · rw [hasVisited_visit, List.mem_cons, eq_comm]
        exact or_congr_right (hmet.visited n)
      · rcases List.mem_cons.1 hn with rfl | hn
        · exact List.mem_cons_self
        · exact List.mem_cons_of_mem _ (hmet.way n (hadv ▸ hn))
    -- first what is below the callee, with its frame on top, then what is left of the frame
    obtain ⟨v, hrun, hframes, hmet', hvisits, hedges⟩ := ihbelow hopened rfl hmetc
    obtain ⟨v', hrun', hframes', hmet'', hvisits', hedges'⟩ := ihrest hframes hpending hmet'
    refine ⟨v', ?_, hframes', hmet'', ?_, ?_⟩
    · rw [run_cons hw, step_of_not_mem_way hw hf hway, if_neg hnew, hrun, hrun']
    · rw [hvisits', hvisits]
      simp [CallTree.visits, Walk.visit]
    · rw [hedges', hedges]
      simp [CallTree.backEdges, Walk.visit, Frame.enter, Frame.advance]

end Walk

/-- A walk visits the nodes of the tree below its root, with their depths, and meets its back edges. -/
theorem Traversal.walk_eq_callTree (g : CallGraph) (root : Node) :
    (Traversal.walk g root).visits = (root, 0) :: (g.callTree root).visits 1 ∧
      (Traversal.walk g root).backEdges = (g.callTree root).backEdges root [] := by
  obtain ⟨seen, hexplores⟩ := g.explores_callTree root
  have hmet : (Walk.start g root).HasMet [root] := by
    constructor <;> simp [Walk.start, Walk.visit, Walk.hasVisited, Walk.way, Frame.enter, eq_comm]
  have hopened : (Walk.start g root).frames = [.enter g root] := rfl
  obtain ⟨v, hrun, hframes, -, hvisits, hedges⟩ := Walk.run_eq_explore hexplores hopened rfl hmet
  have hend : (Walk.start g root).run = v := hrun.trans (Walk.run_nil hframes)
  constructor
  · simp only [Traversal.walk, hend, hvisits]
    simp [Walk.start, Walk.visit]
  · simp only [Traversal.walk, hend, hedges]
    simp [Walk.start, Walk.visit, Frame.enter]

/-! ## Trees -/

namespace CallTree

open Relation (ReflTransGen)

variable {caller a b c u v : Node} {t below rest : CallTree}

theorem map_visits (t : CallTree) (depth : Nat) : (t.visits depth).map (·.1) = t.nodes := by
  induction t generalizing depth with
  | done => rfl
  | met c rest ih => exact ih depth
  | found c below rest ihbelow ihrest => simp [visits, nodes, ihbelow, ihrest]

/-- What is found is a node of the tree, and so is what finds it unless it is the caller. -/
theorem Finds.mem (h : t.Finds caller a b) : a ∈ caller :: t.nodes ∧ b ∈ t.nodes := by
  induction t generalizing caller with
  | done => exact h.elim
  | met c rest ih => exact ih h
  | found c below rest ihbelow ihrest =>
    rcases h with ⟨rfl, rfl⟩ | h | h
    · simp [nodes]
    · have := ihbelow h
      simp only [nodes, List.mem_cons, List.mem_append] at this ⊢
      tauto
    · have := ihrest h
      simp only [nodes, List.mem_cons, List.mem_append] at this ⊢
      tauto

/-- Every node of the tree is found by some call. -/
theorem exists_finds (h : b ∈ t.nodes) : ∃ a, t.Finds caller a b := by
  induction t generalizing caller with
  | done => cases h
  | met c rest ih => exact ih h
  | found c below rest ihbelow ihrest =>
    rcases List.mem_cons.1 h with rfl | h
    · exact ⟨caller, Or.inl ⟨rfl, rfl⟩⟩
    rcases List.mem_append.1 h with h | h
    · have hbelow : ∃ a, below.Finds c a b := ihbelow h
      exact hbelow.imp fun a ha => Or.inr (Or.inl ha)
    · have hrest : ∃ a, rest.Finds caller a b := ihrest h
      exact hrest.imp fun a ha => Or.inr (Or.inr ha)

/-- What is found is one level deeper than what finds it. -/
theorem Finds.depth (h : t.Finds caller a b) (depth : Nat) :
    (a = caller ∧ (b, depth) ∈ t.visits depth) ∨
      ∃ d, (a, d) ∈ t.visits depth ∧ (b, d + 1) ∈ t.visits depth := by
  induction t generalizing caller depth with
  | done => exact h.elim
  | met c rest ih => exact ih h depth
  | found c below rest ihbelow ihrest =>
    rcases h with ⟨rfl, rfl⟩ | h | h
    · exact Or.inl ⟨rfl, List.mem_cons_self⟩
    · refine Or.inr ?_
      rcases ihbelow h (depth + 1) with ⟨rfl, hb⟩ | ⟨d, ha, hb⟩
      · exact ⟨depth, List.mem_cons_self, List.mem_cons_of_mem _ (List.mem_append_left _ hb)⟩
      · exact ⟨d, List.mem_cons_of_mem _ (List.mem_append_left _ ha),
          List.mem_cons_of_mem _ (List.mem_append_left _ hb)⟩
    · rcases ihrest h depth with ⟨rfl, hb⟩ | ⟨d, ha, hb⟩
      · exact Or.inl ⟨rfl, List.mem_cons_of_mem _ (List.mem_append_right _ hb)⟩
      · exact Or.inr ⟨d, List.mem_cons_of_mem _ (List.mem_append_right _ ha),
          List.mem_cons_of_mem _ (List.mem_append_right _ hb)⟩

/-- The caller stands above all nodes of the tree. -/
theorem above_of_mem (h : u ∈ t.nodes) : ReflTransGen (t.Finds caller) caller u := by
  induction t generalizing caller with
  | done => cases h
  | met c rest ih => exact ih h
  | found c below rest ihbelow ihrest =>
    have hc : (found c below rest).Finds caller caller c := Or.inl ⟨rfl, rfl⟩
    rcases List.mem_cons.1 h with rfl | h
    · exact .single hc
    rcases List.mem_append.1 h with h | h
    · exact .head hc (ReflTransGen.mono (fun _ _ hab => Or.inr (Or.inl hab)) _ _ (ihbelow h))
    · exact ReflTransGen.mono (fun _ _ hab => Or.inr (Or.inr hab)) _ _ (ihrest h)

/-- Nothing stands above the caller. -/
theorem eq_of_above_caller (hcaller : caller ∉ t.nodes) :
    ReflTransGen (t.Finds caller) v caller ↔ v = caller := by
  constructor
  · intro h
    rcases ReflTransGen.cases_tail h with heq | ⟨a, -, ha⟩
    · exact heq.symm
    · exact absurd ha.mem.2 hcaller
  · rintro rfl
    exact .refl

section

variable (hnodup : (found c below rest).nodes.Nodup) (hcaller : caller ∉ (found c below rest).nodes)

include hnodup hcaller

/-- Above a new node and what is found below it stand the caller and what stands there below it. -/
theorem above_below_iff (hu : u ∈ c :: below.nodes) :
    ReflTransGen ((found c below rest).Finds caller) v u ↔
      v = caller ∨ ReflTransGen (below.Finds c) v u := by
  have hapart : ∀ x ∈ c :: below.nodes, x ∉ rest.nodes := by
    simp only [nodes, ← List.cons_append] at hnodup
    exact fun x hx hx' => (List.nodup_append.1 hnodup).2.2 x hx x hx' rfl
  constructor
  · intro h
    induction h with
    | refl => exact Or.inr .refl
    | @tail a u hva hau ih =>
      rcases hau with ⟨rfl, rfl⟩ | hau | hau
      · exact Or.inl ((eq_of_above_caller hcaller).1 hva)
      · exact (ih hau.mem.1).imp_right fun h => h.tail hau
      · exact absurd hau.mem.2 (hapart u hu)
  · have hmono : ReflTransGen (below.Finds c) v u →
        ReflTransGen ((found c below rest).Finds caller) v u :=
      ReflTransGen.mono (fun _ _ hab => Or.inr (Or.inl hab)) _ _
    rintro (rfl | h)
    · refine above_of_mem ?_
      simp only [nodes, List.mem_cons, List.mem_append] at hu ⊢
      tauto
    · exact hmono h

/-- Above what is found later stands nothing of what was found before. -/
theorem above_rest_iff (hu : u ∈ rest.nodes) :
    ReflTransGen ((found c below rest).Finds caller) v u ↔ ReflTransGen (rest.Finds caller) v u := by
  have hapart : ∀ x ∈ rest.nodes, x ∉ c :: below.nodes := by
    simp only [nodes, ← List.cons_append] at hnodup
    exact fun x hx hx' => (List.nodup_append.1 hnodup).2.2 x hx' x hx rfl
  constructor
  · intro h
    induction h with
    | refl => exact .refl
    | @tail a u hva hau ih =>
      rcases hau with ⟨rfl, rfl⟩ | hau | hau
      · exact absurd List.mem_cons_self (hapart u hu)
      · exact absurd (List.mem_cons_of_mem _ hau.mem.2) (hapart u hu)
      · rcases List.mem_cons.1 hau.mem.1 with rfl | ha
        · rw [(eq_of_above_caller hcaller).1 hva]
          exact .single hau
        · exact (ih ha).tail hau
  · exact ReflTransGen.mono (fun _ _ hab => Or.inr (Or.inr hab)) _ _

end
end CallTree

/-! ## Back edges of a search -/

namespace CallGraph

open CallTree Relation

variable {g : CallGraph} {seen seen' todo above : List Node} {tree : CallTree} {caller u v : Node}

namespace Explores

/-- A search finds nodes that it has not met, each once, and has met them then. -/
theorem fresh (h : g.Explores seen todo tree seen') :
    tree.nodes.Nodup ∧ (∀ n ∈ tree.nodes, n ∉ seen) ∧ ∀ n, n ∈ seen' ↔ n ∈ seen ∨ n ∈ tree.nodes := by
  induction h with
  | done => simp [nodes]
  | met hc _ ih => exact ih
  | @found seen seen' seen'' cs c below rest hc _ _ ihbelow ihrest =>
    obtain ⟨hnodup, hnew, hmet⟩ := ihbelow
    obtain ⟨hnodup', hnew', hmet'⟩ := ihrest
    simp only [hmet, List.mem_cons, not_or] at hnew hnew' hmet'
    refine ⟨?_, fun n hn => ?_, fun n => ?_⟩
    · simp only [nodes, ← List.cons_append]
      have hc' : (c :: below.nodes).Nodup := List.nodup_cons.2 ⟨fun hmem => (hnew c hmem).1 rfl, hnodup⟩
      refine List.nodup_append.2 ⟨hc', hnodup', ?_⟩
      rintro x hx y hy rfl
      rcases List.mem_cons.1 hx with rfl | hx
      · exact (hnew' x hy).1.1 rfl
      · exact (hnew' x hy).2 hx
    · simp only [nodes, List.mem_cons, List.mem_append] at hn
      rcases hn with rfl | hn | hn
      · exact hc
      · exact (hnew n hn).2
      · exact (hnew' n hn).1.2
    · rw [hmet']
      simp only [nodes, List.mem_cons, List.mem_append]
      tauto

/-- The back edges below a caller: the calls that lead up, from the caller itself and from what is
found. -/
theorem mem_backEdges_iff (h : g.Explores seen todo tree seen')
    (habove : ∀ n ∈ caller :: above, n ∈ seen) :
    (u, v) ∈ tree.backEdges caller above ↔
      (u = caller ∧ v ∈ todo ∧ v ∈ caller :: above) ∨
        (u ∈ tree.nodes ∧ g.Calls u v ∧ (v ∈ above ∨ ReflTransGen (tree.Finds caller) v u)) := by
  induction h generalizing caller above with
  | done => simp [CallTree.backEdges, nodes]
  | @met seen seen' cs c rest hc _ ih =>
    have hfinds : (CallTree.met c rest).Finds caller = rest.Finds caller := rfl
    simp only [CallTree.backEdges, List.mem_append, ih habove, nodes, hfinds]
    split
    · next hup =>
      simp only [List.mem_singleton, Prod.mk.injEq]
      grind
    · next hup => grind
  | @found seen seen' seen'' cs c below rest hc hbelow hrest ihbelow ihrest =>
    obtain ⟨hnodup, hnew, -⟩ := (Explores.found hc hbelow hrest).fresh
    have hcaller : caller ∉ (CallTree.found c below rest).nodes := fun hmem =>
      hnew caller hmem (habove caller List.mem_cons_self)
    have hcbelow : c ∉ below.nodes := fun hmem => hbelow.fresh.2.1 c hmem List.mem_cons_self
    have hup : c ∉ caller :: above := fun hmem => hc (habove c hmem)
    have hmet : ∀ n ∈ caller :: above, n ∈ seen' := fun n hn =>
      (hbelow.fresh.2.2 n).2 (Or.inl (List.mem_cons_of_mem _ (habove n hn)))
    have habove' : ∀ n ∈ c :: caller :: above, n ∈ c :: seen := by
      intro n hn
      rcases List.mem_cons.1 hn with rfl | hn
      · exact List.mem_cons_self
      · exact List.mem_cons_of_mem _ (habove n hn)
    have hself : ReflTransGen (below.Finds c) v c ↔ v = c := eq_of_above_caller hcbelow
    have hin := above_below_iff (v := v) (u := u) hnodup hcaller
    have hlater := above_rest_iff (v := v) (u := u) hnodup hcaller
    simp only [CallTree.backEdges, List.mem_append, ihbelow habove', ihrest hmet]
    simp only [nodes, List.mem_cons, List.mem_append] at hin hlater hup ⊢
    unfold Calls
    by_cases hu : u = c
    · subst hu
      grind
    · grind

/-- A call is a back edge once, since a node calls each of its callees once. -/
theorem nodup_backEdges (h : g.Explores seen todo tree seen')
    (habove : ∀ n ∈ caller :: above, n ∈ seen) (htodo : todo.Nodup) :
    (tree.backEdges caller above).Nodup := by
  induction h generalizing caller above with
  | done => exact List.nodup_nil
  | @met seen seen' cs c rest hc hrest ih =>
    obtain ⟨hnot, hcs⟩ := List.nodup_cons.1 htodo
    have hnew : (caller, c) ∉ rest.backEdges caller above := by
      rw [hrest.mem_backEdges_iff habove]
      rintro (⟨-, hmem, -⟩ | ⟨hmem, -⟩)
      · exact hnot hmem
      · exact hrest.fresh.2.1 caller hmem (habove caller List.mem_cons_self)
    unfold CallTree.backEdges
    split
    · exact List.nodup_cons.2 ⟨hnew, ih habove hcs⟩
    · exact ih habove hcs
  | @found seen seen' seen'' cs c below rest hc hbelow hrest ihbelow ihrest =>
    obtain ⟨hnodup, hnew, -⟩ := (Explores.found hc hbelow hrest).fresh
    have hcaller : caller ∉ (CallTree.found c below rest).nodes := fun hmem =>
      hnew caller hmem (habove caller List.mem_cons_self)
    have hmet : ∀ n ∈ caller :: above, n ∈ seen' := fun n hn =>
      (hbelow.fresh.2.2 n).2 (Or.inl (List.mem_cons_of_mem _ (habove n hn)))
    have habove' : ∀ n ∈ c :: caller :: above, n ∈ c :: seen :=
      List.forall_mem_cons.2 ⟨List.mem_cons_self, fun n hn => List.mem_cons_of_mem _ (habove n hn)⟩
    refine List.nodup_append.2 ⟨ihbelow habove' (nodup_eraseDups _),
      ihrest hmet (List.nodup_cons.1 htodo).2, ?_⟩
    rintro ⟨u, v⟩ huv _ huv' rfl
    rw [hbelow.mem_backEdges_iff habove'] at huv
    rw [hrest.mem_backEdges_iff hmet] at huv'
    -- the first comes from the new node or from below it, the second does not
    have hu : u ∈ c :: below.nodes := by
      rcases huv with ⟨rfl, -⟩ | ⟨hu, -⟩
      · exact List.mem_cons_self
      · exact List.mem_cons_of_mem _ hu
    simp only [nodes, ← List.cons_append] at hnodup hcaller
    rcases huv' with ⟨rfl, -⟩ | ⟨hu', -⟩
    · exact hcaller (List.mem_append_left _ hu)
    · exact (List.nodup_append.1 hnodup).2.2 u hu u hu' rfl

end Explores

variable {root : Node}

/-- The root is not found again. -/
theorem root_not_mem_callTree (g : CallGraph) (root : Node) : root ∉ (g.callTree root).nodes := by
  obtain ⟨seen, h⟩ := g.explores_callTree root
  exact fun hmem => h.fresh.2.1 root hmem List.mem_cons_self

theorem mem_backEdges_callTree_iff :
    (u, v) ∈ (g.callTree root).backEdges root [] ↔
      u ∈ root :: (g.callTree root).nodes ∧ g.Calls u v ∧
        ReflTransGen ((g.callTree root).Finds root) v u := by
  obtain ⟨seen, h⟩ := g.explores_callTree root
  have hroot := eq_of_above_caller (v := v) (g.root_not_mem_callTree root)
  rw [h.mem_backEdges_iff (List.forall_mem_singleton.2 List.mem_cons_self)]
  constructor
  · rintro (⟨rfl, hcall, hv⟩ | ⟨hu, hcall, hv⟩)
    · exact ⟨List.mem_cons_self, hcall, hroot.2 (List.mem_singleton.1 hv)⟩
    · exact ⟨List.mem_cons_of_mem _ hu, hcall, hv.resolve_left List.not_mem_nil⟩
  · rintro ⟨hu, hcall, hv⟩
    rcases List.mem_cons.1 hu with rfl | hu
    · exact Or.inl ⟨rfl, hcall, List.mem_singleton.2 (hroot.1 hv)⟩
    · exact Or.inr ⟨hu, hcall, Or.inr hv⟩

theorem nodup_backEdges_callTree (g : CallGraph) (root : Node) :
    ((g.callTree root).backEdges root []).Nodup := by
  obtain ⟨seen, h⟩ := g.explores_callTree root
  exact h.nodup_backEdges (List.forall_mem_singleton.2 List.mem_cons_self) (nodup_eraseDups _)

end CallGraph

namespace Session

/-- **Walks are depth-first searches.** In a session over a graph that nothing is added to, whatever
has been asked before, a traversal is found, and it is the recursive search from its root: the nodes
visited are those of its tree, with their depths there, and the back edges and sinks follow in the
order in which the search meets them. A node is visited once, and if and only if the root reaches it.
Each is one level deeper than the node that finds it. The back edges are the calls that lead to the
caller itself or to a node above it in the tree, each once. -/
theorem traversal_depthFirst (g : CallGraph) (st : Settings) (log : List Event)
    (earlier : List Question) (root : Node) :
    let s := (({ settings := st, graph := g, log } : Session).askAll earlier).2
    let tree := g.callTree root
    ∃ t, (s.ask (traverse root)).1 = .ok t ∧ t.root = root ∧
      t.visited = root :: tree.nodes ∧ t.visited.Nodup ∧ (∀ n, n ∈ t.visited ↔ g.Reaches root n) ∧
      t.visits = (root, 0) :: tree.visits 1 ∧
      (∀ a b, tree.Finds root a b → ∃ d, (a, d) ∈ t.visits ∧ (b, d + 1) ∈ t.visits) ∧
      (∀ b ∈ t.visited, b ≠ root → ∃ a, tree.Finds root a b) ∧
      t.backEdges = tree.backEdges root [] ∧ t.backEdges.Nodup ∧
      (∀ u v, (u, v) ∈ t.backEdges ↔
        g.Reaches root u ∧ g.Calls u v ∧ Relation.ReflTransGen (tree.Finds root) v u) ∧
      t.externalSinks = (root :: tree.nodes).filterMap Node.sinkName? := by
  intro s tree
  have hs : s.Faithful g st := (askAll_spec (faithful_fresh g st log) earlier).2
  obtain ⟨hvisits, hedges⟩ := Traversal.walk_eq_callTree g root
  have hvisited : (Traversal.walk g root).visited = root :: tree.nodes := by
    rw [Traversal.visited, hvisits, List.map_cons, CallTree.map_visits]
  have hreach : ∀ n, n ∈ root :: tree.nodes ↔ g.Reaches root n := fun n => by
    rw [← hvisited, Traversal.mem_visited]
  refine ⟨g.traversalOf root, (gives_traverse root s hs).1, rfl, hvisited,
    Traversal.nodup_visited g root, fun n => Traversal.mem_visited, hvisits, fun a b hab => ?_,
    fun b hb hne => ?_, hedges, ?_, fun u v => ?_, congrArg (List.filterMap Node.sinkName?) hvisited⟩
  · show ∃ d, (a, d) ∈ (Traversal.walk g root).visits ∧ (b, d + 1) ∈ (Traversal.walk g root).visits
    rw [hvisits]
    rcases hab.depth 1 with ⟨rfl, hb⟩ | ⟨d, ha, hb⟩
    · exact ⟨0, List.mem_cons_self, List.mem_cons_of_mem _ hb⟩
    · exact ⟨d, List.mem_cons_of_mem _ ha, List.mem_cons_of_mem _ hb⟩
  · have hb : b ∈ (Traversal.walk g root).visited := hb
    rw [hvisited] at hb
    exact CallTree.exists_finds ((List.mem_cons.1 hb).resolve_left hne)
  · show (Traversal.walk g root).backEdges.Nodup
    rw [hedges]
    exact g.nodup_backEdges_callTree root
  · show (u, v) ∈ (Traversal.walk g root).backEdges ↔ _
    rw [hedges, CallGraph.mem_backEdges_callTree_iff, hreach]

end Session
end AsyncMigration
