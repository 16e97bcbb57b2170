import AsyncMigration.Dependency.Frame

/-!
# Walks from a root

A walk visits everything that a root reaches, depth first, callees in the order of their first
calls. It records the visits with their depths, and as back edges the calls that lead to a node on
the way from the root to the caller.

| here | in `riprap.analysis` |
| --- | --- |
| `Walk.start`, `Walk.step`, `Walk.run` | the loop of `dependency.DependencyAnalyzer.traverse` |
| `Traversal`, `Traversal.maxDepth` | `model.TraversalRecord`, `model.TraversalRecord.max_depth` |
-/

namespace AsyncMigration

/-- A walk under way. -/
structure Walk (g : CallGraph) where
  /-- The nodes visited with their depths, newest first. -/
  visits : List (Node × Nat)
  /-- The back edges met, newest first. -/
  backEdges : List (Node × Node)
  /-- The frames, innermost first; their nodes are the way from the root. -/
  frames : List (Frame g)

namespace Walk

variable {g : CallGraph}

/-- Whether a node has been visited. -/
def hasVisited (w : Walk g) (n : Node) : Bool := w.visits.any (·.1 = n)

/-- Whether a node is on the way from the root. -/
def onWay (w : Walk g) (n : Node) : Bool := w.frames.any (·.node = n)

/-- Visits a node below the innermost frame. -/
def visit (w : Walk g) (n : Node) : Walk g :=
  { w with visits := (n, w.frames.length) :: w.visits, frames := .enter g n :: w.frames }

/-- Examines the callee `c` of the innermost frame `f`. -/
def examine (w : Walk g) (f : Frame g) (fs : List (Frame g)) (c : Node) : Walk g :=
  let w := { w with frames := f.advance :: fs }
  if w.onWay c then { w with backEdges := (f.node, c) :: w.backEdges }
  else if w.hasVisited c then w
  else w.visit c

/-- One step of the walk. -/
def step (w : Walk g) (f : Frame g) (fs : List (Frame g)) : Walk g :=
  match f.pending with
  | c :: _ => w.examine f fs c
  | [] => { w with frames := fs }

/-- A bound on the steps that remain. -/
def toDo (w : Walk g) : Nat := Frame.toDo w.hasVisited w.frames

theorem toDo_step {w : Walk g} {f : Frame g} {fs : List (Frame g)} (hw : w.frames = f :: fs) :
    (w.step f fs).toDo < w.toDo := by
  unfold step
  split
  · next c cs hf =>
    have hload := Frame.load_advance hf fs
    have hsame : ∀ (bs : List (Node × Node)) (gs : List (Frame g)),
        (⟨w.visits, bs, gs⟩ : Walk g).hasVisited = w.hasVisited := fun _ _ => rfl
    unfold examine
    dsimp only
    split
    · simp only [toDo, Frame.toDo, hsame, hw]; omega
    · split
      · simp only [toDo, Frame.toDo, hsame, hw]; omega
      · next hnew =>
        have hc : c ∈ g.callees := f.known c (by simp [hf])
        have hopen := Frame.unopened_add_le g w.hasVisited
          (({ w with frames := f.advance :: fs } : Walk g).visit c).hasVisited hc
          (fun n hn => by simp_all [visit, hasVisited]) (Bool.eq_false_iff.2 hnew)
          (by simp [visit, hasVisited])
        simp only [toDo, Frame.toDo, hw]
        simp only [visit, Frame.load_enter] at hopen ⊢
        omega
  · simp only [toDo, Frame.toDo, hw, Frame.load_cons]
    have : (⟨w.visits, w.backEdges, fs⟩ : Walk g).hasVisited = w.hasVisited := rfl
    simp only [this]
    omega

/-- Steps until no frame is left. -/
def run (w : Walk g) : Walk g :=
  match _h : w.frames with
  | [] => w
  | f :: fs => run (w.step f fs)
termination_by w.toDo
decreasing_by exact toDo_step _h

/-- The whole walk from a root. -/
def start (g : CallGraph) (root : Node) : Walk g := (⟨[], [], []⟩ : Walk g).visit root

end Walk

/-- What a walk from a root found. -/
structure Traversal where
  root : Node
  /-- The nodes visited with their depths, in order. -/
  visits : List (Node × Nat)
  backEdges : List (Node × Node)
  /-- The cyclic components met, in the order of their first visited members. -/
  cycles : List (List Node) := []
deriving DecidableEq, Repr

namespace Traversal

/-- Walks from a root. -/
def walk (g : CallGraph) (root : Node) : Traversal :=
  let w := (Walk.start g root).run
  { root, visits := w.visits.reverse, backEdges := w.backEdges.reverse }

/-- The nodes visited, in order. -/
def visited (t : Traversal) : List Node := t.visits.map (·.1)

/-- The names of the sinks visited, in order. -/
def externalSinks (t : Traversal) : List String := t.visited.filterMap Node.sinkName?

/-- The greatest depth reached. -/
def maxDepth (t : Traversal) : Nat := (t.visits.map (·.2)).max?.getD 0

end Traversal
end AsyncMigration
