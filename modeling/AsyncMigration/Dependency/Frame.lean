import AsyncMigration.CallGraph

/-!
# Searching the call graph

Both searches of the call graph, for components and for a walk from a root, are depth first with an
explicit stack of frames: a node and those of its callees that have not been examined yet. Each step
examines one callee, opens one, or leaves a frame, and `toDo` bounds the steps that remain: the
callees pending in the frames, and what every node that has not been opened yet can still bring.

| here | in `riprap.analysis.dependency` |
| --- | --- |
| `Frame` | `_Frame` |
-/

namespace AsyncMigration

/-- A node whose callees are being examined. Only nodes that some call leads to are pending. -/
structure Frame (g : CallGraph) where
  node : Node
  pending : List Node
  known : ∀ c ∈ pending, c ∈ g.callees

namespace Frame

variable {g : CallGraph}

/-- The frame of a node none of whose callees has been examined. -/
def enter (g : CallGraph) (n : Node) : Frame g :=
  ⟨n, g.successors n, fun _ h => CallGraph.mem_callees_of_mem_successors h⟩

/-- The frame after its first pending callee has been examined. -/
def advance (f : Frame g) : Frame g :=
  ⟨f.node, f.pending.tail, fun c h => f.known c (List.mem_of_mem_tail h)⟩

/-- The weight of a list. -/
def weight {α : Type} (w : α → Nat) : List α → Nat
  | [] => 0
  | x :: xs => w x + weight w xs

/-- What the frames still have to examine, and their own ends. -/
def load (fs : List (Frame g)) : Nat := weight (fun f => f.pending.length + 1) fs

/-- What the nodes that have not been opened can still bring. -/
def unopened (g : CallGraph) (isOpened : Node → Bool) : Nat :=
  weight (fun c => (g.successors c).length + 2) (g.callees.filter fun c => !isOpened c)

/-- A bound on the steps that a search has to make yet. -/
def toDo (isOpened : Node → Bool) (fs : List (Frame g)) : Nat := unopened g isOpened + load fs

/-- Strengthening a filter so that it drops an element loses at least what that element weighs. -/
theorem weight_filter_add_le {α : Type} (w : α → Nat) (p q : α → Bool) (hpq : ∀ x, q x → p x) {a : α}
    (hp : p a = true) (hq : q a = false) {l : List α} (ha : a ∈ l) :
    weight w (l.filter q) + w a ≤ weight w (l.filter p) := by
  have mono : ∀ l : List α, weight w (l.filter q) ≤ weight w (l.filter p) := by
    intro l
    induction l with
    | nil => simp
    | cons x l ih =>
      by_cases hx : q x = true
      · simp [hx, hpq x hx, weight, ih]
      · by_cases hx' : p x = true <;> simp [hx, hx', weight] <;> omega
  induction l with
  | nil => simp at ha
  | cons x l ih =>
    by_cases hxa : x = a
    · subst hxa
      simp only [List.filter_cons, hp, hq, Bool.false_eq_true, ↓reduceIte, weight]
      have := mono l
      omega
    · have := ih ((List.mem_cons.1 ha).resolve_left (Ne.symm hxa))
      by_cases hx : q x = true
      · simp [hx, hpq x hx, weight]; omega
      · by_cases hx' : p x = true <;> simp [hx, hx', weight] <;> omega

/-- Opening a callee spends what it was still able to bring. -/
theorem unopened_add_le (g : CallGraph) (was now : Node → Bool) {c : Node} (hc : c ∈ g.callees)
    (hmono : ∀ n, was n → now n) (hwas : was c = false) (hnow : now c = true) :
    unopened g now + ((g.successors c).length + 2) ≤ unopened g was :=
  weight_filter_add_le (fun c => (g.successors c).length + 2) (fun c => !was c) (fun c => !now c)
    (fun x hx => by
      have := hmono x
      cases h : was x <;> simp_all)
    (by simp [hwas]) (by simp [hnow]) hc

theorem load_cons (f : Frame g) (fs : List (Frame g)) :
    load (f :: fs) = f.pending.length + 1 + load fs := rfl

theorem load_enter (n : Node) (fs : List (Frame g)) :
    load (enter g n :: fs) = (g.successors n).length + 1 + load fs := load_cons _ _

theorem load_advance {f : Frame g} {c : Node} {cs : List Node} (h : f.pending = c :: cs)
    (fs : List (Frame g)) : load (f.advance :: fs) + 1 = load (f :: fs) := by
  simp [load_cons, advance, h]; omega

end Frame
end AsyncMigration
