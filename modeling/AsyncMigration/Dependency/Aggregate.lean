import AsyncMigration.Dependency.Frame

/-!
# What lies below a node

An aggregate tells what a node depends on: the members of its component, whether it can reach itself
again, and the burden of everything else that it reaches. Aggregates are found by one depth-first
search that closes strong components as it leaves them, so that the burden of a component is that of
the components below it. Every node is opened once in the life of a `Memo`; what a memo holds is
never revised, even if the graph grows afterwards.

| here | in `riprap.analysis.dependency` |
| --- | --- |
| `Aggregate`, `Burden` | `NodeAggregate` |
| `Memo` | the tables of `DependencyAnalyzer` |
| `Memo.reached`, `CallGraph.ownKinds` | `DependencyAnalyzer._full`, `DependencyAnalyzer._own_kinds` |
| `Memo.close` | `DependencyAnalyzer._close_component` |
| `Memo.openNode`, `Search.openNode` | `DependencyAnalyzer._open` |
| `Search.step`, `Search.run`, `Memo.search` | `DependencyAnalyzer._compute_from` |
| `Memo.ensure` | `DependencyAnalyzer.aggregate` |
-/

namespace AsyncMigration

/-- What reaching a node brings: its constraints, its pattern kinds, and its name if it is a sink. -/
structure Burden where
  constraints : ConstraintSet := {}
  kinds : PatternKindSet := {}
  sinks : NameSet := {}
deriving DecidableEq, Repr

namespace Burden

/-- The burden of either. -/
def union (a b : Burden) : Burden :=
  ⟨a.constraints.union b.constraints, a.kinds.union b.kinds, a.sinks.union b.sinks⟩

/-- The burden of all. -/
def join (bs : List Burden) : Burden := bs.foldr union {}

/-- What a node itself brings. -/
def own (g : CallGraph) (n : Node) : Burden :=
  ⟨g.ownConstraints n, g.ownKinds n, .ofList n.sinkName?.toList⟩

/-- What a member of a component brings to the other members. It is no sink, since sinks have no
callees. -/
def ofMember (g : CallGraph) (n : Node) : Burden :=
  { constraints := g.ownConstraints n, kinds := g.ownKinds n }

end Burden

/-- What a node depends on. -/
structure Aggregate where
  node : Node
  /-- The nodes that reach this one and are reached by it, this one included, in the order of their
  texts. -/
  component : List Node
  /-- Whether the node reaches itself by at least one call. -/
  cyclic : Bool
  /-- What all nodes reached, other than the node itself, bring together. -/
  below : Burden
deriving DecidableEq, Repr

/-- What has been found out so far. -/
structure Memo where
  /-- The order in which nodes were opened. -/
  index : Table Node Nat := {}
  /-- The earliest node on the component stack that a node is known to reach. -/
  lowlink : Table Node Nat := {}
  /-- The number of nodes opened. -/
  counter : Nat := 0
  aggregates : Table Node Aggregate := {}
deriving Repr

namespace Memo

/-- Opens a node. -/
def openNode (m : Memo) (n : Node) : Memo :=
  { m with
    index := m.index.insert n m.counter
    lowlink := m.lowlink.insert n m.counter
    counter := m.counter + 1 }

/-- Notes that `n` reaches the node that was opened as number `i`. -/
def lower (m : Memo) (n : Node) (i : Nat) : Memo :=
  { m with lowlink := m.lowlink.insert n (min ((m.lowlink.get? n).getD i) i) }

/-- What reaching an aggregated node brings: the node itself and all below it. -/
def reached (m : Memo) (g : CallGraph) (n : Node) : Burden :=
  match m.aggregates.get? n with
  | some a => a.below.union (.own g n)
  | none => {}

/-- Closes a component, given its members. Callees outside the component are closed already. -/
def close (m : Memo) (g : CallGraph) (members : List Node) : Memo :=
  let outside := (members.flatMap g.successors).filter fun c => !members.contains c
  let below := Burden.join (outside.map (m.reached g))
  let component := members.mergeSort fun a b => a.text ≤ b.text
  let cyclic :=
    decide (1 < members.length) || members.head?.any fun n => (g.successors n).contains n
  let aggregate (n : Node) : Aggregate :=
    ⟨n, component, cyclic,
      below.union (.join ((members.filter (· ≠ n)).map (Burden.ofMember g)))⟩
  { m with aggregates := members.foldl (fun t n => t.insert n (aggregate n)) m.aggregates }

end Memo

/-- Parts a stack below the first occurrence of `n`. -/
def splitBelow (n : Node) : List Node → List Node × List Node
  | [] => ([], [])
  | x :: xs =>
    if x = n then ([x], xs)
    else
      let (above, below) := splitBelow n xs
      (x :: above, below)

/-- A search under way. -/
structure Search (g : CallGraph) where
  memo : Memo
  /-- The opened nodes whose components are not closed, newest first. -/
  stack : List Node
  /-- The frames, innermost first. -/
  frames : List (Frame g)
  /-- The members of the cyclic components closed, oldest first. -/
  cycles : List (List Node)

namespace Search

variable {g : CallGraph}

/-- Opens a node. -/
def openNode (s : Search g) (n : Node) : Search g :=
  { s with
    memo := s.memo.openNode n
    stack := n :: s.stack
    frames := .enter g n :: s.frames }

/-- Closes the component of which `n` was opened first. -/
def close (s : Search g) (n : Node) : Search g :=
  let (members, stack) := splitBelow n s.stack
  let memo := s.memo.close g members
  let cycles :=
    match memo.aggregates.get? n with
    | some a => if a.cyclic then s.cycles ++ [a.component] else s.cycles
    | none => s.cycles
  { s with memo, stack, cycles }

/-- Examines the callee `c` of the innermost frame `f`. -/
def examine (s : Search g) (f : Frame g) (fs : List (Frame g)) (c : Node) : Search g :=
  let s := { s with frames := f.advance :: fs }
  if s.memo.aggregates.contains c then s
  else match s.memo.index.get? c with
    | none => s.openNode c
    | some i => if s.stack.contains c then { s with memo := s.memo.lower f.node i } else s

/-- Leaves the innermost frame, all of whose callees have been examined. What the node reaches, its
caller reaches; a node that reaches nothing earlier than itself closes its component. -/
def leave (s : Search g) (n : Node) (fs : List (Frame g)) : Search g :=
  let low := s.memo.lowlink.get? n
  let memo :=
    match fs, low with
    | caller :: _, some i => s.memo.lower caller.node i
    | _, _ => s.memo
  let s := { s with memo, frames := fs }
  if low = s.memo.index.get? n then s.close n else s

/-- One step of the search. -/
def step (s : Search g) (f : Frame g) (fs : List (Frame g)) : Search g :=
  match f.pending with
  | c :: _ => s.examine f fs c
  | [] => s.leave f.node fs

/-- A bound on the steps that remain. -/
def toDo (s : Search g) : Nat := Frame.toDo s.memo.index.contains s.frames

theorem close_index (m : Memo) (g : CallGraph) (members : List Node) :
    (m.close g members).index = m.index := rfl

theorem lower_index (m : Memo) (n : Node) (i : Nat) : (m.lower n i).index = m.index := rfl

theorem toDo_examine {s : Search g} {f : Frame g} {fs : List (Frame g)} {c : Node}
    {cs : List Node} (hs : s.frames = f :: fs) (hf : f.pending = c :: cs) :
    (s.examine f fs c).toDo < s.toDo := by
  have hload := Frame.load_advance hf fs
  simp only [examine]
  split
  · simp only [toDo, Frame.toDo, hs]; omega
  · split
    · next hidx =>
      have hc : c ∈ g.callees := f.known c (by simp [hf])
      have hopen := Frame.unopened_add_le g s.memo.index.contains
        (s.memo.index.insert c s.memo.counter).contains hc (fun n hn => by simp [hn]) (by simp [Table.contains, hidx]) (by simp)
      simp only [toDo, Frame.toDo, openNode, Memo.openNode, Frame.load_enter, hs]
      omega
    · split <;> simp only [toDo, Frame.toDo, lower_index, hs] <;> omega

theorem toDo_leave {s : Search g} {f : Frame g} {fs : List (Frame g)} (hs : s.frames = f :: fs) :
    (s.leave f.node fs).toDo < s.toDo := by
  have hindex : (s.leave f.node fs).memo.index = s.memo.index := by
    simp only [leave]
    split <;> (split <;> simp only [close, close_index, lower_index])
  have hframes : (s.leave f.node fs).frames = fs := by
    simp only [leave]
    split <;> (split <;> simp only [close])
  simp only [toDo, Frame.toDo, hindex, hframes, hs, Frame.load_cons]
  omega

theorem toDo_step {s : Search g} {f : Frame g} {fs : List (Frame g)} (hs : s.frames = f :: fs) :
    (s.step f fs).toDo < s.toDo := by
  unfold step
  split
  · next c cs hf => exact toDo_examine hs hf
  · exact toDo_leave hs

/-- Steps until no frame is left. -/
def run (s : Search g) : Search g :=
  match _h : s.frames with
  | [] => s
  | f :: fs => run (s.step f fs)
termination_by s.toDo
decreasing_by exact toDo_step _h

end Search

namespace Memo

/-- Searches from a node that has not been opened; gives the cyclic components closed, too. -/
def search (m : Memo) (g : CallGraph) (n : Node) : Memo × List (List Node) :=
  let s := (Search.openNode ⟨m, [], [], []⟩ n : Search g).run
  (s.memo, s.cycles)

/-- The aggregate of a node is found unless it is there already. -/
def ensure (m : Memo) (g : CallGraph) (n : Node) : Memo × List (List Node) :=
  if m.aggregates.contains n then (m, []) else m.search g n

end Memo
end AsyncMigration
