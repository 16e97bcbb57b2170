import AsyncMigration.Proofs.Reach

/-!
# The search closes strong components

The search keeps the opened nodes whose components are not closed on a stack. What carries the proof
is `Search.Sound`: a frame reaches all that was opened after it, a node on the stack without a frame
reaches an earlier one, and a call examined from the stack is caught by the lowlink of a frame
between its caller and any frame below it. Nothing in it hangs on what a memo held when the search
began, so it serves for graphs that have grown in the meantime as well.

* `Search.Sound.closable` — what a search closes is strongly connected, and each call out of it
  leads to a node that is aggregated already.
* `Memo.ensure_spec` — so whatever closing such a component preserves, `ensure` preserves; it leaves
  no node half done and aggregates the node it is asked about.
-/

namespace AsyncMigration

/-! ## Stacks -/

theorem splitBelow_append (n : Node) (l : List Node) :
    (splitBelow n l).1 ++ (splitBelow n l).2 = l := by
  induction l with
  | nil => rfl
  | cons x xs ih =>
    unfold splitBelow
    split
    · rfl
    · simpa using ih

/-- Of a stack in falling order a split keeps above what is not below `n`. -/
theorem le_of_mem_splitBelow {num : Node → Nat} {n x : Node} {l : List Node}
    (hl : l.Pairwise fun a b => num b < num a) (hn : n ∈ l) (hx : x ∈ (splitBelow n l).1) :
    num n ≤ num x := by
  induction l with
  | nil => cases hn
  | cons y ys ih =>
    obtain ⟨hy, hys⟩ := List.pairwise_cons.1 hl
    unfold splitBelow at hx
    split at hx
    · next h =>
      rw [List.mem_singleton.1 hx, h]
    · next h =>
      have hn' : n ∈ ys := (List.mem_cons.1 hn).resolve_left (Ne.symm h)
      rcases List.mem_cons.1 hx with rfl | hx
      · exact Nat.le_of_lt (hy n hn')
      · exact ih hys hn' hx

theorem lt_of_mem_splitBelow {num : Node → Nat} {n x : Node} {l : List Node}
    (hl : l.Pairwise fun a b => num b < num a) (hn : n ∈ l) (hx : x ∈ (splitBelow n l).2) :
    num x < num n := by
  induction l with
  | nil => cases hn
  | cons y ys ih =>
    obtain ⟨hy, hys⟩ := List.pairwise_cons.1 hl
    unfold splitBelow at hx
    split at hx
    · next h => exact h ▸ hy x hx
    · next h => exact ih hys ((List.mem_cons.1 hn).resolve_left (Ne.symm h)) hx

theorem mem_splitBelow {n x : Node} {l : List Node} :
    x ∈ l ↔ x ∈ (splitBelow n l).1 ∨ x ∈ (splitBelow n l).2 := by
  rw [← List.mem_append, splitBelow_append]

/-! ## Closing a set of nodes -/

namespace Memo

variable {g : CallGraph} {m : Memo}

/-- The aggregate that closing `members` gives to one of them. -/
def closedAggregate (m : Memo) (g : CallGraph) (members : List Node) (n : Node) : Aggregate :=
  { node := n
    component := members.mergeSort fun a b => a.text ≤ b.text
    cyclic := decide (1 < members.length) || members.head?.any fun n => (g.successors n).contains n
    below := (Burden.join (((members.flatMap g.successors).filter fun c => !members.contains c).map
        (m.reached g))).union
      (.join ((members.filter (· ≠ n)).map (Burden.ofMember g))) }

theorem get?_foldl_insert (f : Node → Aggregate) (ns : List Node) (t : Table Node Aggregate)
    (n : Node) : (ns.foldl (fun t n => t.insert n (f n)) t).get? n
      = if n ∈ ns then some (f n) else t.get? n := by
  induction ns generalizing t with
  | nil => simp
  | cons x xs ih =>
    rw [List.foldl_cons, ih, Table.get?_insert]
    by_cases hx : x = n
    · subst hx; simp
    · simp [hx, Ne.symm hx]

theorem get?_close (members : List Node) (n : Node) :
    (m.close g members).aggregates.get? n
      = if n ∈ members then some (m.closedAggregate g members n) else m.aggregates.get? n :=
  get?_foldl_insert (m.closedAggregate g members) members m.aggregates n

theorem contains_close (members : List Node) (n : Node) :
    (m.close g members).aggregates.contains n = true
      ↔ n ∈ members ∨ m.aggregates.contains n = true := by
  unfold Table.contains
  rw [get?_close]
  by_cases hn : n ∈ members <;> simp [hn]

/-- What a search may close: a strongly connected set of nodes without aggregates, all of whose
calls out of it lead to nodes with aggregates. -/
structure Closable (m : Memo) (g : CallGraph) (members : List Node) : Prop where
  nodup : members.Nodup
  fresh : ∀ n ∈ members, ¬ m.aggregates.contains n = true
  strong : ∀ a ∈ members, ∀ b ∈ members, g.Reaches a b
  covered : ∀ n ∈ members, ∀ c ∈ g.successors n, c ∈ members ∨ m.aggregates.contains c = true

/-- Between searches every node that was opened has an aggregate. -/
structure Settled (m : Memo) : Prop where
  closed : ∀ n, m.index.contains n = m.aggregates.contains n
  lowlink : ∀ n, m.lowlink.contains n = m.index.contains n

theorem settled_empty : ({} : Memo).Settled := ⟨fun _ => rfl, fun _ => rfl⟩

end Memo

/-! ## The invariant -/

namespace Search

variable {g : CallGraph} {s : Search g} {f : Frame g} {fs : List (Frame g)} {c n r : Node}
  {cs ps : List Node} {late : Node → Node → Prop}

/-- The number under which a node was opened. -/
def num (s : Search g) (n : Node) : Nat := (s.memo.index.get? n).getD 0

/-- The least number of a node that a node is known to reach. -/
def low (s : Search g) (n : Node) : Nat := (s.memo.lowlink.get? n).getD 0

/-- The nodes of the frames, innermost first. -/
def path (s : Search g) : List Node := s.frames.map (·.node)

/-- Between any node of the path that was opened no later than `n` and `n` itself, some node of the
path knows of a node that was opened no later than `c`. -/
def Caught (s : Search g) (n c : Node) : Prop :=
  ∀ p ∈ s.path, s.num p ≤ s.num n →
    ∃ q ∈ s.path, s.num p ≤ s.num q ∧ s.num q ≤ s.num n ∧ s.low q ≤ s.num c

/-- The stack holds the nodes that were opened and have no aggregate, latest first, and the path is
part of it. -/
structure Stacked (s : Search g) : Prop where
  stack_iff : ∀ n, n ∈ s.stack ↔
    s.memo.index.contains n = true ∧ ¬ s.memo.aggregates.contains n = true
  opened : ∀ n, s.memo.aggregates.contains n = true → s.memo.index.contains n = true
  known : ∀ n, s.memo.lowlink.contains n = s.memo.index.contains n
  num_lt : ∀ n ∈ s.stack, s.num n < s.memo.counter
  stack_order : s.stack.Pairwise fun a b => s.num b < s.num a
  path_mem : ∀ p ∈ s.path, p ∈ s.stack
  path_order : s.path.Pairwise fun a b => s.num b < s.num a

/-- The path reaches what was opened after it, and every call from the stack is pending, leads to an
aggregated node, is caught, or is one of the calls in `late`, which are being examined. -/
structure Explored (late : Node → Node → Prop) (s : Search g) : Prop where
  path_reach : ∀ p ∈ s.path, ∀ n ∈ s.stack, s.num p ≤ s.num n → g.Reaches p n
  pending_mem : ∀ n c, Frame.Pending s.frames n c → c ∈ g.successors n
  call : ∀ n ∈ s.stack, ∀ c ∈ g.successors n,
    Frame.Pending s.frames n c ∨ s.memo.aggregates.contains c = true ∨ (c ∈ s.stack ∧ s.Caught n c) ∨ late n c

/-- The lowlink of a node is the number of a node on the stack that it reaches, and of an earlier
one if the node is off the path. -/
structure Lowered (s : Search g) : Prop where
  low_reach : ∀ n ∈ s.stack, ∃ m ∈ s.stack, s.num m = s.low n ∧ g.Reaches n m
  low_le : ∀ n ∈ s.stack, s.low n ≤ s.num n
  low_lt : ∀ n ∈ s.stack, n ∉ s.path → s.low n < s.num n

/-- The invariant of the search, but for the calls in `late`. -/
structure SoundBut (late : Node → Node → Prop) (s : Search g) : Prop where
  stacked : s.Stacked
  explored : s.Explored late
  lowered : s.Lowered

/-- The invariant of the search. -/
def Sound (s : Search g) : Prop := s.SoundBut fun _ _ => False

namespace Stacked

theorem index_get? (h : s.Stacked) (hn : n ∈ s.stack) : s.memo.index.get? n = some (s.num n) := by
  obtain ⟨i, hi⟩ := Option.isSome_iff_exists.1 ((h.stack_iff n).1 hn).1
  simp [num, hi]

theorem lowlink_get? (h : s.Stacked) (hn : n ∈ s.stack) :
    s.memo.lowlink.get? n = some (s.low n) := by
  obtain ⟨i, hi⟩ := Option.isSome_iff_exists.1 ((h.known n).trans ((h.stack_iff n).1 hn).1)
  simp [low, hi]

/-- The innermost node was opened last of the path. -/
theorem num_le_top (h : s.Stacked) (hs : s.path = r :: ps) {p : Node} (hp : p ∈ s.path) :
    s.num p ≤ s.num r := by
  have horder := h.path_order
  rw [hs] at horder hp
  rcases List.mem_cons.1 hp with rfl | hp
  · exact Nat.le_refl _
  · exact Nat.le_of_lt ((List.pairwise_cons.1 horder).1 p hp)

/-- A node of the path opened no earlier than the innermost one is that one. -/
theorem eq_top (h : s.Stacked) (hs : s.path = r :: ps) {p : Node} (hp : p ∈ s.path)
    (hle : s.num r ≤ s.num p) : p = r := by
  have horder := h.path_order
  rw [hs] at horder hp
  rcases List.mem_cons.1 hp with rfl | hp
  · rfl
  · have := (List.pairwise_cons.1 horder).1 p hp
    omega

end Stacked

namespace SoundBut

/-- Every node on the stack reaches the innermost node of the path: off the path it reaches an
earlier node on the stack, and the path reaches all that was opened after it. -/
theorem reaches_top (h : s.SoundBut late) (hs : s.path = r :: ps) (hn : n ∈ s.stack) :
    g.Reaches n r := by
  induction hk : s.num n using Nat.strong_induction_on generalizing n with
  | _ k ih =>
    by_cases hp : n ∈ s.path
    · have hr : r ∈ s.path := by rw [hs]; exact List.mem_cons_self
      exact h.explored.path_reach n hp r (h.stacked.path_mem r hr) (h.stacked.num_le_top hs hp)
    · have hlt := h.lowered.low_lt n hn hp
      obtain ⟨m, hm, hnum, hreach⟩ := h.lowered.low_reach n hn
      exact hreach.trans (ih (s.num m) (by omega) hm rfl)

/-- Without frames no node is left on the stack: each would reach an earlier one. -/
theorem stack_nil (h : s.SoundBut late) (hs : s.path = []) : s.stack = [] := by
  have hno : ∀ k, ∀ n ∈ s.stack, s.num n ≠ k := by
    intro k
    induction k using Nat.strong_induction_on with
    | _ k ih =>
      intro n hn hk
      have hlt := h.lowered.low_lt n hn (by simp [hs])
      obtain ⟨m, hm, hnum, -⟩ := h.lowered.low_reach n hn
      exact ih (s.num m) (by omega) m hm rfl
  exact List.eq_nil_iff_forall_not_mem.2 fun n hn => hno _ n hn rfl

/-! ## Examining a call -/

/-- Taking the first pending call of the innermost frame leaves that call to be dealt with. -/
theorem advance (h : s.Sound) (hs : s.frames = f :: fs) (hf : f.pending = c :: cs) :
    ({ s with frames := f.advance :: fs } : Search g).SoundBut fun n x => n = f.node ∧ x = c := by
  have hpath : ({ s with frames := f.advance :: fs } : Search g).path = s.path := by
    simp [path, hs, Frame.advance]
  have hpending := fun {n x} => Frame.pending_advance (n := n) (x := x) hs hf
  obtain ⟨hst, hex, hlo⟩ := h
  refine ⟨?_, ⟨?_, ?_, ?_⟩, ?_⟩
  · exact { hst with
      path_mem := by rw [hpath]; exact hst.path_mem
      path_order := by rw [hpath]; exact hst.path_order }
  · rw [hpath]; exact hex.path_reach
  · intro n x hx
    exact hex.pending_mem n x (hpending.1 (Or.inl hx))
  · intro n hn x hx
    rcases hex.call n hn x hx with hp | hclosed | ⟨hx, hcaught⟩ | hfalse
    · rcases hpending.2 hp with hp | hlate
      · exact Or.inl hp
      · exact Or.inr (Or.inr (Or.inr hlate))
    · exact Or.inr (Or.inl hclosed)
    · refine Or.inr (Or.inr (Or.inl ⟨hx, ?_⟩))
      unfold Caught
      rw [hpath]
      exact hcaught
    · exact hfalse.elim
  · exact { hlo with low_lt := by rw [hpath]; exact hlo.low_lt }

/-- Calls that have been dealt with need not be excepted. -/
theorem resolve (h : s.SoundBut late) (hlate : ∀ n c, late n c →
    s.memo.aggregates.contains c = true ∨ (c ∈ s.stack ∧ s.Caught n c)) : s.Sound := by
  refine ⟨h.stacked, { h.explored with call := fun n hn c hc => ?_ }, h.lowered⟩
  rcases h.explored.call n hn c hc with hp | hclosed | hcaught | hl
  · exact Or.inl hp
  · exact Or.inr (Or.inl hclosed)
  · exact Or.inr (Or.inr (Or.inl hcaught))
  · rcases hlate n c hl with hclosed | hcaught
    · exact Or.inr (Or.inl hclosed)
    · exact Or.inr (Or.inr (Or.inl hcaught))

end SoundBut

/-! ## Opening a node -/

section Opening

variable (hst : s.Stacked) (hnew : s.memo.index.get? c = none)

theorem stack_openNode (s : Search g) (c : Node) : (s.openNode c).stack = c :: s.stack := rfl

theorem path_openNode (s : Search g) (c : Node) : (s.openNode c).path = c :: s.path := rfl

theorem num_openNode (s : Search g) (c : Node) : (s.openNode c).num c = s.memo.counter := by
  simp [num, openNode, Memo.openNode]

theorem low_openNode (s : Search g) (c : Node) : (s.openNode c).low c = s.memo.counter := by
  simp [low, openNode, Memo.openNode]

include hst hnew in
theorem ne_of_new (hn : n ∈ s.stack) : c ≠ n := by
  rintro rfl
  rw [hst.index_get? hn] at hnew
  cases hnew

include hst hnew in
theorem num_openNode_of_mem (hn : n ∈ s.stack) : (s.openNode c).num n = s.num n := by
  simp [num, openNode, Memo.openNode, ne_of_new hst hnew hn]

include hst hnew in
theorem low_openNode_of_mem (hn : n ∈ s.stack) : (s.openNode c).low n = s.low n := by
  simp [low, openNode, Memo.openNode, ne_of_new hst hnew hn]

include hst hnew in
theorem Stacked.openNode : (s.openNode c).Stacked := by
  have hnum := fun {n} => num_openNode_of_mem hst hnew (n := n)
  have hclosed : ¬ s.memo.aggregates.contains c = true := fun hcl => by
    have := hst.opened c hcl
    simp [Table.contains, hnew] at this
  refine ⟨fun n => ?_, fun n hn => ?_, fun n => ?_, fun n hn => ?_, ?_, fun p hp => ?_, ?_⟩
  · rw [stack_openNode, List.mem_cons, hst.stack_iff]
    show _ ↔ (s.memo.index.insert c s.memo.counter).contains n = true
      ∧ ¬ s.memo.aggregates.contains n = true
    rw [Table.contains_insert]
    by_cases hcn : c = n
    · subst hcn; simpa using hclosed
    · simp [hcn, Ne.symm hcn]
  · show (s.memo.index.insert c s.memo.counter).contains n = true
    rw [Table.contains_insert, hst.opened n hn, Bool.or_true]
  · show (s.memo.lowlink.insert c s.memo.counter).contains n
      = (s.memo.index.insert c s.memo.counter).contains n
    rw [Table.contains_insert, Table.contains_insert, hst.known]
  · show _ < s.memo.counter + 1
    rcases List.mem_cons.1 hn with rfl | hn
    · rw [num_openNode]; omega
    · have := hst.num_lt n hn
      rw [hnum hn]; omega
  · rw [stack_openNode]
    refine List.pairwise_cons.2 ⟨fun n hn => ?_, hst.stack_order.imp_of_mem fun ha hb hab => ?_⟩
    · rw [hnum hn, num_openNode]; exact hst.num_lt n hn
    · rw [hnum ha, hnum hb]; exact hab
  · rcases List.mem_cons.1 hp with rfl | hp
    · exact List.mem_cons_self
    · exact List.mem_cons_of_mem _ (hst.path_mem p hp)
  · rw [path_openNode]
    refine List.pairwise_cons.2 ⟨fun n hn => ?_, hst.path_order.imp_of_mem fun ha hb hab => ?_⟩
    · have hn := hst.path_mem n hn
      rw [hnum hn, num_openNode]; exact hst.num_lt n hn
    · rw [hnum (hst.path_mem _ ha), hnum (hst.path_mem _ hb)]; exact hab

include hst hnew in
theorem Lowered.openNode (hlo : s.Lowered) : (s.openNode c).Lowered := by
  have hnum := fun {n} => num_openNode_of_mem hst hnew (n := n)
  have hlow := fun {n} => low_openNode_of_mem hst hnew (n := n)
  refine ⟨fun n hn => ?_, fun n hn => ?_, fun n hn hnp => ?_⟩
  · rcases List.mem_cons.1 hn with rfl | hn'
    · exact ⟨n, hn, by rw [num_openNode, low_openNode], .refl g n⟩
    · obtain ⟨m, hm, he, hr⟩ := hlo.low_reach n hn'
      exact ⟨m, List.mem_cons_of_mem _ hm, by rw [hnum hm, hlow hn', he], hr⟩
  · rcases List.mem_cons.1 hn with rfl | hn'
    · rw [num_openNode, low_openNode]
    · rw [hnum hn', hlow hn']; exact hlo.low_le n hn'
  · rw [path_openNode, List.mem_cons, not_or] at hnp
    have hn' := (List.mem_cons.1 hn).resolve_left hnp.1
    rw [hnum hn', hlow hn']; exact hlo.low_lt n hn' hnp.2

include hst hnew in
/-- What was caught stays caught: the node that is opened comes after all of the stack. -/
theorem Caught.openNode {x : Node} (hn : n ∈ s.stack) (h : ∀ p ∈ s.path, s.num p ≤ s.num n →
    ∃ q ∈ s.path, s.num p ≤ s.num q ∧ s.num q ≤ s.num n ∧ s.low q ≤ (s.openNode c).num x) :
    (s.openNode c).Caught n x := by
  have hnum := fun {n} => num_openNode_of_mem hst hnew (n := n)
  intro p hp hle
  rw [hnum hn] at hle
  rcases List.mem_cons.1 hp with rfl | hp
  · rw [num_openNode] at hle
    have := hst.num_lt n hn
    omega
  · rw [hnum (hst.path_mem p hp)] at hle
    obtain ⟨q, hq, h1, h2, h3⟩ := h p hp hle
    refine ⟨q, List.mem_cons_of_mem _ hq, ?_⟩
    rw [hnum (hst.path_mem p hp), hnum (hst.path_mem q hq), hnum hn,
      low_openNode_of_mem hst hnew (hst.path_mem q hq)]
    exact ⟨h1, h2, h3⟩

include hnew in
/-- A node that has not been opened may be, if the whole path reaches it; that deals with the calls
to it from the innermost node. -/
theorem SoundBut.openNode (h : s.SoundBut late) (hreach : ∀ p ∈ s.path, g.Reaches p c)
    (hlate : ∀ n x, late n x → x = c ∧ ∃ ps, s.path = n :: ps) : (s.openNode c).Sound := by
  obtain ⟨hst, hex, hlo⟩ := h
  have hnum := fun {n} => num_openNode_of_mem hst hnew (n := n)
  have hframes : (s.openNode c).frames = .enter g c :: s.frames := rfl
  refine ⟨hst.openNode hnew, ⟨fun p hp n hn hle => ?_, fun n x hx => ?_, fun n hn x hx => ?_⟩,
    hlo.openNode hst hnew⟩
  · rcases List.mem_cons.1 hp with rfl | hp' <;> rcases List.mem_cons.1 hn with rfl | hn'
    · exact .refl g _
    · have := hst.num_lt n hn'
      rw [num_openNode, hnum hn'] at hle
      omega
    · exact hreach p hp'
    · rw [hnum (hst.path_mem p hp'), hnum hn'] at hle
      exact hex.path_reach p hp' n hn' hle
  · rcases (Frame.pending_iff hframes).1 hx with ⟨rfl, hx'⟩ | hx'
    · exact hx'
    · exact hex.pending_mem n x hx'
  · rcases List.mem_cons.1 hn with rfl | hn'
    · exact Or.inl ((Frame.pending_iff hframes).2 (Or.inl ⟨rfl, hx⟩))
    rcases hex.call n hn' x hx with hp | hclosed | ⟨hx', hcaught⟩ | hl
    · exact Or.inl ((Frame.pending_iff hframes).2 (Or.inr hp))
    · exact Or.inr (Or.inl hclosed)
    · refine Or.inr (Or.inr (Or.inl ⟨List.mem_cons_of_mem _ hx', .openNode hst hnew hn' ?_⟩))
      rw [hnum hx']; exact hcaught
    · -- the innermost node knows of itself, which was opened before its new callee
      obtain ⟨rfl, ps, hps⟩ := hlate n x hl
      refine Or.inr (Or.inr (Or.inl ⟨List.mem_cons_self, .openNode hst hnew hn' fun p hp hle => ?_⟩))
      refine ⟨n, by rw [hps]; exact List.mem_cons_self, hle, Nat.le_refl _, ?_⟩
      have := hlo.low_le n hn'
      have := hst.num_lt n hn'
      rw [num_openNode]; omega

end Opening

/-! ## Lowering a lowlink -/

theorem low_lower (hst : s.Stacked) (hn : n ∈ s.stack) (i : Nat) (x : Node) :
    ({ s with memo := s.memo.lower n i } : Search g).low x
      = if n = x then min (s.low n) i else s.low x := by
  show ((s.memo.lowlink.insert n (min ((s.memo.lowlink.get? n).getD i) i)).get? x).getD 0 = _
  rw [Table.get?_insert, hst.lowlink_get? hn]
  split <;> rfl

theorem low_lower_le (hst : s.Stacked) (hn : n ∈ s.stack) (i : Nat) (x : Node) :
    ({ s with memo := s.memo.lower n i } : Search g).low x ≤ s.low x := by
  rw [low_lower hst hn]
  split
  · next h => subst h; exact Nat.min_le_left ..
  · exact Nat.le_refl _

/-- A node may be noted to reach what it reaches. -/
theorem SoundBut.lower (h : s.SoundBut late) (hn : n ∈ s.stack) {m : Node} (hm : m ∈ s.stack)
    (hreach : g.Reaches n m) :
    ({ s with memo := s.memo.lower n (s.num m) } : Search g).SoundBut late := by
  obtain ⟨hst, hex, hlo⟩ := h
  have hle := low_lower_le hst hn (s.num m)
  refine ⟨{ hst with known := fun x => ?_ }, { hex with call := fun x hx y hy => ?_ },
    ⟨fun x hx => ?_, fun x hx => ?_, fun x hx hxp => ?_⟩⟩
  · show (s.memo.lowlink.insert n _).contains x = s.memo.index.contains x
    rw [Table.contains_insert, hst.known]
    by_cases hnx : n = x
    · subst hnx; simp [((hst.stack_iff n).1 hn).1]
    · simp [hnx]
  · rcases hex.call x hx y hy with hp | hclosed | ⟨hy', hcaught⟩ | hl
    · exact Or.inl hp
    · exact Or.inr (Or.inl hclosed)
    · refine Or.inr (Or.inr (Or.inl ⟨hy', fun p hp hpx => ?_⟩))
      obtain ⟨q, hq, h1, h2, h3⟩ := hcaught p hp hpx
      exact ⟨q, hq, h1, h2, Nat.le_trans (hle q) h3⟩
    · exact Or.inr (Or.inr (Or.inr hl))
  · rw [low_lower hst hn]
    split
    · next hnx =>
      subst hnx
      rcases Nat.le_total (s.low n) (s.num m) with hl | hl
      · rw [Nat.min_eq_left hl]; exact hlo.low_reach n hx
      · rw [Nat.min_eq_right hl]; exact ⟨m, hm, rfl, hreach⟩
    · exact hlo.low_reach x hx
  · exact Nat.le_trans (hle x) (hlo.low_le x hx)
  · exact Nat.lt_of_le_of_lt (hle x) (hlo.low_lt x hx hxp)

/-! ## Leaving a frame -/

section Leaving

variable (h : s.Sound) (hs : s.frames = f :: fs) (hf : f.pending = [])

include hs in
theorem path_cons : s.path = f.node :: fs.map (·.node) := by simp [path, hs]

include hs in
theorem path_drop : ∀ p ∈ ({ s with frames := fs } : Search g).path, p ∈ s.path := by
  intro p hp
  rw [path_cons hs]
  exact List.mem_cons_of_mem _ hp

include hs hf in
theorem pending_drop : Frame.Pending s.frames n c ↔ Frame.Pending fs n c := by
  rw [Frame.pending_iff hs, hf]
  simp

include h hs in
theorem Stacked.drop : ({ s with frames := fs } : Search g).Stacked := by
  obtain ⟨hst, -, -⟩ := h
  refine { hst with path_mem := fun p hp => hst.path_mem p (path_drop hs p hp), path_order := ?_ }
  have := hst.path_order
  rw [path_cons hs] at this
  exact (List.pairwise_cons.1 this).2

include h hs hf in
/-- A node that reaches an earlier one stays on the stack when its frame is left, provided that its
caller knows what it knows. -/
theorem Sound.drop (hlow : ∀ p ps, fs.map (·.node) = p :: ps → s.low p ≤ s.low f.node)
    (hne : s.low f.node ≠ s.num f.node) : ({ s with frames := fs } : Search g).Sound := by
  have hst' := Stacked.drop h hs
  obtain ⟨hst, hex, hlo⟩ := h
  refine ⟨hst', ⟨?_, ?_, ?_⟩, ⟨hlo.low_reach, hlo.low_le, ?_⟩⟩
  · exact fun p hp => hex.path_reach p (path_drop hs p hp)
  · exact fun n c hc => hex.pending_mem n c ((pending_drop hs hf).2 hc)
  · intro n hn c hc
    rcases hex.call n hn c hc with hp | hclosed | ⟨hc', hcaught⟩ | hfalse
    · exact Or.inl ((pending_drop hs hf).1 hp)
    · exact Or.inr (Or.inl hclosed)
    · refine Or.inr (Or.inr (Or.inl ⟨hc', fun p hp hpn => ?_⟩))
      obtain ⟨q, hq, h1, h2, h3⟩ := hcaught p (path_drop hs p hp) hpn
      rw [path_cons hs] at hq
      rcases List.mem_cons.1 hq with rfl | hq
      · -- what the frame caught, its caller catches now
        obtain ⟨r, rs, hr⟩ := List.exists_cons_of_ne_nil (List.ne_nil_of_mem hp)
        have hrp : r ∈ s.path := path_drop hs r (by rw [hr]; exact List.mem_cons_self)
        have := hst'.num_le_top hr hp
        have := hst.num_le_top (path_cons hs) hrp
        exact ⟨r, by rw [hr]; exact List.mem_cons_self, ‹_›, Nat.le_trans ‹_› h2,
          Nat.le_trans (hlow r rs hr) h3⟩
      · exact ⟨q, hq, h1, h2, h3⟩
    · exact hfalse.elim
  · intro n hn hnp
    by_cases hnf : n = f.node
    · subst hnf
      exact Nat.lt_of_le_of_ne (hlo.low_le _ hn) hne
    · refine hlo.low_lt n hn ?_
      rw [path_cons hs, List.mem_cons, not_or]
      exact ⟨hnf, hnp⟩

include h hs in
theorem top_mem_stack : f.node ∈ s.stack :=
  h.stacked.path_mem _ (by rw [path_cons hs]; exact List.mem_cons_self)

include h hs hf in
/-- What lies on the stack from a node on that knows of no earlier one may be closed: the node
reaches it and is reached by it, and no call from there leads further down the stack. -/
theorem Sound.closable (hlow : s.low f.node = s.num f.node) :
    s.memo.Closable g (splitBelow f.node s.stack).1 := by
  have hr := top_mem_stack h hs
  have htop := path_cons hs
  have ⟨hst, hex, hlo⟩ := h
  have hrp : f.node ∈ s.path := by rw [htop]; exact List.mem_cons_self
  have hmem : ∀ n ∈ (splitBelow f.node s.stack).1, n ∈ s.stack ∧ s.num f.node ≤ s.num n :=
    fun n hn => ⟨mem_splitBelow.2 (Or.inl hn), le_of_mem_splitBelow hst.stack_order hr hn⟩
  refine ⟨?_, fun n hn => ((hst.stack_iff n).1 (hmem n hn).1).2, fun a ha b hb => ?_,
    fun n hn c hc => ?_⟩
  · -- numbers fall along the stack
    have hnodup : s.stack.Nodup := hst.stack_order.imp fun hab he => by subst he; omega
    rw [← splitBelow_append f.node s.stack] at hnodup
    exact (List.nodup_append.1 hnodup).1
  · exact (h.reaches_top htop (hmem a ha).1).trans
      (hex.path_reach _ hrp b (hmem b hb).1 (hmem b hb).2)
  · obtain ⟨hns, hle⟩ := hmem n hn
    rcases hex.call n hns c hc with hp | hclosed | ⟨hc', hcaught⟩ | hfalse
    · -- callers with pending calls lie further down
      obtain ⟨f', hf', rfl, -⟩ := (pending_drop hs hf).1 hp
      have horder := hst.path_order
      rw [htop] at horder
      have := (List.pairwise_cons.1 horder).1 f'.node (List.mem_map.2 ⟨f', hf', rfl⟩)
      omega
    · exact Or.inr hclosed
    · -- a callee further down would have been caught, and the node would know of it
      obtain ⟨q, hq, h1, -, h3⟩ := hcaught _ hrp hle
      obtain rfl := hst.eq_top htop hq h1
      refine Or.inl ((mem_splitBelow.1 hc').resolve_right fun hbelow => ?_)
      have := lt_of_mem_splitBelow hst.stack_order hr hbelow
      omega
    · exact hfalse.elim

include h hs hf in
/-- Closing takes the component off the stack and leaves the rest as it was. -/
theorem Sound.close : (({ s with frames := fs } : Search g).close f.node).Sound := by
  have hst' := Stacked.drop h hs
  have hr := top_mem_stack h hs
  obtain ⟨hst, hex, hlo⟩ := h
  set t : Search g := ({ s with frames := fs } : Search g).close f.node with ht
  have hstack : t.stack = (splitBelow f.node s.stack).2 := rfl
  have hmem : ∀ {n}, n ∈ t.stack → n ∈ s.stack := fun hn => mem_splitBelow.2 (Or.inr hn)
  have hlt : ∀ {n}, n ∈ t.stack ↔ n ∈ s.stack ∧ s.num n < s.num f.node := by
    intro n
    refine ⟨fun hn => ⟨hmem hn, lt_of_mem_splitBelow hst.stack_order hr hn⟩, fun ⟨hn, hlt⟩ => ?_⟩
    refine (mem_splitBelow.1 hn).resolve_left fun habove => ?_
    have := le_of_mem_splitBelow hst.stack_order hr habove
    omega
  have hclosed : ∀ n, t.memo.aggregates.contains n = true ↔
      n ∈ (splitBelow f.node s.stack).1 ∨ s.memo.aggregates.contains n = true :=
    fun n => Memo.contains_close _ n
  have hpath : ∀ p ∈ t.path, p ∈ s.path ∧ p ∈ t.stack := by
    intro p hp
    have horder := hst.path_order
    rw [path_cons hs] at horder
    exact ⟨path_drop hs p hp, hlt.2 ⟨hst'.path_mem p hp, (List.pairwise_cons.1 horder).1 p hp⟩⟩
  refine ⟨⟨fun n => ?_, fun n hn => ?_, hst.known, fun n hn => hst.num_lt n (hmem hn), ?_,
    fun p hp => (hpath p hp).2, hst'.path_order⟩, ⟨fun p hp n hn => ?_, fun n c hc => ?_,
    fun n hn c hc => ?_⟩, ⟨fun n hn => ?_, fun n hn => hlo.low_le n (hmem hn), fun n hn hnp => ?_⟩⟩
  · rw [hclosed, not_or]
    have hnot : n ∈ t.stack → n ∉ (splitBelow f.node s.stack).1 := fun hn habove => by
      have := le_of_mem_splitBelow hst.stack_order hr habove
      have := (hlt.1 hn).2
      omega
    refine ⟨fun hn => ?_, fun ⟨hopen, hnot, hcl⟩ => ?_⟩
    · have := (hst.stack_iff n).1 (hmem hn)
      exact ⟨this.1, hnot hn, this.2⟩
    · exact (mem_splitBelow.1 ((hst.stack_iff n).2 ⟨hopen, hcl⟩)).resolve_left hnot
  · rcases (hclosed n).1 hn with habove | hcl
    · exact ((hst.stack_iff n).1 (mem_splitBelow.2 (Or.inl habove))).1
    · exact hst.opened n hcl
  · have := hst.stack_order
    rw [← splitBelow_append f.node s.stack] at this
    exact (List.pairwise_append.1 this).2.1
  · exact hex.path_reach p (hpath p hp).1 n (hmem hn)
  · exact hex.pending_mem n c ((pending_drop hs hf).2 hc)
  · rcases hex.call n (hmem hn) c hc with hp | hcl | ⟨hc', hcaught⟩ | hfalse
    · exact Or.inl ((pending_drop hs hf).1 hp)
    · exact Or.inr (Or.inl ((hclosed c).2 (Or.inr hcl)))
    · rcases mem_splitBelow.1 hc' with habove | hbelow
      · exact Or.inr (Or.inl ((hclosed c).2 (Or.inl habove)))
      refine Or.inr (Or.inr (Or.inl ⟨hbelow, fun p hp hpn => ?_⟩))
      obtain ⟨q, hq, h1, h2, h3⟩ := hcaught p (hpath p hp).1 hpn
      refine ⟨q, ?_, h1, h2, h3⟩
      rw [path_cons hs] at hq
      rcases List.mem_cons.1 hq with rfl | hq
      · have := (hlt.1 hn).2
        omega
      · exact hq
    · exact hfalse.elim
  · obtain ⟨m, hm, hnum, hreach⟩ := hlo.low_reach n (hmem hn)
    have := hlo.low_le n (hmem hn)
    have := (hlt.1 hn).2
    exact ⟨m, hlt.2 ⟨hm, by omega⟩, hnum, hreach⟩
  · refine hlo.low_lt n (hmem hn) ?_
    rw [path_cons hs, List.mem_cons, not_or]
    refine ⟨fun he => ?_, hnp⟩
    have := (hlt.1 hn).2
    rw [he] at this
    omega

end Leaving

/-! ## Steps and runs -/

/-- The search after the caller has noted what its callee knows. -/
def relinked (s : Search g) (fs : List (Frame g)) (i : Nat) : Search g :=
  match fs with
  | caller :: _ => { s with memo := s.memo.lower caller.node i }
  | [] => s

theorem leave_eq {i : Nat} (hlow : s.memo.lowlink.get? n = some i) :
    s.leave n fs = if some i = s.memo.index.get? n
      then ({ s.relinked fs i with frames := fs } : Search g).close n
      else { s.relinked fs i with frames := fs } := by
  cases fs
  · simp only [leave, hlow, relinked]
  · simp only [leave, hlow, relinked]; rfl

theorem relinked_fields (s : Search g) (fs : List (Frame g)) (i : Nat) :
    (s.relinked fs i).frames = s.frames ∧ (s.relinked fs i).stack = s.stack ∧
      (s.relinked fs i).memo.index = s.memo.index ∧
      (s.relinked fs i).memo.aggregates = s.memo.aggregates := by
  cases fs <;> exact ⟨rfl, rfl, rfl, rfl⟩

/-- The caller of the innermost frame reaches what the frame is known to reach. -/
theorem Sound.relinked (h : s.Sound) (hs : s.frames = f :: fs) :
    (s.relinked fs (s.low f.node)).Sound ∧
      (s.relinked fs (s.low f.node)).low f.node = s.low f.node ∧
      ∀ p ps, fs.map (·.node) = p :: ps → (s.relinked fs (s.low f.node)).low p ≤ s.low f.node := by
  match fs with
  | [] => exact ⟨h, rfl, fun p ps hp => by cases hp⟩
  | caller :: fs =>
    have hst := h.stacked
    have hpath := path_cons hs
    have hcaller : caller.node ∈ s.path := by rw [hpath]; simp
    have hmem := hst.path_mem _ hcaller
    have hf := top_mem_stack h hs
    have hlt : s.num caller.node < s.num f.node := by
      have horder := hst.path_order
      rw [hpath] at horder
      exact (List.pairwise_cons.1 horder).1 _ (by simp)
    obtain ⟨m, hm, hnum, hreach⟩ := h.lowered.low_reach _ hf
    have hcf := h.explored.path_reach _ hcaller _ hf (Nat.le_of_lt hlt)
    refine ⟨?_, ?_, fun p ps hp => ?_⟩
    · rw [← hnum]
      exact h.lower hmem hm (hcf.trans hreach)
    · refine (low_lower hst hmem _ _).trans (if_neg fun he => ?_)
      rw [he] at hlt
      omega
    · obtain ⟨rfl, -⟩ := List.cons.inj hp
      refine Nat.le_trans (Nat.le_of_eq (low_lower hst hmem _ _)) ?_
      rw [if_pos rfl]
      exact Nat.min_le_right ..

/-- A property of tables that closing components preserves. -/
def ClosedUnder (g : CallGraph) (P : Table Node Aggregate → Prop) : Prop :=
  ∀ (m : Memo) (members : List Node), m.Closable g members → P m.aggregates →
    P (m.close g members).aggregates

variable {P : Table Node Aggregate → Prop}

theorem examine_spec (h : s.Sound) (hs : s.frames = f :: fs) (hf : f.pending = c :: cs) :
    (s.examine f fs c).Sound ∧ (s.examine f fs c).memo.aggregates = s.memo.aggregates := by
  have hadv := SoundBut.advance h hs hf
  have htop : ({ s with frames := f.advance :: fs } : Search g).path = f.node :: fs.map (·.node) :=
    path_cons (f := f.advance) rfl
  have hcall : c ∈ g.successors f.node := h.explored.pending_mem _ _ (Frame.pending_head hs hf)
  have hfs := top_mem_stack h hs
  simp only [examine]
  split
  · next hclosed =>
    exact ⟨hadv.resolve fun n x hlate => Or.inl (hlate.2 ▸ hclosed), rfl⟩
  · next hclosed =>
    split
    · next hnew =>
      refine ⟨hadv.openNode hnew (fun p hp => ?_) fun n x hlate => ⟨hlate.2, _, hlate.1 ▸ htop⟩, rfl⟩
      exact (hadv.explored.path_reach p hp _ hfs (hadv.stacked.num_le_top htop hp)).call hcall
    · next i hi =>
      have hc : c ∈ s.stack := (h.stacked.stack_iff c).2 ⟨by simp [Table.contains, hi], hclosed⟩
      have hnum : s.num c = i := by simp [num, hi]
      rw [if_pos (by simpa using hc), ← hnum]
      have hlow := hadv.lower (n := f.node) hfs (m := c) hc ((CallGraph.Reaches.refl g _).call hcall)
      refine ⟨hlow.resolve fun n x hlate => Or.inr ⟨hlate.2 ▸ hc, fun p hp hle => ?_⟩, rfl⟩
      -- the innermost node itself knows of the callee now
      obtain ⟨rfl, rfl⟩ := hlate
      refine ⟨f.node, by rw [path_cons rfl]; exact List.mem_cons_self, hle, Nat.le_refl _, ?_⟩
      refine Nat.le_trans (Nat.le_of_eq (low_lower hadv.stacked hfs _ _)) ?_
      rw [if_pos rfl]
      exact Nat.min_le_right ..

theorem leave_spec (hP : ClosedUnder g P) (h : s.Sound) (hs : s.frames = f :: fs)
    (hf : f.pending = []) (hp : P s.memo.aggregates) :
    (s.leave f.node fs).Sound ∧ P (s.leave f.node fs).memo.aggregates := by
  have hmem := top_mem_stack h hs
  obtain ⟨hsound, hlow, hcaller⟩ := h.relinked hs
  obtain ⟨hframes, -, hindex, haggr⟩ := relinked_fields s fs (s.low f.node)
  have hnum : (s.relinked fs (s.low f.node)).num f.node = s.num f.node := by simp [num, hindex]
  rw [leave_eq (h.stacked.lowlink_get? hmem), h.stacked.index_get? hmem]
  split
  · next heq =>
    have heq := Option.some.inj heq
    refine ⟨hsound.close (hframes.trans hs) hf, ?_⟩
    refine hP _ _ (hsound.closable (hframes.trans hs) hf ?_) (haggr ▸ hp)
    rw [hlow, hnum, heq]
  · next hne =>
    refine ⟨hsound.drop (hframes.trans hs) hf (fun p ps hps => ?_) ?_, haggr ▸ hp⟩
    · rw [hlow]; exact hcaller p ps hps
    · rw [hlow, hnum]; exact fun he => hne (congrArg some he)

theorem step_spec (hP : ClosedUnder g P) (h : s.Sound) (hs : s.frames = f :: fs)
    (hp : P s.memo.aggregates) : (s.step f fs).Sound ∧ P (s.step f fs).memo.aggregates := by
  unfold step
  split
  · next c cs hf =>
    obtain ⟨hsound, haggr⟩ := examine_spec h hs hf
    exact ⟨hsound, haggr ▸ hp⟩
  · next hf => exact leave_spec hP h hs hf hp

theorem run_nil (hs : s.frames = []) : s.run = s := by
  rw [run.eq_def]
  split
  · rfl
  · next hcons => rw [hs] at hcons; cases hcons

theorem run_cons (hs : s.frames = f :: fs) : s.run = (s.step f fs).run := by
  rw [run.eq_def]
  split
  · next hnil => rw [hs] at hnil; cases hnil
  · next f' fs' hcons =>
    rw [hs] at hcons
    obtain ⟨rfl, rfl⟩ := List.cons.inj hcons
    rfl

/-- A run ends with an empty stack, and with whatever closing components preserves. -/
theorem run_spec (hP : ClosedUnder g P) (h : s.Sound) (hp : P s.memo.aggregates) :
    s.run.Sound ∧ s.run.stack = [] ∧ P s.run.memo.aggregates := by
  induction s using Search.run.induct with
  | case1 s hs =>
    rw [run_nil hs]
    exact ⟨h, h.stack_nil (by simp [path, hs]), hp⟩
  | case2 s f fs hs ih =>
    obtain ⟨h', hp'⟩ := step_spec hP h hs hp
    rw [run_cons hs]
    exact ih h' hp'

theorem contains_index_step (hn : s.memo.index.contains n = true) :
    (s.step f fs).memo.index.contains n = true := by
  unfold step
  split
  · simp only [examine]
    split
    · exact hn
    · split
      · show (s.memo.index.insert _ _).contains n = true
        rw [Table.contains_insert, hn, Bool.or_true]
      · split <;> exact hn
  · simp only [leave]
    split <;> (split <;> exact hn)

theorem contains_index_run (hn : s.memo.index.contains n = true) :
    s.run.memo.index.contains n = true := by
  induction s using Search.run.induct with
  | case1 s hs =>
    rw [run_nil hs]
    exact hn
  | case2 s f fs hs ih =>
    rw [run_cons hs]
    exact ih (contains_index_step hn)

/-- A search begins soundly where no search is under way. -/
theorem sound_begin {m : Memo} (hm : m.Settled) (hn : ¬ m.aggregates.contains n = true) :
    (openNode ⟨m, [], [], []⟩ n : Search g).Sound := by
  have hidle : (⟨m, [], [], []⟩ : Search g).Sound := by
    refine ⟨⟨fun x => ?_, fun x hx => (hm.closed x).trans hx, hm.lowlink, ?_, .nil, ?_, .nil⟩,
      ⟨?_, ?_, ?_⟩, ⟨?_, ?_, ?_⟩⟩
    · rw [hm.closed]; simp
    all_goals simp [path, Frame.Pending]
  refine hidle.openNode ?_ (by simp [path]) (fun _ _ h => h.elim)
  rw [← hm.closed n] at hn
  simpa [Table.contains] using hn

end Search

namespace Memo

variable {g : CallGraph} {m : Memo} {n : Node} {P : Table Node Aggregate → Prop}

theorem search_spec (hP : Search.ClosedUnder g P) (hm : m.Settled)
    (hn : ¬ m.aggregates.contains n = true) (hp : P m.aggregates) :
    (m.search g n).1.Settled ∧ P (m.search g n).1.aggregates ∧
      (m.search g n).1.aggregates.contains n = true := by
  obtain ⟨hsound, hstack, hp'⟩ := Search.run_spec hP (Search.sound_begin hm hn) hp
  have hclosed : ∀ x, (m.search g n).1.index.contains x = (m.search g n).1.aggregates.contains x := by
    intro x
    have hx := hsound.stacked.stack_iff x
    rw [hstack] at hx
    refine Bool.eq_iff_iff.2 ⟨fun hopen => ?_, hsound.stacked.opened x⟩
    by_contra hcl
    exact List.not_mem_nil (hx.2 ⟨hopen, hcl⟩)
  refine ⟨⟨hclosed, hsound.stacked.known⟩, hp', ?_⟩
  rw [← hclosed]
  refine Search.contains_index_run ?_
  show (m.index.insert n m.counter).contains n = true
  simp

/-- **What a request for an aggregate preserves.** -/
theorem ensure_spec (hP : Search.ClosedUnder g P) (hm : m.Settled) (hp : P m.aggregates) :
    (m.ensure g n).1.Settled ∧ P (m.ensure g n).1.aggregates ∧
      (m.ensure g n).1.aggregates.contains n = true := by
  unfold ensure
  split
  · next hn => exact ⟨hm, hp, hn⟩
  · next hn => exact search_spec hP hm hn hp

end Memo
end AsyncMigration
