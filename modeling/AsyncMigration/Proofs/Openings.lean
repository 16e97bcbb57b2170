import AsyncMigration.Proofs.Growth
import Mathlib.Logic.Function.Iterate

/-!
# Every node is opened once

A search goes round a loop: each pass examines a call, opens a node, or leaves one and closes the
component that was opened with it. Here the loop is looked at pass by pass, and the nodes that it
opens are written down. In the life of a memo no node is opened twice, whatever is added to the graph
between searches, so the tables never hold more than what was opened.

* `Search.Passed` — what one pass does to the tables and to the stack.
* `Memo.Tallied` — the tables agree with the list of the nodes opened; every pass keeps this up.
* `Search.Sound.safe` — a pass finds all that it looks up, and does not run out of stack.
* `Search.exists_iterate_pass` — the loop ends, after one pass for each node opened and one for each
  call examined.
* `Ledger.searches_safe` — all this after any requests and additions.
-/

namespace AsyncMigration

/-! ## Stacks and weights -/

/-- Pops a stack until `n` has been popped, and gives what was popped and what is left. There is no
result if the stack runs empty before that. -/
def popThrough (n : Node) : List Node → Option (List Node × List Node)
  | [] => none
  | x :: xs => if x = n then some ([x], xs) else (popThrough n xs).map fun p => (x :: p.1, p.2)

theorem popThrough_of_mem {n : Node} {l : List Node} (h : n ∈ l) :
    popThrough n l = some (splitBelow n l) := by
  induction l with
  | nil => cases h
  | cons x xs ih =>
    unfold popThrough splitBelow
    split
    · rfl
    · next hx =>
      rw [ih ((List.mem_cons.1 h).resolve_left (Ne.symm hx))]
      rfl

theorem Frame.weight_append {α : Type} (w : α → Nat) (xs ys : List α) :
    weight w (xs ++ ys) = weight w xs + weight w ys := by
  induction xs with
  | nil => simp [weight]
  | cons x xs ih => simp [weight, ih, Nat.add_assoc]

/-! ## Tables and what was opened -/

namespace Memo

variable {g : CallGraph} {m m' : Memo} {n : Node} {members rest stack opened : List Node}

/-- The tables of a memo agree with the list of all nodes opened: they are numbered in that order,
each once, and each of them is aggregated or waits on the stack. -/
structure Tallied (m : Memo) (stack opened : List Node) : Prop where
  distinct : opened.Nodup
  counted : m.counter = opened.length
  numbered : m.index.entries = opened.zipIdx
  linked : m.lowlink.keys = opened
  parted : (m.aggregates.keys ++ stack).Perm opened

theorem tallied_empty : ({} : Memo).Tallied [] [] := ⟨.nil, rfl, rfl, rfl, .nil⟩

theorem keys_foldl_insert (f : Node → Aggregate) {ns : List Node} {t : Table Node Aggregate}
    (hns : ns.Nodup) (hnew : ∀ n ∈ ns, n ∉ t.keys) :
    (ns.foldl (fun t n => t.insert n (f n)) t).keys = t.keys ++ ns := by
  induction ns generalizing t with
  | nil => simp
  | cons n ns ih =>
    obtain ⟨hn, hns⟩ := List.nodup_cons.1 hns
    have hkeys := Table.keys_insert_of_not_mem (f n) (hnew n List.mem_cons_self)
    rw [List.foldl_cons, ih hns, hkeys, List.append_assoc, List.singleton_append]
    intro x hx
    rw [hkeys, List.mem_append, List.mem_singleton, not_or]
    exact ⟨hnew x (List.mem_cons_of_mem _ hx), fun he => hn (he ▸ hx)⟩

theorem Closable.congr (h : m.Closable g members) (haggr : m'.aggregates = m.aggregates) :
    m'.Closable g members :=
  ⟨h.nodup, haggr ▸ h.fresh, h.strong, haggr ▸ h.covered⟩

/-- What closing adds hangs on the aggregates only. -/
theorem aggregates_close_congr (haggr : m'.aggregates = m.aggregates) :
    (m'.close g members).aggregates = (m.close g members).aggregates := by
  have hreached : m'.reached g = m.reached g := by
    funext c
    rw [reached, reached, haggr]
  simp only [close, haggr, hreached]

namespace Tallied

theorem index_keys (h : m.Tallied stack opened) : m.index.keys = opened := by
  rw [Table.keys, h.numbered]
  exact List.zipIdx_map_fst 0 opened

theorem openNode (h : m.Tallied stack opened) (hn : ¬ m.index.contains n = true) :
    (m.openNode n).Tallied (n :: stack) (opened ++ [n]) := by
  have hnew : n ∉ opened := by
    rw [← h.index_keys, Table.mem_keys]
    exact hn
  refine ⟨?_, ?_, ?_, ?_, ?_⟩
  · exact List.nodup_append.2 ⟨h.distinct, List.nodup_singleton n, by grind⟩
  · show m.counter + 1 = _
    rw [h.counted, List.length_append, List.length_singleton]
  · show (m.index.insert n m.counter).entries = _
    rw [Table.entries_insert_of_not_mem _ (h.index_keys ▸ hnew), h.numbered, h.counted,
      List.zipIdx_append, Nat.zero_add]
    rfl
  · show (m.lowlink.insert n m.counter).keys = _
    rw [Table.keys_insert_of_not_mem _ (h.linked ▸ hnew), h.linked]
  · have hfront : (m.aggregates.keys ++ n :: stack).Perm (n :: opened) :=
      List.perm_middle.trans (h.parted.cons n)
    exact hfront.trans (List.perm_append_singleton n opened).symm

/-- Closing takes the members of a component off the stack and into the table of aggregates. -/
theorem close (h : m.Tallied (members ++ rest) opened) (hm : m.Closable g members) :
    (m.close g members).Tallied rest opened := by
  have hkeys : (m.close g members).aggregates.keys = m.aggregates.keys ++ members :=
    keys_foldl_insert (m.closedAggregate g members) hm.nodup fun n hn hk =>
      hm.fresh n hn (Table.mem_keys.1 hk)
  refine ⟨h.distinct, h.counted, h.numbered, h.linked, ?_⟩
  rw [hkeys, List.append_assoc]
  exact h.parted

theorem settled (h : m.Tallied [] opened) : m.Settled := by
  have hindex : ∀ n, m.index.contains n = true ↔ n ∈ opened := fun n => by
    rw [← Table.mem_keys, h.index_keys]
  refine ⟨fun n => Bool.eq_iff_iff.2 ?_, fun n => Bool.eq_iff_iff.2 ?_⟩
  · rw [hindex, ← Table.mem_keys, ← h.parted.mem_iff, List.append_nil]
  · rw [hindex, ← Table.mem_keys, h.linked]

end Tallied
end Memo

/-! ## One pass -/

namespace Search

variable {g : CallGraph} {s t : Search g} {f : Frame g} {fs : List (Frame g)} {n c : Node}
  {opened : List Node}

/-- One pass of the search; without frames it is over. -/
def pass (s : Search g) : Search g :=
  match s.frames with
  | [] => s
  | f :: fs => s.step f fs

/-- The node that the next pass opens. -/
def opening? (s : Search g) : Option Node :=
  match s.frames with
  | [] => none
  | f :: _ =>
    f.pending.head?.filter fun c => !s.memo.aggregates.contains c && !s.memo.index.contains c

/-- The node of which the next pass closes the component. -/
def closing? (s : Search g) : Option Node :=
  match s.frames with
  | [] => none
  | f :: _ =>
    if f.pending = [] ∧ s.memo.lowlink.get? f.node = s.memo.index.get? f.node then some f.node
    else none

theorem pass_nil (hs : s.frames = []) : s.pass = s := by
  unfold pass
  rw [hs]

theorem pass_cons (hs : s.frames = f :: fs) : s.pass = s.step f fs := by
  unfold pass
  rw [hs]

theorem opening?_nil (hs : s.frames = []) : s.opening? = none := by
  unfold opening?
  rw [hs]

theorem opening?_cons (hs : s.frames = f :: fs) : s.opening? =
    f.pending.head?.filter fun c => !s.memo.aggregates.contains c && !s.memo.index.contains c := by
  unfold opening?
  rw [hs]

theorem closing?_cons (hs : s.frames = f :: fs) : s.closing? =
    if f.pending = [] ∧ s.memo.lowlink.get? f.node = s.memo.index.get? f.node then some f.node
    else none := by
  unfold closing?
  rw [hs]

/-- A search has gone on by one thing that its frames had to do, and nothing else has changed but
lowlinks. -/
structure Quiet (s t : Search g) : Prop where
  load : Frame.load t.frames + 1 = Frame.load s.frames
  index : t.memo.index = s.memo.index
  counter : t.memo.counter = s.memo.counter
  aggregates : t.memo.aggregates = s.memo.aggregates
  lowlink : t.memo.lowlink.keys = s.memo.lowlink.keys
  stack : t.stack = s.stack

/-- What a pass can do besides: it opens a node, closes a component, or does neither. -/
inductive Passed (s : Search g) : Search g → Prop where
  | moved {t : Search g} (hquiet : Quiet s t) (hopening : s.opening? = none)
      (hclosing : s.closing? = none) : Passed s t
  | opened {t : Search g} {c : Node} (hquiet : Quiet s t) (hopening : s.opening? = some c)
      (hclosing : s.closing? = none) (hnew : ¬ s.memo.index.contains c = true) :
      Passed s (t.openNode c)
  | closed {t : Search g} {n : Node} (hquiet : Quiet s t) (hopening : s.opening? = none)
      (hclosing : s.closing? = some n) (hn : n ∈ s.stack)
      (hclosable : s.memo.Closable g (splitBelow n s.stack).1) : Passed s (t.close n)

/-- Lowering the lowlink of a node on the stack adds no key. -/
theorem keys_lower (h : s.Sound) (hn : n ∈ s.stack) (i : Nat) :
    (s.memo.lower n i).lowlink.keys = s.memo.lowlink.keys := by
  refine Table.keys_insert_of_mem _ (Table.mem_keys.2 ?_)
  rw [h.stacked.known]
  exact ((h.stacked.stack_iff n).1 hn).1

theorem quiet_relinked (h : s.Sound) (hs : s.frames = f :: fs) (hf : f.pending = []) (i : Nat) :
    Quiet s { s.relinked fs i with frames := fs } := by
  have hload : Frame.load fs + 1 = Frame.load s.frames := by
    rw [hs, Frame.load_cons, hf, List.length_nil, Nat.zero_add, Nat.add_comm]
  cases fs with
  | nil => exact ⟨hload, rfl, rfl, rfl, rfl, rfl⟩
  | cons caller fs =>
    have hcaller : caller.node ∈ s.stack := h.stacked.path_mem _ (by simp [path, hs])
    exact ⟨hload, rfl, rfl, rfl, keys_lower h hcaller i, rfl⟩

theorem passed_examine (h : s.Sound) (hs : s.frames = f :: fs) {cs : List Node}
    (hf : f.pending = c :: cs) : s.Passed (s.examine f fs c) := by
  have hload : Frame.load (f.advance :: fs) + 1 = Frame.load s.frames := by
    rw [hs]
    exact Frame.load_advance hf fs
  have hclosing : s.closing? = none := by simp [closing?_cons hs, hf]
  have hopening := opening?_cons hs
  rw [hf, List.head?_cons] at hopening
  simp only [examine]
  split
  · next hclosed =>
    exact .moved ⟨hload, rfl, rfl, rfl, rfl, rfl⟩ (by simp [hopening, hclosed]) hclosing
  · next hclosed =>
    split
    · next hnew =>
      have hnew : s.memo.index.contains c = false := by simp [Table.contains, hnew]
      refine .opened (t := { s with frames := f.advance :: fs }) ⟨hload, rfl, rfl, rfl, rfl, rfl⟩ ?_
        hclosing ?_
      · simp [hopening, hclosed, hnew]
      · simp [hnew]
    · next i hi =>
      have hold : s.opening? = none := by simp [hopening, Table.contains, hi]
      split
      · exact .moved ⟨hload, rfl, rfl, rfl, keys_lower h (top_mem_stack h hs) i, rfl⟩ hold hclosing
      · exact .moved ⟨hload, rfl, rfl, rfl, rfl, rfl⟩ hold hclosing

theorem passed_leave (h : s.Sound) (hs : s.frames = f :: fs) (hf : f.pending = []) :
    s.Passed (s.leave f.node fs) := by
  have hmem := top_mem_stack h hs
  have hopening : s.opening? = none := by simp [opening?_cons hs, hf]
  have hclosing := closing?_cons hs
  have hquiet := quiet_relinked h hs hf (s.low f.node)
  rw [h.stacked.lowlink_get? hmem] at hclosing
  -- the lowlink of the caller is lowered first, and that of the node itself is looked at afterwards
  rw [leave_eq (h.stacked.lowlink_get? hmem)]
  split
  · next heq =>
    refine .closed hquiet hopening ?_ hmem (h.closable hs hf ?_)
    · rw [hclosing, if_pos ⟨hf, heq⟩]
    · rw [h.stacked.index_get? hmem] at heq
      exact Option.some.inj heq
  · next hne =>
    refine .moved hquiet hopening ?_
    rw [hclosing, if_neg fun hboth => hne hboth.2]

/-- **What a pass does.** -/
theorem passed_step (h : s.Sound) (hs : s.frames = f :: fs) : s.Passed (s.step f fs) := by
  unfold step
  split
  · next c cs hf => exact passed_examine h hs hf
  · next hf => exact passed_leave h hs hf

theorem Quiet.tallied (hquiet : Quiet s t) (h : s.memo.Tallied s.stack opened) :
    t.memo.Tallied t.stack opened where
  distinct := h.distinct
  counted := hquiet.counter.trans h.counted
  numbered := (congrArg Table.entries hquiet.index).trans h.numbered
  linked := hquiet.lowlink.trans h.linked
  parted := by
    rw [hquiet.aggregates, hquiet.stack]
    exact h.parted

/-- A pass adds the node that it opens to those opened before. -/
theorem Passed.tallied (hpass : s.Passed t) (h : s.memo.Tallied s.stack opened) :
    t.memo.Tallied t.stack (opened ++ s.opening?.toList) := by
  cases hpass with
  | moved hquiet hopening _ =>
    rw [hopening, Option.toList_none, List.append_nil]
    exact hquiet.tallied h
  | opened hquiet hopening _ hnew =>
    rw [hopening]
    exact (hquiet.tallied h).openNode (hquiet.index ▸ hnew)
  | @closed t n hquiet hopening _ _ hclosable =>
    rw [hopening, Option.toList_none, List.append_nil]
    -- the stack is what is popped, on top of what is left
    have ht := hquiet.tallied h
    rw [← splitBelow_append n t.stack] at ht
    exact ht.close ((hquiet.stack ▸ hclosable).congr hquiet.aggregates)

/-! ## Safety -/

/-- The next pass finds what it looks up. The nodes of all frames are numbered and have lowlinks. To
close a component the pass can pop the stack down to the node that was opened first, and it puts the
members that it popped into the table; callees outside the component are in the table already.
Without a component to close nothing is popped and nothing is put into the table. -/
structure Safe (s : Search g) : Prop where
  numbered : ∀ f ∈ s.frames,
    s.memo.index.contains f.node = true ∧ s.memo.lowlink.contains f.node = true
  closing : ∀ n, s.closing? = some n → ∃ members rest,
    popThrough n s.stack = some (members, rest) ∧ s.pass.stack = rest ∧
      s.pass.memo.aggregates = (s.memo.close g members).aggregates ∧
      ∀ x ∈ members, ∀ c ∈ g.successors x, c ∉ members → ∃ a, s.memo.aggregates.get? c = some a
  steady : s.closing? = none → s.pass.stack = s.opening?.toList ++ s.stack ∧
    s.pass.memo.aggregates = s.memo.aggregates

theorem Passed.closing (hpass : s.Passed t) (hn : s.closing? = some n) : ∃ members rest,
    popThrough n s.stack = some (members, rest) ∧ t.stack = rest ∧
      t.memo.aggregates = (s.memo.close g members).aggregates ∧
      ∀ x ∈ members, ∀ c ∈ g.successors x, c ∉ members → ∃ a, s.memo.aggregates.get? c = some a := by
  cases hpass with
  | moved _ _ hclosing => rw [hclosing] at hn; cases hn
  | opened _ _ hclosing _ => rw [hclosing] at hn; cases hn
  | @closed t x hquiet _ hclosing hx hclosable =>
    obtain rfl : x = n := Option.some.inj (hclosing.symm.trans hn)
    refine ⟨_, _, popThrough_of_mem hx, ?_, ?_, fun y hy c hc hout => ?_⟩
    · show (splitBelow x t.stack).2 = _
      rw [hquiet.stack]
    · show (t.memo.close g (splitBelow x t.stack).1).aggregates = _
      rw [hquiet.stack]
      exact Memo.aggregates_close_congr hquiet.aggregates
    · exact Option.isSome_iff_exists.1 ((hclosable.covered y hy c hc).resolve_left hout)

theorem Passed.steady (hpass : s.Passed t) (hnone : s.closing? = none) :
    t.stack = s.opening?.toList ++ s.stack ∧ t.memo.aggregates = s.memo.aggregates := by
  cases hpass with
  | moved hquiet hopening _ =>
    rw [hopening]
    exact ⟨hquiet.stack, hquiet.aggregates⟩
  | @opened t c hquiet hopening _ _ =>
    rw [hopening]
    exact ⟨congrArg (c :: ·) hquiet.stack, hquiet.aggregates⟩
  | closed _ _ hclosing _ _ => rw [hclosing] at hnone; cases hnone

theorem Sound.step (h : s.Sound) (hs : s.frames = f :: fs) : (s.step f fs).Sound :=
  (step_spec (P := fun _ => True) (fun _ _ _ _ => trivial) h hs trivial).1

theorem Sound.pass (h : s.Sound) : s.pass.Sound := by
  cases hs : s.frames with
  | nil => rw [pass_nil hs]; exact h
  | cons f fs => rw [pass_cons hs]; exact h.step hs

theorem Sound.iterate_pass (h : s.Sound) (i : Nat) : (Search.pass^[i] s).Sound := by
  induction i generalizing s with
  | zero => exact h
  | succ i ih => exact ih h.pass

theorem Sound.safe (h : s.Sound) : s.Safe := by
  have hnumbered : ∀ f ∈ s.frames,
      s.memo.index.contains f.node = true ∧ s.memo.lowlink.contains f.node = true := by
    intro f hf
    have hstack := h.stacked.path_mem f.node (List.mem_map.2 ⟨f, hf, rfl⟩)
    have hindex := ((h.stacked.stack_iff f.node).1 hstack).1
    exact ⟨hindex, (h.stacked.known f.node).trans hindex⟩
  cases hs : s.frames with
  | nil =>
    refine ⟨hnumbered, fun n hn => ?_, fun _ => ?_⟩
    · simp [closing?, hs] at hn
    · rw [pass_nil hs, opening?_nil hs]
      exact ⟨rfl, rfl⟩
  | cons f fs =>
    have hpassed := passed_step h hs
    rw [← pass_cons hs] at hpassed
    exact ⟨hnumbered, fun n hn => hpassed.closing hn, hpassed.steady⟩

/-! ## The whole loop -/

/-- The nodes that a search opens from here on, in order. -/
def openings (s : Search g) : List Node :=
  match _h : s.frames with
  | [] => []
  | f :: fs => s.opening?.toList ++ (s.step f fs).openings
termination_by s.toDo
decreasing_by exact toDo_step _h

theorem openings_nil (hs : s.frames = []) : s.openings = [] := by
  rw [openings.eq_def]
  split
  · rfl
  · next hcons => rw [hs] at hcons; cases hcons

theorem openings_cons (hs : s.frames = f :: fs) :
    s.openings = s.opening?.toList ++ (s.step f fs).openings := by
  rw [openings.eq_def]
  split
  · next hnil => rw [hs] at hnil; cases hnil
  · next f' fs' hcons =>
    rw [hs] at hcons
    obtain ⟨rfl, rfl⟩ := List.cons.inj hcons
    rfl

theorem tallied_run (h : s.Sound) (ht : s.memo.Tallied s.stack opened) :
    s.run.memo.Tallied s.run.stack (opened ++ s.openings) := by
  induction s using Search.run.induct generalizing opened with
  | case1 s hs =>
    rw [run_nil hs, openings_nil hs, List.append_nil]
    exact ht
  | case2 s f fs hs ih =>
    rw [run_cons hs, openings_cons hs, ← List.append_assoc]
    exact ih (h.step hs) ((passed_step h hs).tallied ht)

/-- The passes that a node takes: one for each of its callees, and one to leave it. -/
def passesOf (g : CallGraph) (n : Node) : Nat := (g.successors n).length + 1

/-- A pass takes one from what the frames have to do, and adds what the node takes that it opens. -/
theorem Passed.load (hpass : s.Passed t) : Frame.load t.frames + 1
    = Frame.load s.frames + Frame.weight (passesOf g) s.opening?.toList := by
  cases hpass with
  | moved hquiet hopening _ => rw [hopening]; exact hquiet.load
  | closed hquiet hopening _ _ _ => rw [hopening]; exact hquiet.load
  | @opened t c hquiet hopening _ _ =>
    have hload := hquiet.load
    simp only [hopening, openNode, Frame.load_enter, Option.toList_some, Frame.weight, passesOf]
    omega

/-- **The loop ends.** Each thing that the frames have to do and each node that is opened takes its
passes. -/
theorem exists_iterate_pass (h : s.Sound) : ∃ k, pass^[k] s = s.run ∧ s.run.frames = [] ∧
    k = Frame.load s.frames + Frame.weight (passesOf g) s.openings := by
  induction s using Search.run.induct with
  | case1 s hs =>
    rw [run_nil hs, openings_nil hs]
    exact ⟨0, rfl, hs, by rw [hs]; rfl⟩
  | case2 s f fs hs ih =>
    obtain ⟨k, hrun, hframes, hk⟩ := ih (h.step hs)
    have hload := (passed_step h hs).load
    rw [run_cons hs, openings_cons hs, Frame.weight_append]
    refine ⟨k + 1, ?_, hframes, by omega⟩
    rw [Function.iterate_succ_apply, pass_cons hs]
    exact hrun

/-- A search before its first pass, in which nothing is open but the node that it starts from. -/
def start (m : Memo) (g : CallGraph) (n : Node) : Search g := openNode ⟨m, [], [], []⟩ n

end Search

/-! ## The life of a memo -/

namespace Memo

variable {g : CallGraph} {m : Memo} {n : Node} {opened : List Node}

/-- The nodes that a request for an aggregate opens, in order. -/
def openings (m : Memo) (g : CallGraph) (n : Node) : List Node :=
  if m.aggregates.contains n then [] else n :: (Search.start m g n).openings

theorem Tallied.ensure (h : m.Tallied [] opened) :
    (m.ensure g n).1.Tallied [] (opened ++ m.openings g n) := by
  unfold Memo.ensure Memo.openings
  split
  · rw [List.append_nil]
    exact h
  · next hn =>
    have hsound : (Search.start m g n).Sound := Search.sound_begin h.settled hn
    have hnew : ¬ m.index.contains n = true := by rw [h.settled.closed]; exact hn
    have hrun := Search.tallied_run hsound (h.openNode hnew)
    -- the stack is empty in the end, so that all that was opened is aggregated
    obtain ⟨-, hstack, -⟩ :=
      Search.run_spec (P := fun _ => True) (fun _ _ _ _ => trivial) hsound trivial
    rw [hstack, List.append_assoc, List.singleton_append] at hrun
    exact hrun

end Memo

/-- What can be done to a graph and to what is known of it: an aggregate is requested, a call is
added, or a function is entered. -/
inductive Deed where
  | request (n : Node)
  | addCall (site : CallSite)
  | addFunction (signature : Signature) (scan : ScanReport)

/-- A graph with what is known of it, and a list of all nodes opened so far, in order. -/
structure Ledger where
  graph : CallGraph
  memo : Memo := {}
  opened : List Node := []

namespace Ledger

variable {l : Ledger}

/-- The ledger after a deed. -/
def act (l : Ledger) : Deed → Ledger
  | .request n =>
    { l with
      memo := (l.memo.ensure l.graph n).1
      opened := l.opened ++ l.memo.openings l.graph n }
  | .addCall site => { l with graph := (l.graph.addCall site).1 }
  | .addFunction signature scan => { l with graph := (l.graph.addFunction signature scan).1 }

/-- The ledger after deeds. -/
def after (l : Ledger) (deeds : List Deed) : Ledger := deeds.foldl act l

theorem after_concat (l : Ledger) (deeds : List Deed) (d : Deed) :
    l.after (deeds ++ [d]) = (l.after deeds).act d := List.foldl_concat ..

theorem tallied_act (h : l.memo.Tallied [] l.opened) (d : Deed) :
    (l.act d).memo.Tallied [] (l.act d).opened := by
  cases d with
  | request n => exact h.ensure
  | addCall site => exact h
  | addFunction signature scan => exact h

theorem tallied_after (h : l.memo.Tallied [] l.opened) (deeds : List Deed) :
    (l.after deeds).memo.Tallied [] (l.after deeds).opened := by
  induction deeds generalizing l with
  | nil => exact h
  | cons d deeds ih => exact ih (tallied_act h d)

/-- Deeds lead from a ledger to a graph and what is known of it. -/
def Leads (l : Ledger) (g : CallGraph) (m : Memo) : Prop :=
  ∃ deeds, (l.after deeds).graph = g ∧ (l.after deeds).memo = m

theorem Leads.act {g : CallGraph} {m : Memo} (h : l.Leads g m) (d : Deed) :
    l.Leads (({ graph := g, memo := m } : Ledger).act d).graph
      (({ graph := g, memo := m } : Ledger).act d).memo := by
  obtain ⟨deeds, rfl, rfl⟩ := h
  refine ⟨deeds ++ [d], ?_⟩
  rw [after_concat]
  cases d <;> exact ⟨rfl, rfl⟩

/-- A session does nothing to its graph and its memo but such deeds. -/
theorem leads_after (s : Session) (moves : List Move) :
    ({ graph := s.graph, memo := s.memo } : Ledger).Leads (s.after moves).graph
      (s.after moves).memo :=
  Session.keeps_after (fun _ _ n h => h.act (.request n)) (fun site _ h => h.act (.addCall site))
    (fun signature scan _ h => h.act (.addFunction signature scan)) ⟨[], rfl, rfl⟩ moves

/-- **Searches are safe.** Start from any graph of which nothing is known, and request aggregates, add
calls and enter functions in any order; whatever is done with a session comes down to this. Then no
node has been opened twice. The nodes opened have the numbers from zero on, in their order; they are
the keys of the tables of numbers, of lowlinks and of aggregates, each once; and their number is the
counter. The search from a node without an aggregate ends: it takes one pass for each call of a node
that it opens, and one to leave that node. And no pass misses anything: the stack does not run empty
when a component is popped, and all callees outside of it have aggregates by then. -/
theorem searches_safe (g : CallGraph) (deeds : List Deed) :
    let l := ({ graph := g } : Ledger).after deeds
    (l.opened.Nodup ∧ l.memo.counter = l.opened.length ∧ l.memo.index.entries = l.opened.zipIdx ∧
      l.memo.index.keys = l.opened ∧ l.memo.lowlink.keys = l.opened ∧
      l.memo.aggregates.keys.Perm l.opened) ∧
    (∀ n, l.memo.aggregates.get? n = none →
      let s := Search.start l.memo l.graph n
      (∃ k, (Search.pass^[k] s).frames = [] ∧
        l.memo.search l.graph n = ((Search.pass^[k] s).memo, (Search.pass^[k] s).cycles) ∧
        k = Frame.weight (Search.passesOf l.graph) (n :: s.openings)) ∧
      ∀ i, (Search.pass^[i] s).Safe) ∧
    ∀ st log moves,
      let s := ({ settings := st, graph := g, log } : Session).after moves
      ({ graph := g } : Ledger).Leads s.graph s.memo := by
  intro l
  have htallied : l.memo.Tallied [] l.opened := tallied_after Memo.tallied_empty deeds
  refine ⟨⟨htallied.distinct, htallied.counted, htallied.numbered, htallied.index_keys,
    htallied.linked, ?_⟩, fun n hn => ?_,
    fun st log moves => leads_after { settings := st, graph := g, log } moves⟩
  · have hparted := htallied.parted
    rw [List.append_nil] at hparted
    exact hparted
  · have hsound : (Search.start l.memo l.graph n).Sound :=
      Search.sound_begin htallied.settled (by simp [Table.contains, hn])
    obtain ⟨k, hrun, hframes, hk⟩ := Search.exists_iterate_pass hsound
    refine ⟨⟨k, ?_, ?_, ?_⟩, fun i => (hsound.iterate_pass i).safe⟩
    · rw [hrun]
      exact hframes
    · rw [hrun]
      rfl
    · rw [hk]
      rfl

/-- A name that is asked for before it is defined, a call back and forth, a call of a function to
itself, and a call that is made twice. -/
def tangling : List Deed :=
  [.request (.function "h"), .addFunction { name := "h" } { function := "h" },
    .addFunction { name := "k" } { function := "k" }, .addCall { caller := "h", callee := some "f" },
    .addCall { caller := "k", callee := some "h" }, .addCall { caller := "k", callee := some "g" },
    .addCall { caller := "k", callee := some "k" }, .addCall { caller := "k", callee := some "g" },
    .addCall { caller := "g", target := "net" }]

/-- A search over all of these opens four nodes and takes ten passes. -/
theorem searches_safe_tangling :
    let l := ({ graph := (Session.start Session.callingCycle {}).graph } : Ledger).after tangling
    l.memo.aggregates.get? (.function "k") = none ∧
      l.memo.openings l.graph (.function "k")
        = [.function "k", .function "g", .function "f", .sink "net"] ∧
      (Search.pass^[10] (Search.start l.memo l.graph (.function "k"))).frames = [] ∧
      ∀ i, (Search.pass^[i] (Search.start l.memo l.graph (.function "k"))).Safe := by
  intro l
  have hnone : l.memo.aggregates.get? (.function "k") = none := by decide +kernel
  obtain ⟨⟨k, hframes, -, hk⟩, hsafe⟩ :=
    (searches_safe (Session.start Session.callingCycle {}).graph tangling).2.1 _ hnone
  obtain rfl : k = 10 := hk.trans (by decide +kernel)
  exact ⟨hnone, by decide +kernel, hframes, hsafe⟩

end Ledger
end AsyncMigration
