import AsyncMigration.Proofs.Components

/-!
# Aggregates tell the truth

On a graph that does not change, what a memo holds is true of the graph, and it holds with a node all
that the node reaches. Closing a component keeps this up, so every request does.

* `Memo.closedAggregate_describes` — the aggregate given to a member of a component describes it.
* `CallGraph.aggregateOf_describes` — so does the one that a search of its own finds.
* `Memo.Truthful.ensure` — a request keeps a memo truthful, and finds the node's one aggregate.
-/

namespace AsyncMigration

/-- A way out of a set of nodes leaves it by some call. -/
theorem CallGraph.Reaches.exit {g : CallGraph} {p : Node → Prop} {a b : Node} (h : g.Reaches a b)
    (ha : p a) (hb : ¬ p b) : ∃ x, p x ∧ ∃ c ∈ g.successors x, ¬ p c ∧ g.Reaches c b := by
  induction h with
  | refl => exact absurd ha hb
  | @tail b c _ hcall ih =>
    by_cases hpb : p b
    · exact ⟨b, hpb, c, hcall, hb, .refl g c⟩
    · obtain ⟨x, hx, d, hd, hpd, hreach⟩ := ih hpb
      exact ⟨x, hx, d, hd, hpd, hreach.call hcall⟩

namespace Memo

variable {g : CallGraph} {m : Memo} {n c x : Node} {members : List Node} {t : Table Node Aggregate}

/-- What a table holds is true of a graph, and it holds all that its nodes call. -/
structure Truthful (g : CallGraph) (t : Table Node Aggregate) : Prop where
  closed : ∀ n, t.contains n = true → ∀ c ∈ g.successors n, t.contains c = true
  describes : ∀ n a, t.get? n = some a → a.Describes g n

theorem truthful_empty (g : CallGraph) : Truthful g {} :=
  ⟨fun _ hn => absurd hn Bool.false_ne_true, fun _ _ hn => absurd hn (Option.some_ne_none _).symm⟩

theorem Truthful.contains_of_reaches (ht : Truthful g t) (hn : t.contains n = true)
    (h : g.Reaches n x) : t.contains x = true :=
  h.mem_of_closed (p := fun x => t.contains x = true) (fun x hx y hy => ht.closed x hx y hy) hn

/-- What reaching an aggregated node brings is the burden of all that it reaches. -/
theorem Truthful.reached_has (ht : Truthful g m.aggregates) (hc : m.aggregates.contains c = true)
    (τ : Trait) : (m.reached g c).Has τ ↔ ∃ x, g.Reaches c x ∧ (Burden.own g x).Has τ := by
  obtain ⟨a, ha⟩ := Option.isSome_iff_exists.1 hc
  unfold reached
  rw [ha]
  simp only [Burden.has_union, (ht.describes c a ha).below]
  constructor
  · rintro (⟨x, -, hreach, hx⟩ | hc)
    · exact ⟨x, hreach, hx⟩
    · exact ⟨c, .refl g c, hc⟩
  · rintro ⟨x, hreach, hx⟩
    by_cases hxc : x = c
    · exact Or.inr (hxc ▸ hx)
    · exact Or.inl ⟨x, hxc, hreach, hx⟩

/-- A sink is alone in its component. -/
theorem Closable.not_sink (hm : m.Closable g members) (hn : n ∈ members) (hx : x ∈ members)
    (hne : x ≠ n) (s : String) : x ≠ .sink s := by
  rintro rfl
  exact hne (CallGraph.Reaches.eq_of_sink (hm.strong _ hx n hn)).symm

/-- So a member brings to the others all that it brings. -/
theorem Closable.ofMember_eq (hm : m.Closable g members) (hn : n ∈ members) (hx : x ∈ members)
    (hne : x ≠ n) : Burden.ofMember g x = Burden.own g x := by
  cases x with
  | function name => rfl
  | sink s => exact absurd rfl (hm.not_sink hn hx hne s)

/-- What closing a component puts below a member: what the calls out of the component reach, and the
other members. -/
theorem Closable.closedAggregate_has (hm : m.Closable g members) (hn : n ∈ members) (τ : Trait) :
    (m.closedAggregate g members n).below.Has τ ↔
      (∃ c, (∃ y ∈ members, c ∈ g.successors y) ∧ c ∉ members ∧ (m.reached g c).Has τ) ∨
        ∃ x ∈ members, x ≠ n ∧ (Burden.own g x).Has τ := by
  have hothers : (members.filter (· ≠ n)).map (Burden.ofMember g)
      = (members.filter (· ≠ n)).map (Burden.own g) := by
    refine List.map_congr_left fun x hx => ?_
    obtain ⟨hx, hne⟩ := List.mem_filter.1 hx
    exact hm.ofMember_eq hn hx (by simpa using hne)
  unfold closedAggregate
  rw [hothers]
  simp [and_assoc]

theorem mem_closedAggregate : x ∈ (m.closedAggregate g members n).component ↔ x ∈ members :=
  List.mem_mergeSort

theorem Closable.linked (hm : m.Closable g members) (hn : n ∈ members) (hx : x ∈ members) :
    g.Linked n x := ⟨hm.strong n hn x hx, hm.strong x hx n hn⟩

/-- A component of two members, or of one that calls itself, has ways round. -/
theorem Closable.recurs (hm : m.Closable g members) (hn : n ∈ members)
    (h : (m.closedAggregate g members n).cyclic = true) : g.Recurs n := by
  -- a second member is linked to `n`; a member that calls itself is `n` if there is no other
  by_cases hother : ∃ x ∈ members, n ≠ x
  · obtain ⟨x, hx, hne⟩ := hother
    exact (hm.linked hn hx).recurs hne
  · have hall : ∀ x ∈ members, x = n := fun x hx => by
      by_contra hne
      exact hother ⟨x, hx, Ne.symm hne⟩
    have hcyclic : 1 < members.length ∨ ∃ x ∈ members.head?, x ∈ g.successors x := by
      simpa [closedAggregate, Option.any_eq_true] using h
    rcases hcyclic with hlen | ⟨x, hx, hself⟩
    · match members, hm.nodup, hlen with
      | a :: b :: _, hnodup, _ =>
        have hab := (List.nodup_cons.1 hnodup).1
        rw [hall a (by simp), hall b (by simp)] at hab
        exact absurd List.mem_cons_self hab
    · obtain rfl := hall x (List.mem_of_mem_head? hx)
      exact CallGraph.recurs_iff.2 ⟨x, hself, .refl g x⟩

section Closing

variable (hm : m.Closable g members) (ht : Truthful g m.aggregates) (hn : n ∈ members)

include hm ht hn in
/-- A member reaches members, and nodes that have their aggregates already. -/
theorem mem_or_contains (h : g.Reaches n x) : x ∈ members ∨ m.aggregates.contains x = true := by
  refine h.mem_of_closed (p := fun x => x ∈ members ∨ m.aggregates.contains x = true) ?_ (Or.inl hn)
  rintro y (hy | hy) z hz
  · exact hm.covered y hy z hz
  · exact Or.inr (ht.closed y hy z hz)

include hm ht hn in
/-- The members are what a member reaches and is reached by. -/
theorem mem_iff_linked : x ∈ members ↔ g.Linked n x := by
  constructor
  · exact hm.linked hn
  · rintro ⟨hnx, hxn⟩
    refine (mem_or_contains hm ht hn hnx).resolve_right fun hx => ?_
    exact hm.fresh n hn (ht.contains_of_reaches hx hxn)

include hm ht hn in
theorem pairwise_component :
    (m.closedAggregate g members n).component.Pairwise fun x y => x.text < y.text := by
  have hperm : (m.closedAggregate g members n).component.Perm members := List.mergeSort_perm ..
  have hle : (m.closedAggregate g members n).component.Pairwise fun x y => x.text ≤ y.text := by
    have hsorted : (m.closedAggregate g members n).component.Pairwise
        fun x y => decide (x.text ≤ y.text) = true :=
      List.pairwise_mergeSort (fun x y z => by simpa using String.le_trans)
        (fun x y => by simpa using String.le_total _ _) members
    exact hsorted.imp of_decide_eq_true
  have hne := hperm.symm.nodup hm.nodup
  refine (hle.and hne).imp_of_mem fun {x y} hx hy ⟨hxy, hne⟩ => ?_
  refine Std.lt_of_le_of_ne hxy fun htext => hne ?_
  exact CallGraph.Linked.text_injective ((mem_iff_linked hm ht hn).1 (hperm.mem_iff.1 hx))
    ((mem_iff_linked hm ht hn).1 (hperm.mem_iff.1 hy)) htext

include hm ht hn in
/-- A component is cyclic if it has two members, or one that calls itself. -/
theorem cyclic_iff : (m.closedAggregate g members n).cyclic = true ↔ g.Recurs n := by
  refine ⟨hm.recurs hn, fun h => ?_⟩
  obtain ⟨c, hc, hcn⟩ := CallGraph.recurs_iff.1 h
  have hcm : c ∈ members :=
    (mem_iff_linked hm ht hn).2 ⟨(CallGraph.Reaches.refl g n).call hc, hcn⟩
  have hcyclic : 1 < members.length ∨ ∃ x ∈ members.head?, x ∈ g.successors x := by
    match members, hcm, hn with
    | [a], hcm, hn =>
      obtain rfl := List.mem_singleton.1 hcm
      obtain rfl := List.mem_singleton.1 hn
      exact Or.inr ⟨_, rfl, hc⟩
    | _ :: _ :: _, _, _ => exact Or.inl (by simp)
  simpa [closedAggregate, Option.any_eq_true] using hcyclic

include hm ht hn in
/-- The burden of a member is what the calls out of the component reach, and the other members. -/
theorem below_iff (τ : Trait) : (m.closedAggregate g members n).below.Has τ ↔
    ∃ x, x ≠ n ∧ g.Reaches n x ∧ (Burden.own g x).Has τ := by
  rw [hm.closedAggregate_has hn]
  constructor
  · rintro (⟨c, ⟨y, hy, hc⟩, hout, hhas⟩ | ⟨x, hx, hne, hhas⟩)
    · have hclosed := (hm.covered y hy c hc).resolve_left hout
      obtain ⟨x, hcx, hx⟩ := (ht.reached_has hclosed τ).1 hhas
      refine ⟨x, ?_, ((hm.strong n hn y hy).call hc).trans hcx, hx⟩
      rintro rfl
      exact hm.fresh x hn (ht.contains_of_reaches hclosed hcx)
    · exact ⟨x, hne, hm.strong n hn x hx, hhas⟩
  · rintro ⟨x, hne, hnx, hhas⟩
    by_cases hx : x ∈ members
    · exact Or.inr ⟨x, hx, hne, hhas⟩
    · -- the way to `x` leaves the component by some call
      obtain ⟨y, hy, c, hc, hout, hcx⟩ := hnx.exit (p := (· ∈ members)) hn hx
      have hclosed := (hm.covered y hy c hc).resolve_left hout
      exact Or.inl ⟨c, ⟨y, hy, hc⟩, hout, (ht.reached_has hclosed τ).2 ⟨x, hcx, hhas⟩⟩

include hm ht hn in
theorem closedAggregate_describes : (m.closedAggregate g members n).Describes g n where
  node := rfl
  ordered := pairwise_component hm ht hn
  member _ := mem_closedAggregate.trans (mem_iff_linked hm ht hn)
  cyclic := cyclic_iff hm ht hn
  below := below_iff hm ht hn
  sinksOrdered := Burden.Ordered.union _ (Burden.ordered_join _)

end Closing

/-- Closing a component keeps a memo truthful. -/
theorem truthful_close (g : CallGraph) : Search.ClosedUnder g (Truthful g) := by
  intro m members hm ht
  refine ⟨fun n hn c hc => ?_, fun n a ha => ?_⟩
  · rw [contains_close] at hn ⊢
    rcases hn with hn | hn
    · exact hm.covered n hn c hc
    · exact Or.inr (ht.closed n hn c hc)
  · rw [get?_close] at ha
    split at ha
    · next hn =>
      obtain rfl := Option.some.inj ha
      exact closedAggregate_describes hm ht hn
    · exact ht.describes n a ha

end Memo

/-! ## The aggregate of a node -/

/-- The aggregate that a search of its own finds for a node. -/
def CallGraph.aggregateOf (g : CallGraph) (n : Node) : Aggregate :=
  ((Memo.ensure {} g n).1.aggregates.get? n).getD ⟨n, [], false, {}⟩

namespace CallGraph

theorem aggregateOf_describes (g : CallGraph) (n : Node) : (g.aggregateOf n).Describes g n := by
  obtain ⟨-, ht, hn⟩ := Memo.ensure_spec (n := n) (Memo.truthful_close g) Memo.settled_empty
    (Memo.truthful_empty g)
  obtain ⟨a, ha⟩ := Option.isSome_iff_exists.1 hn
  unfold aggregateOf
  rw [ha]
  exact ht.describes n a ha

theorem aggregateOf_eq {g : CallGraph} {n : Node} {a : Aggregate} (ha : a.Describes g n) :
    g.aggregateOf n = a := (g.aggregateOf_describes n).unique ha

end CallGraph

namespace Memo

variable {g : CallGraph} {m : Memo} {n : Node}

theorem Truthful.get? {t : Table Node Aggregate} (ht : Truthful g t) (hn : t.contains n = true) :
    t.get? n = some (g.aggregateOf n) := by
  obtain ⟨a, ha⟩ := Option.isSome_iff_exists.1 hn
  rw [ha, CallGraph.aggregateOf_eq (ht.describes n a ha)]

/-- **A request for an aggregate** keeps a memo settled and truthful, and finds the one aggregate
that describes the node. -/
theorem Truthful.ensure (hm : m.Settled) (ht : Truthful g m.aggregates) :
    (m.ensure g n).1.Settled ∧ Truthful g (m.ensure g n).1.aggregates ∧
      (m.ensure g n).1.aggregates.get? n = some (g.aggregateOf n) := by
  obtain ⟨hm', ht', hn⟩ := ensure_spec (n := n) (truthful_close g) hm ht
  exact ⟨hm', ht', ht'.get? hn⟩

end Memo
end AsyncMigration
