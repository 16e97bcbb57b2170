import AsyncMigration.Proofs.Growth

/-!
# Old aggregates never overstate

An aggregate is made from those of the callees as they are, some of which may be older than the graph
is now. What it says was true when it was made, and graphs only grow. The nodes that it tells of have
aggregates of their own, so a node that is closed later is none of them: this is what keeps a node's
own burden out of its aggregate.

* `Memo.Upheld` — what aggregates say holds of the graph.
* `Memo.enduring_upheld` — closing components and growing keep this up.
* `Session.aggregates_upheld` — so it holds after any moves.
-/

namespace AsyncMigration

namespace Memo

variable {g g' : CallGraph} {m : Memo} {members : List Node} {n x : Node}
  {t : Table Node Aggregate} {τ : Trait}

/-- What a table says of its nodes holds of a graph, though there may be more to say. -/
structure Upheld (g : CallGraph) (t : Table Node Aggregate) : Prop where
  component : ∀ n a, t.get? n = some a → ∀ x ∈ a.component, g.Linked n x
  cyclic : ∀ n a, t.get? n = some a → a.cyclic = true → g.Recurs n
  /-- What is below a node comes from other nodes that it reaches, and these have aggregates. -/
  below : ∀ n a, t.get? n = some a → ∀ τ, a.below.Has τ →
    ∃ x, x ≠ n ∧ g.Reaches n x ∧ t.contains x = true ∧ (Burden.own g x).Has τ

theorem upheld_empty (g : CallGraph) : Upheld g {} := by
  refine ⟨?_, ?_, ?_⟩ <;> exact fun _ _ h => absurd h (Option.some_ne_none _).symm

/-- What reaching an aggregated node brings comes from aggregated nodes that it reaches. -/
theorem Upheld.exists_of_reached_has (h : Upheld g m.aggregates) (hτ : (m.reached g n).Has τ) :
    ∃ x, g.Reaches n x ∧ m.aggregates.contains x = true ∧ (Burden.own g x).Has τ := by
  unfold reached at hτ
  cases hn : m.aggregates.get? n with
  | none =>
    rw [hn] at hτ
    exact absurd hτ (Burden.has_empty τ)
  | some a =>
    rw [hn] at hτ
    rcases (Burden.has_union _ _ τ).1 hτ with hbelow | hown
    · obtain ⟨x, -, hreach, hx, hxτ⟩ := h.below n a hn τ hbelow
      exact ⟨x, hreach, hx, hxτ⟩
    · exact ⟨n, .refl g n, Option.isSome_iff_exists.2 ⟨a, hn⟩, hown⟩

/-- A member that is closed has no aggregate yet, so none of the nodes told of is that member. -/
theorem Upheld.closedAggregate_below (h : Upheld g m.aggregates) (hm : m.Closable g members)
    (hn : n ∈ members) (hτ : (m.closedAggregate g members n).below.Has τ) :
    ∃ x, x ≠ n ∧ g.Reaches n x ∧ (m.close g members).aggregates.contains x = true ∧
      (Burden.own g x).Has τ := by
  rcases (hm.closedAggregate_has hn τ).1 hτ with ⟨c, ⟨y, hy, hcall⟩, -, hc⟩ | ⟨x, hx, hne, hown⟩
  · obtain ⟨x, hcx, hx, hxτ⟩ := h.exists_of_reached_has hc
    refine ⟨x, ?_, ((hm.strong n hn y hy).call hcall).trans hcx, ?_, hxτ⟩
    · rintro rfl
      exact hm.fresh x hn hx
    · exact (contains_close members x).2 (Or.inr hx)
  · exact ⟨x, hne, hm.strong n hn x hx, (contains_close members x).2 (Or.inl hx), hown⟩

theorem upheld_close (g : CallGraph) : Search.ClosedUnder g (Upheld g) := by
  intro m members hm h
  refine ⟨fun n a ha x hx => ?_, fun n a ha hcyclic => ?_, fun n a ha τ hτ => ?_⟩
  all_goals
    rw [get?_close] at ha
    split at ha
  · next hn =>
    obtain rfl := Option.some.inj ha
    exact hm.linked hn (mem_closedAggregate.1 hx)
  · exact h.component n a ha x hx
  · next hn =>
    obtain rfl := Option.some.inj ha
    exact hm.recurs hn hcyclic
  · exact h.cyclic n a ha hcyclic
  · next hn =>
    obtain rfl := Option.some.inj ha
    exact h.closedAggregate_below hm hn hτ
  · obtain ⟨x, hne, hreach, hx, hxτ⟩ := h.below n a ha τ hτ
    exact ⟨x, hne, hreach, (contains_close members x).2 (Or.inr hx), hxτ⟩

theorem Upheld.grow (hg : g.Grows g') (h : Upheld g t) : Upheld g' t := by
  refine ⟨fun n a ha x hx => hg.linked (h.component n a ha x hx),
    fun n a ha hcyclic => hg.recurs (h.cyclic n a ha hcyclic), fun n a ha τ hτ => ?_⟩
  obtain ⟨x, hne, hreach, hx, hxτ⟩ := h.below n a ha τ hτ
  exact ⟨x, hne, hg.reaches hreach, hx, hg.own_has hxτ⟩

theorem enduring_upheld : Session.Enduring Upheld where
  close g _ := upheld_close g
  grow _ _ _ hg h := h.grow hg

end Memo

namespace Session

/-- **Old aggregates never overstate.** Whatever is asked of a session and added to it, in any order,
what an aggregate says of its node holds of the graph as it is now: the members of the component are
linked to the node, a cyclic node reaches itself, and the constraints, pattern kinds and sinks are
those of other nodes reached. -/
theorem aggregates_upheld (units : List SourceUnit) (st : Settings) (moves : List Move) (n : Node)
    (a : Aggregate)
    (ha : ((start units st).after moves).memo.aggregates.get? n = some a) :
    let g := ((start units st).after moves).graph
    (∀ x ∈ a.component, g.Reaches n x ∧ g.Reaches x n) ∧
    (a.cyclic = true → Relation.TransGen g.Calls n n) ∧
    (∀ name ∈ a.below.sinks.names, Node.sink name ≠ n ∧ g.Reaches n (.sink name)) ∧
    (∀ c, a.below.constraints.contains c = true →
      ∃ x, x ≠ n ∧ g.Reaches n x ∧ (g.ownConstraints x).contains c = true) ∧
    (∀ k, a.below.kinds.contains k = true → ∃ x, x ≠ n ∧ g.Reaches n x ∧
      ∃ e, g.entry? x = some e ∧ ∃ p ∈ e.scan.patterns, p.kind = k) := by
  intro g
  obtain ⟨-, -, h⟩ :=
    Memo.enduring_upheld.after (inOrder_start units st (Memo.upheld_empty _)) moves
  refine ⟨h.component n a ha, h.cyclic n a ha, fun name hname => ?_, fun c hc => ?_, fun k hk => ?_⟩
  · obtain ⟨x, hne, hreach, -, hx⟩ := h.below n a ha (.sink name) hname
    obtain rfl := Burden.own_has_sink.1 hx
    exact ⟨hne, hreach⟩
  · obtain ⟨x, hne, hreach, -, hx⟩ := h.below n a ha (.constraint c) hc
    exact ⟨x, hne, hreach, hx⟩
  · obtain ⟨x, hne, hreach, -, hx⟩ := h.below n a ha (.kind k) hk
    exact ⟨x, hne, hreach, Burden.own_has_kind.1 hx⟩

/-- What is said of a function whose callees were aggregated before they gained calls: it tells of
the exposure of a function that was defined after it had been asked for. -/
theorem aggregates_upheld_late :
    ∃ a, ((start callingCycle {}).after lateDefinitions).memo.aggregates.get? (.function "k") = some a ∧
      a.below.constraints.contains .interopExposure = true ∧
      ∃ x, x ≠ .function "k" ∧
        ((start callingCycle {}).after lateDefinitions).graph.Reaches (.function "k") x ∧
        (((start callingCycle {}).after lateDefinitions).graph.ownConstraints x).contains
          .interopExposure = true := by
  have hexposed : (((start callingCycle {}).after lateDefinitions).memo.aggregates.get?
      (.function "k")).any (fun a => a.below.constraints.contains .interopExposure) = true := by
    decide +kernel
  obtain ⟨a, ha, hc⟩ := (Option.any_eq_true _ _).1 hexposed
  have hupheld := aggregates_upheld callingCycle {} lateDefinitions _ a ha
  exact ⟨a, ha, hc, hupheld.2.2.2.1 _ hc⟩

end Session
end AsyncMigration
