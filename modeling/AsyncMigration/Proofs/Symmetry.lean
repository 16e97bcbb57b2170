import AsyncMigration.Proofs.Growth

/-!
# What the members of a component share

The members of a component are closed together, once for all, so they go on sharing what they were
given, however the graph grows. A component of several members holds catalogued functions only, whose
own constraints are settled; a name that is asked for before it is defined is alone in its component.

* `Memo.Shared` — what the aggregates of one component have in common.
* `Memo.enduring_shared` — closing components and growing keep this up.
* `Session.components_endure` — so it holds after any moves, and no aggregate is ever revised.
-/

namespace AsyncMigration

namespace Burden

variable {g : CallGraph} {n : Node} {b : Burden}

/-- Only sinks bring the dependency on a sink. -/
theorem own_has_dependency :
    (own g n).Has (.constraint .externalSinkDependency) ↔ ∃ s, (own g n).Has (.sink s) := by
  simp only [own_has_sink]
  cases n with
  | sink name => exact ⟨fun _ => ⟨name, rfl⟩, fun _ => rfl⟩
  | function name =>
    refine ⟨fun h => ?_, fun ⟨s, hs⟩ => by cases hs⟩
    have hnone : (g.ownConstraints (.function name)).contains .externalSinkDependency = false := by
      simp only [CallGraph.ownConstraints]
      cases g.catalog.get? name <;> rfl
    exact absurd (hnone.symm.trans h) Bool.false_ne_true

/-- A burden tells of a dependency on sinks if and only if it names some. -/
def NamesSinks (b : Burden) : Prop :=
  b.Has (.constraint .externalSinkDependency) ↔ ∃ s, b.Has (.sink s)

theorem namesSinks_iff : b.NamesSinks ↔
    (b.constraints.contains .externalSinkDependency = true ↔ b.sinks.names ≠ []) := by
  have hnames : b.sinks.names ≠ [] ↔ ∃ s, b.Has (.sink s) := by
    simp [List.eq_nil_iff_forall_not_mem, Has]
  rw [hnames]
  rfl

end Burden

namespace Memo

variable {g g' : CallGraph} {m : Memo} {members : List Node} {n x : Node}
  {t t₀ : Table Node Aggregate}

/-! ## Aggregates are not revised -/

/-- A table holds all that another holds. -/
def Extends (t₀ t : Table Node Aggregate) : Prop := ∀ n a, t₀.get? n = some a → t.get? n = some a

/-- Only nodes without aggregates are closed. -/
theorem Closable.get?_close (hm : m.Closable g members) {a : Aggregate}
    (ha : m.aggregates.get? n = some a) : (m.close g members).aggregates.get? n = some a := by
  have hn : n ∉ members := fun hn => hm.fresh n hn (Option.isSome_iff_exists.2 ⟨a, ha⟩)
  rw [Memo.get?_close, if_neg hn]
  exact ha

theorem enduring_extends (t₀ : Table Node Aggregate) :
    Session.Enduring fun _ t => Extends t₀ t where
  close _ _ _ _ hm h n a ha := hm.get?_close (h n a ha)
  grow _ _ _ _ h := h

/-! ## Members of one component -/

/-- What two nodes of one component have in common. -/
structure Fellows (g : CallGraph) (n x : Node) (a b : Aggregate) : Prop where
  component : b.component = a.component
  cyclic : b.cyclic = a.cyclic
  sinks : b.below.sinks = a.below.sinks
  constraints : (g.ownConstraints x).union b.below.constraints
    = (g.ownConstraints n).union a.below.constraints

/-- The aggregates of a table come in components whose members have all in common. -/
structure Shared (g : CallGraph) (t : Table Node Aggregate) : Prop where
  self : ∀ n a, t.get? n = some a → n ∈ a.component
  fellows : ∀ n a, t.get? n = some a → ∀ x ∈ a.component, ∃ b, t.get? x = some b ∧ Fellows g n x a b
  entered : ∀ n a, t.get? n = some a → ∀ x ∈ a.component, x ≠ n → ∃ e, g.entry? x = some e
  sinks : ∀ n a, t.get? n = some a → a.below.NamesSinks

theorem shared_empty (g : CallGraph) : Shared g {} := by
  refine ⟨?_, ?_, ?_, ?_⟩ <;> exact fun _ _ h => absurd h (Option.some_ne_none _).symm

/-- Components that overlap are the same. -/
theorem Shared.component_eq (h : Shared g t) {y : Node} {a b : Aggregate} (ha : t.get? n = some a)
    (hb : t.get? x = some b) (hya : y ∈ a.component) (hyb : y ∈ b.component) :
    b.component = a.component := by
  obtain ⟨c, hc, hca⟩ := h.fellows n a ha y hya
  obtain ⟨d, hd, hdb⟩ := h.fellows x b hb y hyb
  obtain rfl : d = c := Option.some.inj (hd.symm.trans hc)
  exact hdb.component.symm.trans hca.component

section Closing

variable (hm : m.Closable g members) (hn : n ∈ members) (hx : x ∈ members)

include hm hn in
/-- A member with fellows calls, and so it is catalogued. -/
theorem Closable.entered (hg : g.Grounded) (hx : x ∈ members) (hne : x ≠ n) :
    ∃ e, g.entry? x = some e := by
  rcases Relation.ReflTransGen.cases_head (hm.strong x hx n hn) with heq | ⟨c, hcall, -⟩
  · exact absurd heq hne
  · exact hg x c hcall

include hm hn hx in
/-- The sinks of a member are those that the calls out of the component reach. -/
theorem Closable.sinks_eq : (m.closedAggregate g members x).below.sinks
    = (m.closedAggregate g members n).below.sinks := by
  have hout : ∀ y ∈ members, ∀ s, (m.closedAggregate g members y).below.Has (.sink s) ↔
      ∃ c, (∃ z ∈ members, c ∈ g.successors z) ∧ c ∉ members ∧ (m.reached g c).Has (.sink s) := by
    intro y hy s
    rw [hm.closedAggregate_has hy]
    refine or_iff_left ?_
    rintro ⟨z, hz, hne, hs⟩
    exact hm.not_sink hy hz hne s (Burden.own_has_sink.1 hs)
  refine NameSet.ext_of_pairwise (Burden.Ordered.union _ (Burden.ordered_join _))
    (Burden.Ordered.union _ (Burden.ordered_join _)) fun s => ?_
  exact (hout x hx s).trans (hout n hn s).symm

include hm hn in
/-- With its own constraints a member has those of the calls out of the component and of all members. -/
theorem constraints_closedAggregate (c : Constraint) :
    ((g.ownConstraints n).union (m.closedAggregate g members n).below.constraints).contains c = true ↔
      (∃ d, (∃ y ∈ members, d ∈ g.successors y) ∧ d ∉ members ∧ (m.reached g d).Has (.constraint c)) ∨
        ∃ y ∈ members, (g.ownConstraints y).contains c = true := by
  have hbelow := hm.closedAggregate_has hn (.constraint c)
  rw [ConstraintSet.contains_union, Bool.or_eq_true]
  constructor
  · rintro (hown | hhas)
    · exact Or.inr ⟨n, hn, hown⟩
    · rcases hbelow.1 hhas with hout | ⟨y, hy, -, hown⟩
      · exact Or.inl hout
      · exact Or.inr ⟨y, hy, hown⟩
  · rintro (hout | ⟨y, hy, hown⟩)
    · exact Or.inr (hbelow.2 (Or.inl hout))
    · by_cases hyn : y = n
      · exact Or.inl (hyn ▸ hown)
      · exact Or.inr (hbelow.2 (Or.inr ⟨y, hy, hyn, hown⟩))

include hm hn hx in
theorem Closable.fellows :
    Fellows g n x (m.closedAggregate g members n) (m.closedAggregate g members x) where
  component := rfl
  cyclic := rfl
  sinks := hm.sinks_eq hn hx
  constraints := ConstraintSet.ext_of_contains fun c =>
    Bool.eq_iff_iff.2 ((constraints_closedAggregate hm hx c).trans
      (constraints_closedAggregate hm hn c).symm)

/-- What reaching an aggregated node brings names sinks if its aggregate does. -/
theorem namesSinks_reached (h : ∀ a, m.aggregates.get? x = some a → a.below.NamesSinks) :
    (m.reached g x).NamesSinks := by
  unfold reached Burden.NamesSinks
  cases hx : m.aggregates.get? x with
  | none => simp [Burden.has_empty]
  | some a =>
    simp only [Burden.has_union, exists_or]
    exact or_congr (h a hx) Burden.own_has_dependency

include hm hn in
theorem namesSinks_closedAggregate
    (h : ∀ y a, m.aggregates.get? y = some a → a.below.NamesSinks) :
    (m.closedAggregate g members n).below.NamesSinks := by
  unfold Burden.NamesSinks
  simp only [hm.closedAggregate_has hn, exists_or]
  refine or_congr ?_ ?_
  · constructor
    · rintro ⟨c, hcall, hout, hc⟩
      obtain ⟨s, hs⟩ := (namesSinks_reached (h c)).1 hc
      exact ⟨s, c, hcall, hout, hs⟩
    · rintro ⟨s, c, hcall, hout, hs⟩
      exact ⟨c, hcall, hout, (namesSinks_reached (h c)).2 ⟨s, hs⟩⟩
  · constructor
    · rintro ⟨y, hy, hne, hown⟩
      obtain ⟨s, hs⟩ := Burden.own_has_dependency.1 hown
      exact ⟨s, y, hy, hne, hs⟩
    · rintro ⟨s, y, hy, hne, hs⟩
      exact ⟨y, hy, hne, Burden.own_has_dependency.2 ⟨s, hs⟩⟩

end Closing

theorem shared_close (hg : g.Grounded) : Search.ClosedUnder g (Shared g) := by
  intro m members hm h
  -- what was there stays; what is new comes of closing the members
  have hcases : ∀ n a, (m.close g members).aggregates.get? n = some a →
      (n ∈ members ∧ a = m.closedAggregate g members n) ∨ m.aggregates.get? n = some a := by
    intro n a ha
    rw [get?_close] at ha
    split at ha
    · next hn => exact Or.inl ⟨hn, (Option.some.inj ha).symm⟩
    · exact Or.inr ha
  have hnew : ∀ x ∈ members, (m.close g members).aggregates.get? x
      = some (m.closedAggregate g members x) := by
    intro x hx
    rw [get?_close, if_pos hx]
  refine ⟨fun n a ha => ?_, fun n a ha x hx => ?_, fun n a ha x hx hne => ?_, fun n a ha => ?_⟩
  · rcases hcases n a ha with ⟨hn, rfl⟩ | ha
    · exact mem_closedAggregate.2 hn
    · exact h.self n a ha
  · rcases hcases n a ha with ⟨hn, rfl⟩ | ha
    · have hx := mem_closedAggregate.1 hx
      exact ⟨_, hnew x hx, hm.fellows hn hx⟩
    · obtain ⟨b, hb, hab⟩ := h.fellows n a ha x hx
      exact ⟨b, hm.get?_close hb, hab⟩
  · rcases hcases n a ha with ⟨hn, rfl⟩ | ha
    · exact hm.entered hn hg (mem_closedAggregate.1 hx) hne
    · exact h.entered n a ha x hx hne
  · rcases hcases n a ha with ⟨hn, rfl⟩ | ha
    · exact namesSinks_closedAggregate hm hn h.sinks
    · exact h.sinks n a ha

/-- Fellows are catalogued, unless they are one and the same node, so that growing leaves their own
constraints alone. -/
theorem Shared.grow (hg : g.Grows g') (h : Shared g t) : Shared g' t := by
  refine ⟨h.self, fun n a ha x hx => ?_, fun n a ha x hx hne => ?_, h.sinks⟩
  · obtain ⟨b, hb, hab⟩ := h.fellows n a ha x hx
    refine ⟨b, hb, hab.component, hab.cyclic, hab.sinks, ?_⟩
    by_cases hne : x = n
    · subst hne
      obtain rfl : b = a := Option.some.inj (hb.symm.trans ha)
      rfl
    · obtain ⟨e, he⟩ := h.entered n a ha x hx hne
      obtain ⟨e', he'⟩ := h.entered x b hb n (hab.component ▸ h.self n a ha) (Ne.symm hne)
      rw [← hg.ownConstraints_eq he, ← hg.ownConstraints_eq he']
      exact hab.constraints
  · obtain ⟨e, he⟩ := h.entered n a ha x hx hne
    exact ⟨e, hg.entries x e he⟩

theorem enduring_shared : Session.Enduring Shared where
  close _ hg := shared_close hg
  grow _ _ _ hg h := h.grow hg

end Memo

namespace Session

/-- **Components endure.** Whatever is asked of a session and added to it, in any order: no aggregate
is ever changed or lost. A node with an aggregate is in its component. All members of the component
have aggregates, with the same component, cyclic mark and sinks, and with the same constraints when
their own are counted in. Components that overlap are the same. And an aggregate tells of a
dependency on sinks if and only if it names some. -/
theorem components_endure (units : List SourceUnit) (st : Settings) (moves later : List Move) :
    let s := (start units st).after moves
    (∀ n a, s.memo.aggregates.get? n = some a →
      ((start units st).after (moves ++ later)).memo.aggregates.get? n = some a) ∧
    ∀ n a, s.memo.aggregates.get? n = some a →
      n ∈ a.component ∧
      (∀ x ∈ a.component, ∃ b, s.memo.aggregates.get? x = some b ∧ b.component = a.component ∧
        b.cyclic = a.cyclic ∧ b.below.sinks = a.below.sinks ∧
        (s.graph.ownConstraints x).union b.below.constraints
          = (s.graph.ownConstraints n).union a.below.constraints) ∧
      (∀ x b, s.memo.aggregates.get? x = some b → (∃ y ∈ a.component, y ∈ b.component) →
        b.component = a.component) ∧
      (a.below.constraints.contains .externalSinkDependency = true ↔ a.below.sinks.names ≠ []) := by
  intro s
  obtain ⟨hsettled, hgrounded, hshared⟩ :=
    Memo.enduring_shared.after (inOrder_start units st (Memo.shared_empty _)) moves
  refine ⟨fun n a ha => ?_, fun n a ha => ⟨hshared.self n a ha, fun x hx => ?_, ?_, ?_⟩⟩
  · have hkept := (Memo.enduring_extends s.memo.aggregates).after
      ⟨hsettled, hgrounded, fun _ _ h => h⟩ later
    rw [after_append]
    exact hkept.known n a ha
  · obtain ⟨b, hb, hab⟩ := hshared.fellows n a ha x hx
    exact ⟨b, hb, hab.component, hab.cyclic, hab.sinks, hab.constraints⟩
  · rintro x b hb ⟨y, hya, hyb⟩
    exact hshared.component_eq ha hb hya hyb
  · exact Burden.namesSinks_iff.1 (hshared.sinks n a ha)

/-- A cycle that gains a call to a sink after it has been found. -/
theorem components_endure_late :
    ∃ a, ((start callingCycle {}).after lateDefinitions).memo.aggregates.get? (.function "f") = some a ∧
      ((start callingCycle {}).after (lateDefinitions ++ [.ask (.decide (.function "k"))])).memo.aggregates.get?
        (.function "f") = some a ∧
      .function "f" ∈ a.component ∧ (∀ x ∈ a.component, ∃ b,
        ((start callingCycle {}).after lateDefinitions).memo.aggregates.get? x = some b ∧
          b.component = a.component) := by
  have hsome : (((start callingCycle {}).after lateDefinitions).memo.aggregates.get?
      (.function "f")).isSome = true := by decide +kernel
  obtain ⟨a, ha⟩ := Option.isSome_iff_exists.1 hsome
  have hlasts := components_endure callingCycle {} lateDefinitions [.ask (.decide (.function "k"))]
  obtain ⟨hself, hfellows, -, -⟩ := hlasts.2 _ a ha
  refine ⟨a, ha, hlasts.1 _ a ha, hself, fun x hx => ?_⟩
  obtain ⟨b, hb, hcomponent, -⟩ := hfellows x hx
  exact ⟨b, hb, hcomponent⟩

end Session
end AsyncMigration
