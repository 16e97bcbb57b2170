import AsyncMigration.Proofs.DepthFirst
import AsyncMigration.Proofs.Symmetry

/-!
# Gaps in what is known

A search for aggregates stops at nodes that have one, and a walk goes through them along the calls
that the graph has by now. A call added behind an aggregated node may therefore lead a walk to a node
about which nothing is known: a gap. Where nothing has been added the known nodes are closed under
calls, and there is no gap.

* `Session.cyclesOf_eq_error_iff` — looking for cycles fails at the first gap.
* `Session.ask_traverse` — a traversal does to a session what the aggregate of its root does, but for
  what it tells.
* `Session.traversal_fails_at_gap` — a traversal fails if and only if it meets a gap.
-/

namespace AsyncMigration

/-- Nothing is known about a node. -/
def Memo.lacks (m : Memo) (n : Node) : Bool := (m.aggregates.get? n).isNone

theorem Memo.lacks_iff {m : Memo} {n : Node} :
    m.lacks n = true ↔ m.aggregates.get? n = none := Option.isNone_iff_eq_none

namespace Session

variable {s : Session} {m : Memo} {n root : Node} {a : Aggregate}

theorem cyclesOf_cons_of_lacks (h : m.lacks n = true) (ns : List Node) (found : List (List Node)) :
    cyclesOf m (n :: ns) found = .error n := by
  unfold cyclesOf
  rw [Memo.lacks_iff.1 h]

theorem cyclesOf_cons_of_knows (h : ¬ m.lacks n = true) (ns : List Node)
    (found : List (List Node)) : ∃ found', cyclesOf m (n :: ns) found = cyclesOf m ns found' := by
  obtain ⟨a, ha⟩ := Option.ne_none_iff_exists'.1 (mt Memo.lacks_iff.2 h)
  rw [cyclesOf.eq_2, ha]
  exact ⟨_, rfl⟩

/-- Looking for cycles fails at the first gap. -/
theorem cyclesOf_eq_error_iff (ns : List Node) (found : List (List Node)) :
    cyclesOf m ns found = .error n ↔ ns.find? m.lacks = some n := by
  induction ns generalizing found with
  | nil => simp [cyclesOf]
  | cons x ns ih =>
    rw [List.find?_cons]
    by_cases hx : m.lacks x = true
    · simp [cyclesOf_cons_of_lacks hx, hx]
    · obtain ⟨found', h⟩ := cyclesOf_cons_of_knows hx ns found
      simp [h, hx, ih]

/-- A request for the aggregate of a node answers it, and notes nothing else. -/
theorem exists_ask_aggregate (hs : s.memo.Settled) (n : Node) :
    ∃ a events, s.ask (aggregate n) =
        (.ok a, { s with memo := (s.memo.ensure s.graph n).1, log := s.log ++ events }) ∧
      (s.memo.ensure s.graph n).1.aggregates.get? n = some a ∧
      Memo.Extends s.memo.aggregates (s.memo.ensure s.graph n).1.aggregates := by
  -- closing a component keeps what is known; that is all that is needed of the property kept
  obtain ⟨-, hextends, hn⟩ := Memo.ensure_spec (n := n) (P := Memo.Extends s.memo.aggregates)
    (g := s.graph) (fun _ _ hm h x b hb => hm.get?_close (h x b hb)) hs fun _ _ h => h
  obtain ⟨a, ha⟩ := Option.isSome_iff_exists.1 hn
  exact ⟨a, _, ask_aggregate ha, ha, hextends⟩

/-- **What a traversal does.** It fails at the first gap that its walk meets, or answers. In both
cases it notes what the aggregate of its root notes. -/
theorem ask_traverse {s' : Session} (ha : s.ask (aggregate root) = (.ok a, s')) :
    ∃ r events, s.ask (traverse root) = (r, { s' with log := s'.log ++ events }) ∧
      ∀ e, r = .error e ↔ ∃ n, e = .notAggregated n ∧
        (Traversal.walk s'.graph root).visited.find? s'.memo.lacks = some n := by
  unfold traverse
  rw [ask_bind, ha]
  dsimp only
  rw [ask_get]
  simp only [← cyclesOf_eq_error_iff _ []]
  cases cyclesOf s'.memo (Traversal.walk s'.graph root).visited [] with
  | error n =>
    refine ⟨.error (.notAggregated n), [], ?_, fun e => ?_⟩
    · rw [List.append_nil]
      rfl
    · simp [eq_comm]
  | ok cycles =>
    refine ⟨.ok { Traversal.walk s'.graph root with cycles }, ?_⟩
    simp only [reduceCtorEq, and_false, exists_false, implies_true, and_true]
    split
    · exact ⟨_, rfl⟩
    · exact ⟨[], by rw [List.append_nil]; rfl⟩

/-- A walk meets a gap if and only if its root reaches one. -/
theorem exists_find?_visited_iff (g : CallGraph) (root : Node) (m : Memo) :
    (∃ n, (Traversal.walk g root).visited.find? m.lacks = some n) ↔
      ∃ n, g.Reaches root n ∧ m.aggregates.get? n = none := by
  rw [← Option.isSome_iff_exists, List.find?_isSome]
  simp only [Traversal.mem_visited, Memo.lacks_iff]

/-- What requests for aggregates keep lasts while nothing is added. -/
theorem after_questions {P : CallGraph → Memo → Prop}
    (hP : ∀ g m n, P g m → P g (m.ensure g n).1) (hs : P s.graph s.memo)
    (questions : List Question) :
    P (s.after (questions.map .ask)).graph (s.after (questions.map .ask)).memo := by
  induction questions generalizing s with
  | nil => exact hs
  | cons q questions ih => exact ih (keeps_question hP q s hs)

/-- Where the known nodes are closed under calls, a traversal answers. -/
theorem exists_traverse (hs : s.memo.Settled) (ht : Memo.Truthful s.graph s.memo.aggregates)
    (root : Node) : ∃ t, (s.ask (traverse root)).1 = .ok t := by
  obtain ⟨a, events, haggregate, ha, -⟩ := exists_ask_aggregate hs root
  obtain ⟨r, events', htraverse, hr⟩ := ask_traverse haggregate
  obtain ⟨-, ht', -⟩ := ht.ensure (n := root) hs
  rw [htraverse]
  cases r with
  | ok t => exact ⟨t, rfl⟩
  | error e =>
    obtain ⟨n, -, hn⟩ := (hr e).1 rfl
    obtain ⟨x, hx, hnone⟩ := (exists_find?_visited_iff _ _ _).1 ⟨n, hn⟩
    have hknown := ht'.contains_of_reaches (Option.isSome_iff_exists.2 ⟨a, ha⟩) hx
    rw [Table.contains, hnone] at hknown
    cases hknown

/-- **Traversals fail at gaps.** Whatever is asked of a session and added to it, in any order: the
aggregate of a node is found, and known from then on, and nothing else changes but that more becomes
known. A traversal fails if and only if afterwards nothing is known about some node that its root
reaches by then; it names the first such node that the depth-first search finds. Whether it fails or
answers, it leaves the session as the aggregate of its root does, but for what it tells. And it
answers, as long as nothing has been added since something became known. -/
theorem traversal_fails_at_gap (units : List SourceUnit) (st : Settings) (moves : List Move)
    (root : Node) :
    let s := (start units st).after moves
    let s' := (s.ask (aggregate root)).2
    (∃ a, (s.ask (aggregate root)).1 = .ok a ∧ s'.memo.aggregates.get? root = some a) ∧
    ({ s' with memo := s.memo, log := s.log } = s ∧
      Memo.Extends s.memo.aggregates s'.memo.aggregates) ∧
    ((∃ e, (s.ask (traverse root)).1 = .error e) ↔
      ∃ n, s.graph.Reaches root n ∧ s'.memo.aggregates.get? n = none) ∧
    (∀ e, (s.ask (traverse root)).1 = .error e ↔ ∃ n, e = .notAggregated n ∧
      (root :: (s.graph.callTree root).nodes).find? s'.memo.lacks = some n) ∧
    (∃ events, (s.ask (traverse root)).2 = { s' with log := s'.log ++ events }) ∧
    ((∀ n, s.memo.aggregates.get? n = none) → ∀ (questions : List Question) (root : Node),
      ∃ t, ((s.after (questions.map .ask)).ask (traverse root)).1 = .ok t) := by
  intro s s'
  have hsettled : s.memo.Settled :=
    ((Memo.enduring_extends {}).after (inOrder_start units st fun _ _ h => h) moves).settled
  obtain ⟨a, events, haggregate, ha, hextends⟩ := exists_ask_aggregate hsettled root
  obtain ⟨r, events', htraverse, hr⟩ := ask_traverse haggregate
  have hs' : s' = { s with memo := (s.memo.ensure s.graph root).1, log := s.log ++ events } :=
    congrArg Prod.snd haggregate
  have hvisited : (Traversal.walk s.graph root).visited = root :: (s.graph.callTree root).nodes := by
    rw [Traversal.visited, (Traversal.walk_eq_callTree s.graph root).1, List.map_cons,
      CallTree.map_visits]
  rw [htraverse, haggregate, hs', ← hvisited]
  refine ⟨⟨a, rfl, ha⟩, ⟨rfl, hextends⟩, ?_, hr, ⟨events', rfl⟩, fun hnone questions root => ?_⟩
  · rw [← exists_find?_visited_iff]
    constructor
    · rintro ⟨e, he⟩
      obtain ⟨n, -, hn⟩ := (hr e).1 he
      exact ⟨n, hn⟩
    · rintro ⟨n, hn⟩
      exact ⟨_, (hr _).2 ⟨n, rfl, hn⟩⟩
  · -- nothing known is closed under calls, and questions keep it so
    have hclosed : Memo.Truthful s.graph s.memo.aggregates := by
      refine ⟨fun n hn => ?_, fun n b hb => ?_⟩
      · rw [Table.contains, hnone] at hn
        cases hn
      · rw [hnone] at hb
        cases hb
    obtain ⟨hsettled', hclosed'⟩ := after_questions
      (P := fun g m => m.Settled ∧ Memo.Truthful g m.aggregates)
      (fun g m n h => ⟨(h.2.ensure h.1).1, (h.2.ensure h.1).2.1⟩) ⟨hsettled, hclosed⟩ questions
    exact exists_traverse hsettled' hclosed' root

/-- A cycle has been found, and one of its functions gains a call to a sink: what goes through the
cycle from then on meets the sink first among all that is not known. Without the growth all goes well. -/
theorem traversal_fails_at_gap_late :
    (((start callingCycle {}).after lateDefinitions).ask (traverse (.function "k"))).1
        = .error (.notAggregated (.sink "net")) ∧
      (∀ n, ((start callingCycle {}).after []).memo.aggregates.get? n = none) ∧
      ∃ t, (((start callingCycle {}).after [.ask (.decide (.function "g"))]).ask
        (traverse (.function "f"))).1 = .ok t := by
  have hgap : (.function "k" ::
      (((start callingCycle {}).after lateDefinitions).graph.callTree (.function "k")).nodes).find?
        (((start callingCycle {}).after lateDefinitions).ask (aggregate (.function "k"))).2.memo.lacks
      = some (.sink "net") := by decide +kernel
  refine ⟨?_, fun n => rfl, ?_⟩
  · obtain ⟨-, -, -, herror, -⟩ := traversal_fails_at_gap callingCycle {} lateDefinitions (.function "k")
    exact (herror _).2 ⟨_, rfl, hgap⟩
  · obtain ⟨-, -, -, -, -, hanswers⟩ := traversal_fails_at_gap callingCycle {} [] (.function "f")
    exact hanswers (fun n => rfl) [.decide (.function "g")] _

end Session
end AsyncMigration
