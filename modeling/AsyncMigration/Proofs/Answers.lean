import AsyncMigration.Proofs.Aggregates
import AsyncMigration.Proofs.Walks
import AsyncMigration.Session

/-!
# The answers of a session

What a session over an unchanged graph answers, without its tables: each answer is a function of the
graph and the settings. A session is faithful if all that its tables hold are such answers.

* `Session.Gives` — a query gives an answer in every faithful session, and leaves it faithful.
* `Session.gives_aggregate`, `gives_traverse`, `gives_summarize`, `gives_decide`, `gives_report`,
  `gives_analyze` — the queries give the answers named below.
-/

namespace AsyncMigration

/-! ## Answers without tables -/

namespace CallGraph

/-- The constraints of a node, its own and those below it. -/
def summaryOf (g : CallGraph) (n : Node) : ConstraintSummary :=
  .ofAggregate (g.ownConstraints n) (g.aggregateOf n)

/-- The cyclic components of nodes that are not found yet, in order. -/
def cyclesOf (g : CallGraph) : List Node → List (List Node) → List (List Node)
  | [], found => found
  | n :: ns, found =>
    g.cyclesOf ns
      (if (g.aggregateOf n).cyclic && !found.contains (g.aggregateOf n).component
        then found ++ [(g.aggregateOf n).component] else found)

/-- The walk from a root with its cyclic components. -/
def traversalOf (g : CallGraph) (root : Node) : Traversal :=
  { Traversal.walk g root with cycles := g.cyclesOf (Traversal.walk g root).visited [] }

/-- The decision for a catalogued function. -/
def decisionOn (g : CallGraph) (wrapped : NameSet) (e : CatalogEntry) (n : Node) : Decision :=
  match e.scan.failure with
  | some failure => decideUnscanned e failure
  | none => decideScanned g wrapped e (g.summaryOf n)

/-- The decision for a node. -/
def decisionOf (g : CallGraph) (wrapped : NameSet) (n : Node) : Except AnalysisError Decision :=
  match g.entry? n with
  | none => throw (.notDecidable n)
  | some e => return g.decisionOn wrapped e n

theorem decisionOf_eq_ok {g : CallGraph} {n : Node} {e : CatalogEntry} (h : g.entry? n = some e)
    (wrapped : NameSet) : g.decisionOf wrapped n = .ok (g.decisionOn wrapped e n) := by
  unfold decisionOf
  rw [h]
  rfl

/-- Whether a node is a redundant wrapper. -/
def redundancyOf (g : CallGraph) (n : Node) : Except AnalysisError Bool :=
  match g.entry? n with
  | none => throw (.notCatalogued n)
  | some e => return g.isRedundantWrapper e

/-- The report on a catalogued function with a given priority. -/
def reportOn (g : CallGraph) (st : Settings) (e : CatalogEntry) (n : Node) (priority : Priority) :
    FunctionReport :=
  { name := e.name, path := e.signature.path, line := e.signature.line
    patterns := e.scan.patterns, constraints := g.summaryOf n
    decision := g.decisionOn st.wrappedSinks e n, priority, callSites := g.callSiteCount n }

/-- The priority of a catalogued function. -/
def priorityOf (g : CallGraph) (st : Settings) (e : CatalogEntry) (n : Node) :
    Except Binary64.ConversionError Priority :=
  (g.decisionOn st.wrappedSinks e n).category.priority
    (.of (g.decisionOn st.wrappedSinks e n) e.scan (g.callSiteCount n)) st.priority

/-- The report on a node. -/
def reportOf (g : CallGraph) (st : Settings) (n : Node) : Except AnalysisError FunctionReport :=
  match g.entry? n with
  | none => throw (.notCatalogued n)
  | some e =>
    match g.priorityOf st e n with
    | .error .outOfRange => throw .outOfRange
    | .ok priority => return g.reportOn st e n priority

/-- The answer for a root. -/
def rootOf (g : CallGraph) (st : Settings) (root : String) : Except AnalysisError Result :=
  if g.catalog.contains root then do
    let function ← g.reportOf st (.function root)
    let dependencies ← ((g.traversalOf (.function root)).visited.tail.filter
      fun n => (g.entry? n).isSome).mapM (g.reportOf st)
    return { roots := [⟨function, g.traversalOf (.function root), dependencies⟩] }
  else return { failures := [.unknownRoot root] }

/-- The answer for roots, each once. -/
def resultOf (g : CallGraph) (st : Settings) (roots : List String) :
    Except AnalysisError Result := do
  let parts ← roots.eraseDups.mapM (g.rootOf st)
  return ⟨parts.flatMap (·.roots), g.catalog.failures ++ g.failures ++ parts.flatMap (·.failures)⟩

end CallGraph

namespace Session

variable {g : CallGraph} {st : Settings} {s : Session} {α β : Type} {n : Node}

/-! ## Faithful sessions -/

/-- All that the tables of a session hold are the answers for a graph and settings. -/
structure Faithful (g : CallGraph) (st : Settings) (s : Session) : Prop where
  settings : s.settings = st
  graph : s.graph = g
  settled : s.memo.Settled
  truthful : Memo.Truthful g s.memo.aggregates
  summaries : ∀ n x, s.summaries.get? n = some x → x = g.summaryOf n
  decisions : ∀ n d, s.decisions.get? n = some d → g.decisionOf st.wrappedSinks n = .ok d
  reports : ∀ n r, s.reports.get? n = some r → g.reportOf st n = .ok r

/-- The answer to a query and the session after it. -/
def ask (s : Session) (q : Query α) : Except AnalysisError α × Session := q.run.run s

/-- A query gives an answer in a session and leaves it faithful. -/
def GivesAt (g : CallGraph) (st : Settings) (s : Session) (q : Query α)
    (x : Except AnalysisError α) : Prop :=
  (s.ask q).1 = x ∧ (s.ask q).2.Faithful g st

/-- A query gives an answer in every faithful session and leaves it faithful. -/
def Gives (g : CallGraph) (st : Settings) (q : Query α) (x : Except AnalysisError α) : Prop :=
  ∀ s : Session, s.Faithful g st → GivesAt g st s q x

theorem Gives.pure (a : α) : Gives g st (pure a) (pure a) := fun _ hs => ⟨rfl, hs⟩

theorem Gives.throw (e : AnalysisError) : Gives g st (throw e : Query α) (throw e) :=
  fun _ hs => ⟨rfl, hs⟩

theorem ask_bind (s : Session) (q : Query α) (k : α → Query β) :
    s.ask (q >>= k) = match s.ask q with
      | (.ok a, s') => s'.ask (k a)
      | (.error e, s') => (.error e, s') := by
  show ((q >>= k).run.run s : Id _) = _
  simp only [ExceptT.run_bind, StateT.run_bind, ask]
  generalize (q.run.run s : Id _) = r
  obtain ⟨_ | _, _⟩ := r <;> rfl

theorem GivesAt.bind {q : Query α} {k : α → Query β} {x : Except AnalysisError α}
    {y : α → Except AnalysisError β} (hq : GivesAt g st s q x)
    (hk : ∀ a, x = .ok a → Gives g st (k a) (y a)) : GivesAt g st s (q >>= k) (x >>= y) := by
  obtain ⟨hx, hs⟩ := hq
  unfold GivesAt
  rw [ask_bind]
  generalize s.ask q = r at hx hs
  obtain ⟨r, s'⟩ := r
  subst hx
  cases r with
  | error e => exact ⟨rfl, hs⟩
  | ok a => exact hk a rfl s' hs

theorem Gives.bind {q : Query α} {k : α → Query β} {x : Except AnalysisError α}
    {y : α → Except AnalysisError β} (hq : Gives g st q x)
    (hk : ∀ a, x = .ok a → Gives g st (k a) (y a)) : Gives g st (q >>= k) (x >>= y) :=
  fun s hs => (hq s hs).bind hk

/-- After a query that gives an answer the next one goes on with it. -/
theorem GivesAt.andThen {q : Query α} {k : α → Query β} {a : α} {y : Except AnalysisError β}
    (hq : GivesAt g st s q (.ok a)) (hk : GivesAt g st (s.ask q).2 (k a) y) :
    GivesAt g st s (q >>= k) y := by
  obtain ⟨hx, -⟩ := hq
  unfold GivesAt at hk ⊢
  rw [ask_bind]
  generalize s.ask q = r at hx hk
  obtain ⟨r, s'⟩ := r
  subst hx
  exact hk

theorem Gives.andThen {q : Query α} {k : α → Query β} {a : α} {y : Except AnalysisError β}
    (hq : Gives g st q (.ok a)) (hk : Gives g st (k a) y) : Gives g st (q >>= k) y :=
  fun s hs => (hq s hs).andThen (hk _ (hq s hs).2)

@[simp] theorem ask_pure (s : Session) (a : α) : s.ask (pure a) = (.ok a, s) := rfl

@[simp] theorem ask_get (s : Session) (k : Session → Query β) : s.ask (get >>= k) = s.ask (k s) := rfl

@[simp] theorem ask_set (s s' : Session) (k : PUnit → Query β) :
    s.ask (set s' >>= k) = s'.ask (k ⟨⟩) := rfl

@[simp] theorem ask_tell (s : Session) (events : List Event) (k : PUnit → Query β) :
    s.ask (tell events >>= k) = ({ s with log := s.log ++ events } : Session).ask (k ⟨⟩) := rfl

theorem Faithful.tell (hs : s.Faithful g st) (log : List Event) :
    ({ s with log } : Session).Faithful g st := { hs with }

/-- What holds of all entries of a table and of a new one holds afterwards. -/
theorem forall_insert {κ γ : Type} [DecidableEq κ] {t : Table κ γ} {P : κ → γ → Prop} {k : κ} {x : γ}
    (ht : ∀ k x, t.get? k = some x → P k x) (hx : P k x) :
    ∀ k' x', (t.insert k x).get? k' = some x' → P k' x' := by
  intro k' x' h
  rw [Table.get?_insert] at h
  split at h
  · next he =>
    subst he
    exact Option.some.inj h ▸ hx
  · exact ht k' x' h

theorem Faithful.noteSummary (hs : s.Faithful g st) (n : Node) :
    ({ s with summaries := s.summaries.insert n (g.summaryOf n) } : Session).Faithful g st :=
  { hs with summaries := forall_insert hs.summaries rfl }

theorem Faithful.noteDecision (hs : s.Faithful g st) {d : Decision}
    (hd : g.decisionOf st.wrappedSinks n = .ok d) :
    ({ s with decisions := s.decisions.insert n d } : Session).Faithful g st :=
  { hs with decisions := forall_insert hs.decisions hd }

theorem Faithful.noteReport (hs : s.Faithful g st) {r : FunctionReport}
    (hr : g.reportOf st n = .ok r) :
    ({ s with reports := s.reports.insert n r } : Session).Faithful g st :=
  { hs with reports := forall_insert hs.reports hr }

theorem gives_tell (events : List Event) : Gives g st (tell events) (.ok ()) :=
  fun _ hs => ⟨rfl, hs.tell _⟩

/-! ## The queries -/

theorem ask_aggregate {a : Aggregate}
    (ha : (s.memo.ensure s.graph n).1.aggregates.get? n = some a) : s.ask (aggregate n) =
      (.ok a, { s with
        memo := (s.memo.ensure s.graph n).1
        log := s.log ++ (s.memo.ensure s.graph n).2.map
          fun members => .cycleFound (members.map Node.text) }) := by
  simp only [aggregate, ask_get, ask_set, ask_tell, ha, ask_pure]

/-- Afterwards all that the node reaches is aggregated. -/
theorem aggregate_spec (hs : s.Faithful g st) : GivesAt g st s (aggregate n) (.ok (g.aggregateOf n)) ∧
    ∀ m, g.Reaches n m → (s.ask (aggregate n)).2.memo.aggregates.contains m = true := by
  obtain rfl := hs.graph
  obtain ⟨hsettled, htruthful, hget⟩ := hs.truthful.ensure (n := n) hs.settled
  unfold GivesAt
  rw [ask_aggregate hget]
  refine ⟨⟨rfl, ?_⟩, fun m hm => ?_⟩
  · exact { hs with settled := hsettled, truthful := htruthful }
  · exact htruthful.contains_of_reaches (Option.isSome_iff_exists.2 ⟨_, hget⟩) hm

theorem gives_aggregate (n : Node) : Gives g st (aggregate n) (.ok (g.aggregateOf n)) :=
  fun _ hs => (aggregate_spec hs).1

/-- Where all nodes are aggregated truthfully, their cyclic components are those of the graph. -/
theorem cyclesOf_eq {m : Memo} (ht : Memo.Truthful g m.aggregates) (ns : List Node)
    (found : List (List Node)) (hns : ∀ n ∈ ns, m.aggregates.contains n = true) :
    cyclesOf m ns found = .ok (g.cyclesOf ns found) := by
  induction ns generalizing found with
  | nil => rfl
  | cons n ns ih =>
    unfold cyclesOf CallGraph.cyclesOf
    rw [ht.get? (hns n List.mem_cons_self)]
    exact ih _ fun x hx => hns x (List.mem_cons_of_mem _ hx)

theorem gives_traverse (root : Node) : Gives g st (traverse root) (.ok (g.traversalOf root)) := by
  intro s hs
  obtain ⟨ha, hreach⟩ := aggregate_spec (n := root) hs
  refine ha.andThen ?_
  have hs' := ha.2
  generalize (s.ask (aggregate root)).2 = s' at hs' hreach
  obtain rfl := hs'.graph
  have hcycles := cyclesOf_eq hs'.truthful (Traversal.walk s'.graph root).visited []
    fun n hn => hreach n (Traversal.mem_visited.1 hn)
  unfold GivesAt
  simp only [ask_get, hcycles]
  split
  · exact ⟨rfl, hs'.tell _⟩
  · exact ⟨rfl, hs'⟩

theorem gives_summarize (n : Node) : Gives g st (summarize n) (.ok (g.summaryOf n)) := by
  intro s hs
  unfold GivesAt summarize
  rw [ask_get]
  split
  · next x hx => exact ⟨congrArg Except.ok (hs.summaries n x hx), hs⟩
  · refine (gives_aggregate n).andThen (fun s' hs' => ?_) s hs
    obtain rfl := hs'.graph
    exact ⟨rfl, hs'.noteSummary n⟩

theorem gives_evaluate (n : Node) : Gives g st (evaluate n) (g.decisionOf st.wrappedSinks n) := by
  intro s hs
  obtain rfl := hs.graph
  unfold GivesAt evaluate CallGraph.decisionOf
  rw [ask_get]
  cases hn : s.graph.entry? n with
  | none => exact ⟨rfl, hs⟩
  | some e =>
    unfold CallGraph.decisionOn
    dsimp only
    cases hf : e.scan.failure with
    | some failure => exact ⟨rfl, hs⟩
    | none =>
      refine (gives_summarize n).andThen (fun s' hs' => ?_) s hs
      exact ⟨by rw [ask_get, hs'.graph, hs'.settings]; rfl, hs'⟩

theorem gives_decide (n : Node) : Gives g st (decide n) (g.decisionOf st.wrappedSinks n) := by
  intro s hs
  unfold GivesAt decide
  rw [ask_get]
  split
  · next d hd => exact ⟨(hs.decisions n d hd).symm, hs⟩
  · rw [← bind_pure (g.decisionOf st.wrappedSinks n)]
    refine (gives_evaluate n).bind (fun d hd s' hs' => ?_) s hs
    exact ⟨rfl, (hs'.noteDecision hd).tell _⟩

theorem gives_isRedundantWrapper (n : Node) :
    Gives g st (isRedundantWrapper n) (g.redundancyOf n) := by
  intro s hs
  obtain rfl := hs.graph
  unfold GivesAt isRedundantWrapper CallGraph.redundancyOf
  rw [ask_get]
  cases s.graph.entry? n with
  | none => exact ⟨rfl, hs⟩
  | some e => exact ⟨rfl, hs⟩

theorem gives_report (n : Node) : Gives g st (report n) (g.reportOf st n) := by
  intro s hs
  unfold GivesAt report
  rw [ask_get]
  split
  · next r hr => exact ⟨(hs.reports n r hr).symm, hs⟩
  rw [ask_get]
  split
  · next hn =>
    rw [hs.graph] at hn
    simp only [CallGraph.reportOf, hn]
    exact ⟨rfl, hs⟩
  · next e hn =>
    rw [hs.graph] at hn
    have hd : g.decisionOf st.wrappedSinks n = .ok (g.decisionOn st.wrappedSinks e n) := by
      simp only [CallGraph.decisionOf, hn]; rfl
    have hdecide : Gives g st (decide n) (g.decisionOf st.wrappedSinks n) := gives_decide n
    rw [hd] at hdecide
    refine hdecide.andThen (fun s' hs' => ?_) s hs
    obtain rfl := hs'.graph
    obtain rfl := hs'.settings
    unfold GivesAt
    rw [ask_get]
    simp only
    split
    · next hp =>
      have hr : s'.graph.reportOf s'.settings n = .error .outOfRange := by
        simp only [CallGraph.reportOf, hn, CallGraph.priorityOf, hp]; rfl
      exact ⟨hr.symm, hs'⟩
    · next priority hp =>
      have hr : s'.graph.reportOf s'.settings n
          = .ok (s'.graph.reportOn s'.settings e n priority) := by
        simp only [CallGraph.reportOf, hn, CallGraph.priorityOf, hp]; rfl
      rw [hr]
      refine (gives_summarize n).andThen (fun s'' hs'' => ?_) s' hs'
      exact ⟨rfl, hs''.noteReport hr⟩

/-! ## Lists of queries -/

theorem Gives.mapM {q : α → Query β} {x : α → Except AnalysisError β} (l : List α)
    (h : ∀ a ∈ l, Gives g st (q a) (x a)) : Gives g st (l.mapM q) (l.mapM x) := by
  induction l with
  | nil => exact .pure _
  | cons a l ih =>
    rw [List.mapM_cons, List.mapM_cons]
    refine (h a List.mem_cons_self).bind fun b _ => ?_
    refine (ih fun c hc => h c (List.mem_cons_of_mem _ hc)).bind fun bs _ => ?_
    exact .pure _

theorem gives_analyzeRoot (root : String) : Gives g st (analyzeRoot root) (g.rootOf st root) := by
  intro s hs
  unfold GivesAt analyzeRoot CallGraph.rootOf
  rw [ask_get, hs.graph]
  split
  · refine (gives_traverse _).andThen ((gives_report _).bind fun r _ s' hs' => ?_) s hs
    unfold GivesAt
    rw [ask_get, hs'.graph]
    exact (Gives.mapM _ fun n _ => gives_report n).bind (fun rs _ => .pure _) s' hs'
  · refine (gives_tell _).andThen ?_ s hs
    exact .pure _

theorem gives_analyzeRoots (g : CallGraph) (st : Settings) (roots : List String) :
    Gives g st (analyzeRoots roots) (do
      let parts ← roots.mapM (g.rootOf st)
      return ⟨parts.flatMap (·.roots), parts.flatMap (·.failures)⟩) := by
  induction roots with
  | nil => exact .pure _
  | cons root roots ih =>
    unfold analyzeRoots
    rw [List.mapM_cons]
    simp only [bind_assoc, pure_bind]
    refine (gives_analyzeRoot root).bind fun part _ => ?_
    have hrest := ih.bind fun rest _ => Gives.pure (part.append rest)
    simpa only [bind_assoc, pure_bind, Result.append, List.flatMap_cons] using hrest

theorem gives_analyze (roots : List String) : Gives g st (analyze roots) (g.resultOf st roots) := by
  intro s hs
  unfold GivesAt analyze
  rw [ask_get, failures, hs.graph]
  have hrest := (gives_analyzeRoots g st roots.eraseDups).bind fun r _ =>
    Gives.pure { r with failures := (g.catalog.failures ++ g.failures) ++ r.failures }
  simp only [bind_assoc, pure_bind] at hrest
  exact hrest s hs

end Session
end AsyncMigration
