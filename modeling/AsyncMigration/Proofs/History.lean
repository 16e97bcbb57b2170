import AsyncMigration.Proofs.Answers
import AsyncMigration.Proofs.Units

/-!
# Sessions forget nothing and mix up nothing

Questions may be put to a session in any order and any number. What is answered is what a session
that was never asked before would answer, and what is answered of a node is true of the graph.

* `Session.askAll_spec` — a run of questions gives the answers of the graph and leaves a faithful
  session.
* `Session.aggregate_exact` — an aggregate, asked for at any time, is the component, the cyclic mark
  and the burden of its node.
* `Session.answers_as_if_first` — every answer is the one that the question gets first.
-/

namespace AsyncMigration

/-- A question to a session; none of them changes the graph. -/
inductive Question where
  | aggregate (n : Node)
  | traverse (root : Node)
  | summarize (n : Node)
  | decide (n : Node)
  | redundant (n : Node)
  | report (n : Node)
  | analyze (roots : List String)
  | attention (roots : List String) (t : Tier)

/-- The answer to a question. -/
inductive Answer where
  | aggregate (a : Aggregate)
  | traversal (t : Traversal)
  | summary (s : ConstraintSummary)
  | decision (d : Decision)
  | truth (b : Bool)
  | report (r : FunctionReport)
  | result (r : Result)
deriving DecidableEq

namespace Question

/-- The query that answers a question. -/
def query : Question → Query Answer
  | aggregate n => .aggregate <$> Session.aggregate n
  | traverse root => .traversal <$> Session.traverse root
  | summarize n => .summary <$> Session.summarize n
  | decide n => .decision <$> Session.decide n
  | redundant n => .truth <$> Session.isRedundantWrapper n
  | report n => .report <$> Session.report n
  | analyze roots => .result <$> Session.analyze roots
  | attention roots t => (fun r => .truth (r.requiresAttention t)) <$> Session.analyze roots

/-- The answer that a graph and settings give. -/
def answer (g : CallGraph) (st : Settings) : Question → Except AnalysisError Answer
  | aggregate n => .ok (.aggregate (g.aggregateOf n))
  | traverse root => .ok (.traversal (g.traversalOf root))
  | summarize n => .ok (.summary (g.summaryOf n))
  | decide n => .decision <$> g.decisionOf st.wrappedSinks n
  | redundant n => .truth <$> g.redundancyOf n
  | report n => .report <$> g.reportOf st n
  | analyze roots => .result <$> g.resultOf st roots
  | attention roots t => (fun r => .truth (r.requiresAttention t)) <$> g.resultOf st roots

end Question

/-! ## Answers found -/

theorem bind_eq_ok {α β ε : Type} {x : Except ε α} {f : α → Except ε β} {b : β} :
    x >>= f = .ok b ↔ ∃ a, x = .ok a ∧ f a = .ok b := by
  cases x <;> simp [bind, Except.bind]

theorem map_eq_ok {α β ε : Type} {x : Except ε α} {f : α → β} {b : β} :
    x.map f = .ok b ↔ ∃ a, x = .ok a ∧ f a = b := by
  cases x <;> simp [Except.map]

theorem exists_ok_of_isOk {α ε : Type} {x : Except ε α} (h : x.isOk = true) : ∃ a, x = .ok a := by
  cases x with
  | error e => cases h
  | ok a => exact ⟨a, rfl⟩

/-- A list of answers is found if each of them is. -/
theorem mapM_eq_ok_iff {α β ε : Type} {f : α → Except ε β} {l : List α} {bs : List β} :
    l.mapM f = .ok bs ↔ List.Forall₂ (fun a b => f a = .ok b) l bs := by
  induction l generalizing bs with
  | nil => simp [pure, Except.pure, eq_comm]
  | cons a l ih =>
    rw [List.mapM_cons, List.forall₂_cons_left_iff]
    constructor
    · intro h
      obtain ⟨b, hb, h⟩ := bind_eq_ok.1 h
      obtain ⟨bs, hbs, h⟩ := bind_eq_ok.1 h
      cases h
      exact ⟨b, bs, hb, ih.1 hbs, rfl⟩
    · rintro ⟨b, bs, hb, hbs, rfl⟩
      exact bind_eq_ok.2 ⟨b, hb, bind_eq_ok.2 ⟨bs, ih.2 hbs, rfl⟩⟩

theorem exists_ok_of_mapM {α β ε : Type} {f : α → Except ε β} {l : List α} {bs : List β} {a : α}
    (h : l.mapM f = .ok bs) (ha : a ∈ l) : ∃ b, f a = .ok b := by
  rw [mapM_eq_ok_iff] at h
  induction h with
  | nil => cases ha
  | cons hb _ ih =>
    rcases List.mem_cons.1 ha with rfl | ha
    · exact ⟨_, hb⟩
    · exact ih ha

/-- The answers in a list are those to its questions. -/
theorem mem_of_mapM_iff {α β ε : Type} {f : α → Except ε β} {l : List α} {bs : List β} {b : β}
    (h : l.mapM f = .ok bs) : b ∈ bs ↔ ∃ a ∈ l, f a = .ok b := by
  rw [mapM_eq_ok_iff] at h
  induction h with
  | nil => simp
  | @cons a b' l bs hb _ ih =>
    rw [List.mem_cons, List.exists_mem_cons_iff, ih, hb]
    exact or_congr_left ⟨fun h => congrArg _ h.symm, fun h => (Except.ok.inj h).symm⟩

theorem exists_mapM_ok {α β ε : Type} {f : α → Except ε β} {l : List α}
    (h : ∀ a ∈ l, ∃ b, f a = .ok b) : ∃ bs, l.mapM f = .ok bs := by
  simp only [mapM_eq_ok_iff]
  induction l with
  | nil => exact ⟨[], .nil⟩
  | cons a l ih =>
    obtain ⟨b, hb⟩ := h a List.mem_cons_self
    obtain ⟨bs, hbs⟩ := ih fun x hx => h x (List.mem_cons_of_mem _ hx)
    exact ⟨b :: bs, .cons hb hbs⟩

namespace CallGraph

variable {g : CallGraph} {st : Settings} {root : String} {part r : Result}

/-- A report is made from the entry of its node and from the priority that this has. -/
theorem exists_priorityOf {n : Node} {f : FunctionReport} (h : g.reportOf st n = .ok f) :
    ∃ e p, g.entry? n = some e ∧ g.priorityOf st e n = .ok p ∧ f = g.reportOn st e n p := by
  unfold reportOf at h
  split at h
  · cases h
  · next e he =>
    split at h
    · cases h
    · next p hp =>
      cases h
      exact ⟨e, p, he, hp, rfl⟩

theorem exists_reportOn {n : Node} {f : FunctionReport} (h : g.reportOf st n = .ok f) :
    ∃ e p, g.entry? n = some e ∧ f = g.reportOn st e n p := by
  obtain ⟨e, p, he, -, hf⟩ := exists_priorityOf h
  exact ⟨e, p, he, hf⟩

/-- The report on a function has its name. -/
theorem name_of_reportOf {f : FunctionReport} (h : g.reportOf st (.function root) = .ok f) :
    f.name = root := by
  obtain ⟨e, p, he, rfl⟩ := exists_reportOn h
  exact Catalog.name_of_get? he

/-- A catalogued root has one report, with the walk from it and the reports on what it visits; any other
root is a failure. -/
theorem rootOf_cases (h : g.rootOf st root = .ok part) :
    (g.catalog.contains root = true ∧ ∃ f ds, g.reportOf st (.function root) = .ok f ∧
      ((g.traversalOf (.function root)).visited.tail.filter fun n => (g.entry? n).isSome).mapM
        (g.reportOf st) = .ok ds ∧
      part = { roots := [⟨f, g.traversalOf (.function root), ds⟩] }) ∨
    (g.catalog.contains root = false ∧ part = { failures := [.unknownRoot root] }) := by
  unfold rootOf at h
  split at h
  · next hroot =>
    obtain ⟨f, hf, h⟩ := bind_eq_ok.1 h
    obtain ⟨ds, hds, h⟩ := bind_eq_ok.1 h
    cases h
    exact Or.inl ⟨hroot, f, ds, hf, hds, rfl⟩
  · next hroot =>
    cases h
    exact Or.inr ⟨Bool.eq_false_iff.2 hroot, rfl⟩

/-- The reports for a root are on the function of that name. -/
theorem name_of_rootOf (h : g.rootOf st root = .ok part) :
    ∀ x ∈ part.roots, x.function.name = root := by
  rcases rootOf_cases h with ⟨-, f, ds, hf, -, rfl⟩ | ⟨-, rfl⟩
  · simp [name_of_reportOf hf]
  · simp

/-- The reports on one root among those on many. -/
theorem find?_flatMap_rootOf (h : g.rootOf st root = .ok part) {roots : List String}
    {parts : List Result} (hparts : List.Forall₂ (fun x p => g.rootOf st x = .ok p) roots parts) :
    (parts.flatMap (·.roots)).find? (·.function.name = root)
      = if root ∈ roots then part.root? root else none := by
  induction hparts with
  | nil => rfl
  | @cons x p roots parts hp _ ih =>
    rw [List.flatMap_cons, List.find?_append, ih]
    by_cases hx : x = root
    · subst hx
      obtain rfl : p = part := Except.ok.inj (hp.symm.trans h)
      by_cases hroots : x ∈ roots <;> simp [Result.root?, hroots]
    · have hnone : p.roots.find? (·.function.name = root) = none := by
        simp only [List.find?_eq_none, decide_eq_true_eq]
        exact fun y hy => name_of_rootOf hp y hy ▸ hx
      simp [hnone, Ne.symm hx]

theorem exists_roots_eq (hroot : g.catalog.contains root = true) (h : g.rootOf st root = .ok part) :
    ∃ f ds, g.reportOf st (.function root) = .ok f ∧
      ((g.traversalOf (.function root)).visited.tail.filter fun n => (g.entry? n).isSome).mapM
        (g.reportOf st) = .ok ds ∧
      part.roots = [⟨f, g.traversalOf (.function root), ds⟩] := by
  rcases rootOf_cases h with ⟨-, f, ds, hf, hds, rfl⟩ | ⟨hunknown, -⟩
  · exact ⟨f, ds, hf, hds, rfl⟩
  · rw [hroot] at hunknown
    cases hunknown

/-- The report on a catalogued root among those on many. -/
theorem exists_root?_resultOf {roots : List String} (hroot : g.catalog.contains root = true)
    (h : g.resultOf st roots = .ok r) (hmem : root ∈ roots) :
    ∃ part x, g.rootOf st root = .ok part ∧ part.roots = [x] ∧ r.root? root = some x := by
  obtain ⟨parts, hparts, h⟩ := bind_eq_ok.1 h
  cases h
  have hmem : root ∈ roots.eraseDups := List.mem_eraseDups.2 hmem
  obtain ⟨part, hpart⟩ := exists_ok_of_mapM hparts hmem
  obtain ⟨f, ds, hf, -, hpart'⟩ := exists_roots_eq hroot hpart
  refine ⟨part, _, hpart, hpart', ?_⟩
  have hfind := find?_flatMap_rootOf hpart (mapM_eq_ok_iff.1 hparts)
  rw [if_pos hmem] at hfind
  refine hfind.trans ?_
  simp [Result.root?, hpart', name_of_reportOf hf]

/-- A root among others is answered as it is alone. -/
theorem root?_resultOf {roots : List String} (h : g.resultOf st roots = .ok r) (hroot : root ∈ roots) :
    ∃ r₁, g.resultOf st [root] = .ok r₁ ∧ r.root? root = r₁.root? root := by
  obtain ⟨parts, hparts, h⟩ := bind_eq_ok.1 h
  cases h
  have hroot : root ∈ roots.eraseDups := List.mem_eraseDups.2 hroot
  obtain ⟨part, hpart⟩ := exists_ok_of_mapM hparts hroot
  have halone : [root].eraseDups.mapM (g.rootOf st) = .ok [part] := by
    rw [show [root].eraseDups = [root] from rfl, mapM_eq_ok_iff]
    exact .cons hpart .nil
  refine ⟨_, bind_eq_ok.2 ⟨_, halone, rfl⟩, ?_⟩
  have hmany := find?_flatMap_rootOf hpart (mapM_eq_ok_iff.1 hparts)
  have hone := find?_flatMap_rootOf hpart (mapM_eq_ok_iff.1 halone)
  rw [if_pos hroot] at hmany
  rw [if_pos (List.mem_eraseDups.2 (List.mem_singleton_self root))] at hone
  exact hmany.trans hone.symm

end CallGraph

namespace Session

variable {g : CallGraph} {st : Settings} {s : Session} {α β : Type}

theorem Gives.map {q : Query α} {x : Except AnalysisError α} (f : α → β) (h : Gives g st q x) :
    Gives g st (f <$> q) (f <$> x) := by
  rw [map_eq_pure_bind, map_eq_pure_bind]
  exact h.bind fun a _ => .pure (f a)

/-- Every question gets the answer of the graph. -/
theorem gives_question (q : Question) : Gives g st q.query (q.answer g st) := by
  cases q with
  | aggregate n => exact (gives_aggregate n).map _
  | traverse root => exact (gives_traverse root).map _
  | summarize n => exact (gives_summarize n).map _
  | decide n => exact (gives_decide n).map _
  | redundant n => exact (gives_isRedundantWrapper n).map _
  | report n => exact (gives_report n).map _
  | analyze roots => exact (gives_analyze roots).map _
  | attention roots t => exact (gives_analyze roots).map _

/-- Puts questions one after another. -/
def askAll (s : Session) : List Question → List (Except AnalysisError Answer) × Session
  | [] => ([], s)
  | q :: qs =>
    let (a, s') := s.ask q.query
    let (as, s'') := s'.askAll qs
    (a :: as, s'')

theorem askAll_spec (hs : s.Faithful g st) (qs : List Question) :
    (s.askAll qs).1 = qs.map (Question.answer g st) ∧ (s.askAll qs).2.Faithful g st := by
  induction qs generalizing s with
  | nil => exact ⟨rfl, hs⟩
  | cons q qs ih =>
    obtain ⟨ha, hs'⟩ := gives_question q s hs
    obtain ⟨has, hs''⟩ := ih hs'
    refine ⟨?_, hs''⟩
    rw [List.map_cons, ← has, ← ha]
    rfl

/-- A session in which nothing has been asked is faithful. -/
theorem faithful_fresh (g : CallGraph) (st : Settings) (log : List Event) :
    ({ settings := st, graph := g, log } : Session).Faithful g st where
  settings := rfl
  graph := rfl
  settled := Memo.settled_empty
  truthful := Memo.truthful_empty g
  summaries _ _ h := absurd h (Option.some_ne_none _).symm
  decisions _ _ h := absurd h (Option.some_ne_none _).symm
  reports _ _ h := absurd h (Option.some_ne_none _).symm

theorem faithful_start (units : List SourceUnit) (st : Settings) :
    (start units st).Faithful (start units st).graph st := faithful_fresh _ _ _

section

variable (units : List SourceUnit) (st : Settings) (n : Node)

/-! What is answered first in a session over units is the answer of their graph. -/

theorem traverse_start :
    ((start units st).ask (traverse n)).1 = .ok ((CallGraph.ofUnits units).traversalOf n) :=
  (gives_traverse n _ (faithful_start units st)).1

theorem summarize_start :
    ((start units st).ask (summarize n)).1 = .ok ((CallGraph.ofUnits units).summaryOf n) :=
  (gives_summarize n _ (faithful_start units st)).1

theorem decide_start :
    ((start units st).ask (decide n)).1 = (CallGraph.ofUnits units).decisionOf st.wrappedSinks n :=
  (gives_decide n _ (faithful_start units st)).1

theorem isRedundantWrapper_start :
    ((start units st).ask (isRedundantWrapper n)).1 = (CallGraph.ofUnits units).redundancyOf n :=
  (gives_isRedundantWrapper n _ (faithful_start units st)).1

theorem report_start :
    ((start units st).ask (report n)).1 = (CallGraph.ofUnits units).reportOf st n :=
  (gives_report n _ (faithful_start units st)).1

end

/-- An analysis from some root gives the result of the graph of its units. -/
theorem analyze_eq_resultOf (units : List SourceUnit) {roots : List String} (st : Settings)
    (h : roots ≠ []) :
    (AsyncMigration.analyze units roots st).1 = (CallGraph.ofUnits units).resultOf st roots := by
  unfold AsyncMigration.analyze
  rw [if_neg (by simpa using h)]
  exact (gives_analyze roots _ (faithful_start units st)).1

/-- **Aggregates.** Whatever has been asked before, the aggregate of a node is found. Its component
is what the node reaches and is reached by, in the order of the texts; it is cyclic if the node
reaches itself by at least one call; and it tells of the constraints, pattern kinds and sinks of all
other nodes reached, and of nothing else. -/
theorem aggregate_exact (catalog : Catalog) (sites : List CallSite) (st : Settings)
    (earlier : List Question) (n : Node) :
    let g := CallGraph.addCalls { catalog } sites
    let s := (({ settings := st, graph := g } : Session).askAll earlier).2
    ∃ a, (s.ask (aggregate n)).1 = .ok a ∧ a.node = n ∧
      a.component.Pairwise (fun x y => x.text < y.text) ∧
      (∀ m, m ∈ a.component ↔ g.Reaches n m ∧ g.Reaches m n) ∧
      (a.cyclic = true ↔ Relation.TransGen g.Calls n n) ∧
      (∀ c, a.below.constraints.contains c = true ↔
        ∃ m, m ≠ n ∧ g.Reaches n m ∧ (g.ownConstraints m).contains c = true) ∧
      (∀ k, a.below.kinds.contains k = true ↔ ∃ m, m ≠ n ∧ g.Reaches n m ∧
        ∃ e, g.entry? m = some e ∧ ∃ p ∈ e.scan.patterns, p.kind = k) ∧
      (∀ name, name ∈ a.below.sinks.names ↔ Node.sink name ≠ n ∧ g.Reaches n (.sink name)) ∧
      a.below.sinks.names.Pairwise (· < ·) := by
  intro g s
  have hs : s.Faithful g st := (askAll_spec (faithful_fresh g st []) earlier).2
  have ha := g.aggregateOf_describes n
  exact ⟨g.aggregateOf n, (gives_aggregate n s hs).1, ha.node, ha.ordered, ha.member, ha.cyclic,
    ha.constraints, ha.kinds, ha.sinks, ha.sinksOrdered⟩

/-- A unit with two functions that call each other. -/
def callingCycle : List SourceUnit :=
  [{ functions := [{ signature := { name := "f" } }, { signature := { name := "g" } }]
     callSites := [{ caller := "f", callee := some "g" }, { caller := "g", callee := some "f" }] }]

/-- **Answers do not hang on history.** In a session over units every answer, an error included, is
the one that a session in which nothing has been asked would give. The report on a root is the same
whatever other roots are asked for with it. -/
theorem answers_as_if_first (units : List SourceUnit) (st : Settings) :
    (∀ qs : List Question,
      ((start units st).askAll qs).1 = qs.map fun q => ((start units st).ask q.query).1) ∧
    ∀ roots r, ((start units st).ask (analyze roots)).1 = .ok r → ∀ root ∈ roots,
      ∃ r₁, ((start units st).ask (analyze [root])).1 = .ok r₁ ∧ r.root? root = r₁.root? root := by
  have hs := faithful_start units st
  constructor
  · intro qs
    rw [(askAll_spec hs qs).1]
    exact List.map_congr_left fun q _ => (gives_question q _ hs).1.symm
  · intro roots r hr root hroot
    rw [(gives_analyze roots _ hs).1] at hr
    rw [(gives_analyze [root] _ hs).1]
    exact CallGraph.root?_resultOf hr hroot

/-- The two functions of a cycle as roots. -/
theorem answers_as_if_first_cycle :
    ∃ r, ((start callingCycle {}).ask (analyze ["f", "g"])).1 = .ok r ∧ "g" ∈ ["f", "g"] ∧
      ∃ r₁, ((start callingCycle {}).ask (analyze ["g"])).1 = .ok r₁ ∧ r.root? "g" = r₁.root? "g" := by
  have hok : ((start callingCycle {}).ask (analyze ["f", "g"])).1.isOk = true := by decide +kernel
  obtain ⟨r, hr⟩ := exists_ok_of_isOk hok
  exact ⟨r, hr, by simp, (answers_as_if_first callingCycle {}).2 _ r hr "g" (by simp)⟩

end Session
end AsyncMigration
