import AsyncMigration.Proofs.History

/-!
# Sessions that grow

Between questions a session may be given further calls and units. The graph grows then, and what has
been found out stays as it is. All that a session does to its graph and its memo is to request
aggregates, to add calls and to enter functions, so what these keep holds after any course of moves.

* `CallGraph.Grows` — a graph keeps its calls and entries; with them stay the ways and the burdens.
* `Session.keeps_question`, `keeps_after` — what requests for aggregates, added calls and entered
  functions keep, questions and all other moves keep.
* `Session.Enduring.after` — what closing a component and growing keep holds after any moves.
-/

namespace AsyncMigration

/-! ## Graphs that grow -/

namespace CallGraph

variable {g g' : CallGraph} {a b n : Node} {e : CatalogEntry}

/-- A graph has all calls and entries of another. -/
structure Grows (g g' : CallGraph) : Prop where
  calls : ∀ a b, g.Calls a b → g'.Calls a b
  entries : ∀ n e, g.entry? n = some e → g'.entry? n = some e

/-- Only catalogued functions call. -/
def Grounded (g : CallGraph) : Prop := ∀ a b, g.Calls a b → ∃ e, g.entry? a = some e

namespace Grows

theorem reaches (h : g.Grows g') (hab : g.Reaches a b) : g'.Reaches a b :=
  Relation.ReflTransGen.mono h.calls a b hab

theorem recurs (h : g.Grows g') (hn : g.Recurs n) : g'.Recurs n :=
  Relation.TransGen.mono h.calls n n hn

theorem linked (h : g.Grows g') (hab : g.Linked a b) : g'.Linked a b :=
  ⟨h.reaches hab.1, h.reaches hab.2⟩

/-- The constraints of a catalogued function are settled. -/
theorem ownConstraints_eq (h : g.Grows g') (hn : g.entry? n = some e) :
    g.ownConstraints n = g'.ownConstraints n := by
  have hn' := h.entries n e hn
  cases n with
  | sink name => rfl
  | function name =>
    simp only [CallGraph.entry?] at hn hn'
    simp only [ownConstraints, hn, hn']

/-- What a node brings it goes on bringing. -/
theorem own_has (h : g.Grows g') {τ : Trait} (hτ : (Burden.own g n).Has τ) :
    (Burden.own g' n).Has τ := by
  cases n with
  | sink name => exact hτ
  | function name =>
    -- an entry stays, and without one a function brings nothing
    cases hn : g.entry? (.function name) with
    | some e =>
      have hn' := h.entries _ e hn
      have hown : Burden.own g (.function name) = Burden.own g' (.function name) := by
        unfold Burden.own ownKinds
        rw [h.ownConstraints_eq hn, hn, hn']
      exact hown ▸ hτ
    | none =>
      have hempty : Burden.own g (.function name) = {} := by
        simp only [CallGraph.entry?] at hn
        simp only [Burden.own, ownConstraints, ownKinds, entry?, hn]
        rfl
      rw [hempty] at hτ
      exact absurd hτ (Burden.has_empty τ)

end Grows

theorem entry?_addCall (g : CallGraph) (site : CallSite) (n : Node) :
    CallGraph.entry? (g.addCall site).1 n = g.entry? n := by
  cases n with
  | sink name => rfl
  | function name => simp only [CallGraph.entry?, catalog_addCall]

theorem grows_addCall (g : CallGraph) (site : CallSite) : g.Grows (g.addCall site).1 := by
  refine ⟨fun a b hab => ?_, fun n e he => ?_⟩
  · cases a with
    | sink name => simp [Calls] at hab
    | function name =>
      obtain ⟨edge, hedge, hb⟩ := mem_successors.1 hab
      refine mem_successors.2 ⟨edge, ?_, hb⟩
      rw [(addCall_spec g site name).1]
      exact List.mem_append_left _ hedge
  · rw [entry?_addCall]
    exact he

theorem Grounded.addCall (h : g.Grounded) (site : CallSite) : (g.addCall site).1.Grounded := by
  intro a b hab
  rw [entry?_addCall]
  cases a with
  | sink name => simp [Calls] at hab
  | function name =>
    obtain ⟨edge, hedge, hb⟩ := mem_successors.1 hab
    rw [(addCall_spec g site name).1, List.mem_append] at hedge
    rcases hedge with hedge | hedge
    · exact h _ b (mem_successors.2 ⟨edge, hedge, hb⟩)
    · -- a call is added only if its caller is catalogued
      simp only [Catalog.accepted, List.mem_filter, List.mem_map, decide_eq_true_eq] at hedge
      obtain ⟨⟨s, ⟨-, hcaller⟩, rfl⟩, hname⟩ := hedge
      exact Option.isSome_iff_exists.1 (hname ▸ hcaller)

theorem grows_addFunction (g : CallGraph) (s : Signature) (scan : ScanReport) :
    g.Grows (g.addFunction s scan).1 := by
  refine ⟨fun a b hab => ?_, fun n e he => ?_⟩
  · cases a <;> exact hab
  · cases n with
    | sink name => exact he
    | function name =>
      have he : g.catalog.get? name = some e := he
      show (g.catalog.add s scan).1.get? name = some e
      rw [Catalog.get?_add, he, Option.some_or]

theorem Grounded.addFunction (h : g.Grounded) (s : Signature) (scan : ScanReport) :
    (g.addFunction s scan).1.Grounded := by
  intro a b hab
  have hab' : g.Calls a b := by cases a <;> exact hab
  obtain ⟨e, he⟩ := h a b hab'
  exact ⟨e, (grows_addFunction g s scan).entries a e he⟩

theorem grounded_addCalls (catalog : Catalog) (sites : List CallSite) :
    (CallGraph.addCalls { catalog } sites).Grounded := by
  intro a b hab
  obtain ⟨s, -, hcaller, rfl, -⟩ := calls_addCalls_iff.1 hab
  refine Option.isSome_iff_exists.1 ?_
  simp only [CallGraph.entry?, catalog_addCalls]
  exact hcaller

end CallGraph

/-! ## Moves -/

/-- What can be done with a session: a question is put, or a call or a unit is added. -/
inductive Move where
  | ask (q : Question)
  | addCall (site : CallSite)
  | addUnit (u : SourceUnit)

namespace Session

variable {P : CallGraph → Memo → Prop} {α β : Type} {s : Session}

/-- The session after a move, whether that gives an answer or fails. -/
def move (s : Session) : Move → Session
  | .ask q => (s.ask q.query).2
  | .addCall site => (s.ask (addCall site)).2
  | .addUnit u => (s.ask (addUnit u)).2

/-- The session after moves. -/
def after (s : Session) (moves : List Move) : Session := moves.foldl move s

theorem after_append (s : Session) (moves later : List Move) :
    s.after (moves ++ later) = (s.after moves).after later := List.foldl_append

/-! ## What queries keep -/

/-- A query keeps a property of graph and memo, whether it gives an answer or fails. -/
def Keeps (P : CallGraph → Memo → Prop) (q : Query α) : Prop :=
  ∀ s : Session, P s.graph s.memo → P (s.ask q).2.graph (s.ask q).2.memo

namespace Keeps

theorem pure (a : α) : Keeps P (Pure.pure a) := fun _ h => h

theorem throw (e : AnalysisError) : Keeps P (throw e : Query α) := fun _ h => h

theorem bind {q : Query α} {k : α → Query β} (hq : Keeps P q) (hk : ∀ a, Keeps P (k a)) :
    Keeps P (q >>= k) := by
  intro s hs
  have hs' := hq s hs
  rw [ask_bind]
  generalize s.ask q = r at hs'
  obtain ⟨r, s'⟩ := r
  cases r with
  | error e => exact hs'
  | ok a => exact hk a s' hs'

theorem get {k : Session → Query β} (hk : ∀ s, Keeps P (k s)) : Keeps P (get >>= k) :=
  fun s hs => hk s s hs

/-- Noting something else leaves graph and memo alone. -/
theorem modify {f : Session → Session} (hf : ∀ s, (f s).graph = s.graph ∧ (f s).memo = s.memo) :
    Keeps P (modify f : Query PUnit) := by
  intro s hs
  show P (f s).graph (f s).memo
  rw [(hf s).1, (hf s).2]
  exact hs

theorem tell (events : List Event) : Keeps P (tell events) := .modify fun _ => ⟨rfl, rfl⟩

theorem map {q : Query α} (f : α → β) (hq : Keeps P q) : Keeps P (f <$> q) := by
  rw [map_eq_pure_bind]
  exact hq.bind fun a => .pure (f a)

theorem mapM {q : α → Query β} (l : List α) (hq : ∀ a, Keeps P (q a)) : Keeps P (l.mapM q) := by
  induction l with
  | nil => exact .pure _
  | cons a l ih =>
    rw [List.mapM_cons]
    exact (hq a).bind fun b => ih.bind fun bs => .pure _

end Keeps

theorem state_aggregate (s : Session) (n : Node) : (s.ask (aggregate n)).2.graph = s.graph ∧
    (s.ask (aggregate n)).2.memo = (s.memo.ensure s.graph n).1 := by
  simp only [aggregate, ask_get, ask_set, ask_tell]
  split <;> exact ⟨rfl, rfl⟩

section Questions

variable (hP : ∀ g m n, P g m → P g (m.ensure g n).1)

include hP

theorem keeps_aggregate (n : Node) : Keeps P (aggregate n) := by
  intro s hs
  rw [(state_aggregate s n).1, (state_aggregate s n).2]
  exact hP _ _ n hs

theorem keeps_traverse (root : Node) : Keeps P (traverse root) := by
  refine (keeps_aggregate hP root).bind fun _ => .get fun s => ?_
  dsimp only
  split
  · exact .throw _
  · split
    · exact (Keeps.tell _).bind fun _ => .pure _
    · exact .pure _

theorem keeps_summarize (n : Node) : Keeps P (summarize n) := by
  refine .get fun s => ?_
  split
  · exact .pure _
  · refine (keeps_aggregate hP n).bind fun a => .get fun s' => ?_
    exact .bind (.modify fun _ => ⟨rfl, rfl⟩) fun _ => .pure _

theorem keeps_evaluate (n : Node) : Keeps P (evaluate n) := by
  refine .get fun s => ?_
  split
  · exact .throw _
  · split
    · exact .pure _
    · exact (keeps_summarize hP n).bind fun _ => .get fun _ => .pure _

theorem keeps_decide (n : Node) : Keeps P (decide n) := by
  refine .get fun s => ?_
  split
  · exact .pure _
  · refine (keeps_evaluate hP n).bind fun d => ?_
    exact .bind (.modify fun _ => ⟨rfl, rfl⟩) fun _ => (Keeps.tell _).bind fun _ => .pure _

theorem keeps_report (n : Node) : Keeps P (report n) := by
  refine .get fun s => ?_
  split
  · exact .pure _
  refine .get fun s' => ?_
  split
  · exact .throw _
  refine (keeps_decide hP n).bind fun d => .get fun s'' => ?_
  dsimp only
  split
  · exact .throw _
  · refine (keeps_summarize hP n).bind fun x => ?_
    exact .bind (.modify fun _ => ⟨rfl, rfl⟩) fun _ => .pure _

theorem keeps_analyzeRoot (root : String) : Keeps P (analyzeRoot root) := by
  refine .get fun s => ?_
  split
  · refine (keeps_traverse hP _).bind fun t => (keeps_report hP _).bind fun r => .get fun s' => ?_
    exact (Keeps.mapM _ fun n => keeps_report hP n).bind fun _ => .pure _
  · exact (Keeps.tell _).bind fun _ => .pure _

theorem keeps_analyzeRoots (roots : List String) : Keeps P (analyzeRoots roots) := by
  induction roots with
  | nil => exact .pure _
  | cons root roots ih =>
    exact (keeps_analyzeRoot hP root).bind fun _ => ih.bind fun _ => .pure _

theorem keeps_analyze (roots : List String) : Keeps P (analyze roots) :=
  .get fun _ => (keeps_analyzeRoots hP _).bind fun _ => .pure _

/-- A question does nothing to graph and memo but to request aggregates. -/
theorem keeps_question (q : Question) : Keeps P q.query := by
  cases q with
  | aggregate n => exact (keeps_aggregate hP n).map _
  | traverse root => exact (keeps_traverse hP root).map _
  | summarize n => exact (keeps_summarize hP n).map _
  | decide n => exact (keeps_decide hP n).map _
  | redundant n =>
    refine Keeps.map _ (.get fun s => ?_)
    split
    · exact .throw _
    · exact .pure _
  | report n => exact (keeps_report hP n).map _
  | analyze roots => exact (keeps_analyze hP roots).map _
  | attention roots t => exact (keeps_analyze hP roots).map _

end Questions

section Moves

variable (hrequest : ∀ g m n, P g m → P g (m.ensure g n).1) (hcall : ∀ site, Keeps P (addCall site))
  (hfunction : ∀ sig scan, Keeps P (addFunction sig scan))

include hcall hfunction in
theorem keeps_addUnit (u : SourceUnit) : Keeps P (addUnit u) := by
  refine (Keeps.tell _).bind fun _ => ?_
  refine (Keeps.mapM _ fun f => hfunction _ _).bind fun _ => ?_
  exact (Keeps.mapM _ hcall).bind fun _ => .pure _

include hrequest hcall hfunction

/-- What requests for aggregates, added calls and entered functions keep holds after any moves. -/
theorem keeps_after (hs : P s.graph s.memo) (moves : List Move) :
    P (s.after moves).graph (s.after moves).memo := by
  induction moves generalizing s with
  | nil => exact hs
  | cons m moves ih =>
    refine ih (s := s.move m) ?_
    cases m with
    | ask q => exact keeps_question hrequest q s hs
    | addCall site => exact hcall site s hs
    | addUnit u => exact keeps_addUnit hcall hfunction u s hs

end Moves

/-! ## What lasts -/

/-- A property of a graph and what is known of it that closing components and growing keep. -/
structure Enduring (I : CallGraph → Table Node Aggregate → Prop) : Prop where
  close : ∀ g, g.Grounded → Search.ClosedUnder g (I g)
  grow : ∀ g g' t, CallGraph.Grows g g' → I g t → I g' t

/-- A session in order: no node is half done, only catalogued functions call, and what is known has a
property. -/
structure InOrder (I : CallGraph → Table Node Aggregate → Prop) (g : CallGraph) (m : Memo) : Prop where
  settled : m.Settled
  grounded : g.Grounded
  known : I g m.aggregates

variable {I : CallGraph → Table Node Aggregate → Prop}

namespace Enduring

theorem request (hI : Enduring I) (g : CallGraph) (m : Memo) (n : Node) (h : InOrder I g m) :
    InOrder I g (m.ensure g n).1 := by
  obtain ⟨hsettled, hknown, -⟩ :=
    Memo.ensure_spec (n := n) (hI.close g h.grounded) h.settled h.known
  exact ⟨hsettled, h.grounded, hknown⟩

theorem keeps_addCall (hI : Enduring I) (site : CallSite) : Keeps (InOrder I) (addCall site) :=
  fun s hs => ⟨hs.settled, hs.grounded.addCall site,
    hI.grow _ _ _ (CallGraph.grows_addCall s.graph site) hs.known⟩

theorem keeps_addFunction (hI : Enduring I) (sig : Signature) (scan : ScanReport) :
    Keeps (InOrder I) (addFunction sig scan) :=
  fun s hs => ⟨hs.settled, hs.grounded.addFunction sig scan,
    hI.grow _ _ _ (CallGraph.grows_addFunction s.graph sig scan) hs.known⟩

/-- **What lasts** holds after any moves. -/
theorem after (hI : Enduring I) (hs : InOrder I s.graph s.memo) (moves : List Move) :
    InOrder I (s.after moves).graph (s.after moves).memo :=
  keeps_after hI.request hI.keeps_addCall hI.keeps_addFunction hs moves

end Enduring

/-- Moves that mix old and new: a name is asked for before it is defined, a function of a cycle gains a
call after the cycle has been found, and what then calls both is asked for. -/
def lateDefinitions : List Move :=
  [.ask (.aggregate (.function "h")),
    .addUnit
      { functions := [{ signature := { name := "h", interop := true } }, { signature := { name := "k" } }]
        callSites := [{ caller := "h", callee := some "f" }, { caller := "k", callee := some "h" }] },
    .ask (.decide (.function "f")),
    .addCall { caller := "g", target := "net" },
    .addCall { caller := "k", callee := some "g" },
    .ask (.traverse (.function "k"))]

theorem inOrder_start (units : List SourceUnit) (st : Settings)
    (hI : I (start units st).graph {}) : InOrder I (start units st).graph (start units st).memo :=
  ⟨Memo.settled_empty, CallGraph.grounded_addCalls _ _, hI⟩

end Session
end AsyncMigration
