import AsyncMigration.Proofs.History
import AsyncMigration.Proofs.Scans

/-!
# The rule of decision

What decides how far a function is migrated, said of the units themselves: whether it can be
scanned, what it is exposed to, which sinks its calls reach, whether they lead back to it, and
whether it is asynchronous at all.

* `CallGraph.capsOf_eq_nil_iff` — when nothing caps a migration.
* `CallGraph.decideScanned_cases` — the ways to decide, each with its reasons.
* `Session.decision_rule` — the category of every function that units define.
-/

namespace AsyncMigration

variable {units : List SourceUnit} {wrapped : NameSet} {name : String}

/-- A function reaches, by the call sites of units, a sink that has no structured wrapper. -/
def ReachesUnwrapped (units : List SourceUnit) (wrapped : NameSet) (name sink : String) : Prop :=
  Relation.ReflTransGen (Invokes units) (.function name) (.sink sink) ∧ sink ∉ wrapped.names

/-- Something keeps a function from being migrated in full: it is exposed to another language, a
protocol asks for its form, it reaches a sink without wrapper, or it reaches itself. -/
def Capped (units : List SourceUnit) (wrapped : NameSet) (name : String) (s : Signature) : Prop :=
  s.interop = true ∨ (∃ p, s.protocol = some p ∧ p ≠ "") ∨
    (∃ sink, ReachesUnwrapped units wrapped name sink) ∨
    Relation.TransGen (Invokes units) (.function name) (.function name)

namespace CallGraph

variable {g : CallGraph} {e : CatalogEntry}

/-- The sinks below a function are those that it reaches. -/
theorem mem_unwrapped_iff {sink : String} :
    sink ∈ (g.summaryOf (.function name)).unwrapped wrapped ↔
      g.Reaches (.function name) (.sink sink) ∧ sink ∉ wrapped.names := by
  have hsinks := (g.aggregateOf_describes (.function name)).sinks sink
  simp only [ConstraintSummary.unwrapped, summaryOf, ConstraintSummary.ofAggregate, List.mem_filter,
    hsinks, NameSet.contains]
  simp

/-- They stand in the order of their names. -/
theorem pairwise_unwrapped (n : Node) :
    ((g.summaryOf n).unwrapped wrapped).Pairwise (· < ·) :=
  (g.aggregateOf_describes n).sinksOrdered.filter _

/-- A function that reaches a sink depends on a sink. -/
theorem externalSinkDependency_of_reaches {sink : String}
    (h : g.Reaches (.function name) (.sink sink)) :
    (g.summaryOf (.function name)).transitive.contains .externalSinkDependency = true :=
  ((g.aggregateOf_describes (.function name)).constraints .externalSinkDependency).2
    ⟨.sink sink, nofun, h, rfl⟩

/-- The reasons that cap the migration of a node. -/
def capsOf (g : CallGraph) (wrapped : NameSet) (n : Node) : List Reason :=
  capReasons (g.summaryOf n) ((g.summaryOf n).unwrapped wrapped)

/-- That sinks without wrapper are reached is reason enough: the constraint follows. -/
theorem dependency_and_unwrapped (g : CallGraph) (wrapped : NameSet) (name : String) :
    ((g.summaryOf (.function name)).transitive.contains .externalSinkDependency
      && !((g.summaryOf (.function name)).unwrapped wrapped).isEmpty)
      = !((g.summaryOf (.function name)).unwrapped wrapped).isEmpty := by
  cases hl : (g.summaryOf (.function name)).unwrapped wrapped with
  | nil => simp
  | cons sink sinks =>
    have hsink : sink ∈ (g.summaryOf (.function name)).unwrapped wrapped := by simp [hl]
    rw [externalSinkDependency_of_reaches (mem_unwrapped_iff.1 hsink).1]
    rfl

/-- Sinks are a reason if some are reached that have no wrapper, and then all of them. -/
theorem externalSink_mem_capsOf_iff {sinks : List String} :
    .externalSink sinks ∈ g.capsOf wrapped (.function name) ↔
      sinks = (g.summaryOf (.function name)).unwrapped wrapped ∧ sinks ≠ [] := by
  unfold capsOf capReasons
  rw [dependency_and_unwrapped]
  by_cases hl : (g.summaryOf (.function name)).unwrapped wrapped = []
  · simp [hl]
  · simp only [List.mem_append, List.isEmpty_eq_false_iff.2 hl]
    simp
    grind

theorem capsOf_eq_nil_iff :
    g.capsOf wrapped (.function name) = [] ↔
      (g.ownConstraints (.function name)).contains .interopExposure = false ∧
      (g.ownConstraints (.function name)).contains .protocolRequirement = false ∧
      (¬ ∃ sink, g.Reaches (.function name) (.sink sink) ∧ sink ∉ wrapped.names) ∧
      ¬ g.Recurs (.function name) := by
  have hsinks : (g.summaryOf (.function name)).unwrapped wrapped = [] ↔
      ¬ ∃ sink, g.Reaches (.function name) (.sink sink) ∧ sink ∉ wrapped.names := by
    rw [List.eq_nil_iff_forall_not_mem, not_exists]
    simp only [mem_unwrapped_iff]
  have hcyclic : (g.summaryOf (.function name)).inCycle = true ↔ g.Recurs (.function name) :=
    (g.aggregateOf_describes (.function name)).cyclic
  have hdirect : (g.summaryOf (.function name)).direct = g.ownConstraints (.function name) := rfl
  unfold capsOf capReasons
  rw [dependency_and_unwrapped, ← hsinks, ← hcyclic, ← hdirect]
  simp

/-- The ways to decide for a function that could be scanned: the caps come first, then the need. What
is remarked comes after the reasons whatever they are. -/
theorem decideScanned_cases (g : CallGraph) (wrapped : NameSet) (e : CatalogEntry) (n : Node) :
    ∃ reasons, (decideScanned g wrapped e (g.summaryOf n)).rationale = reasons
        ++ remarks e (g.summaryOf n) ((g.summaryOf n).unwrapped wrapped) (g.isRedundantWrapper e) ∧
      ((g.capsOf wrapped n ≠ [] ∧ reasons = g.capsOf wrapped n ∧
        (decideScanned g wrapped e (g.summaryOf n)).category = .partialRefactor) ∨
      (g.capsOf wrapped n = [] ∧ e.scan.migrationPatterns = [] ∧ reasons = [.noMigration] ∧
        (decideScanned g wrapped e (g.summaryOf n)).category = .preserve) ∨
      (g.capsOf wrapped n = [] ∧ e.scan.migrationPatterns ≠ [] ∧ reasons = [.fullMigration] ∧
        (decideScanned g wrapped e (g.summaryOf n)).category = .fullRefactor)) := by
  have hcaps : capReasons (g.summaryOf n) ((g.summaryOf n).unwrapped wrapped) = g.capsOf wrapped n := rfl
  unfold decideScanned
  dsimp only
  rw [hcaps]
  cases g.capsOf wrapped n with
  | cons r rs => exact ⟨r :: rs, by simp, by simp⟩
  | nil =>
    cases e.scan.migrationPatterns with
    | nil => exact ⟨[.noMigration], by simp, by simp⟩
    | cons p ps => exact ⟨[.fullMigration], by simp, by simp⟩

/-- Sinks are named as a reason only where they cap the migration. -/
theorem externalSink_mem_decideScanned_iff {n : Node} {sinks : List String} :
    .externalSink sinks ∈ (decideScanned g wrapped e (g.summaryOf n)).rationale ↔
      .externalSink sinks ∈ g.capsOf wrapped n := by
  have hremarks : Reason.externalSink sinks ∉ remarks e (g.summaryOf n)
      ((g.summaryOf n).unwrapped wrapped) (g.isRedundantWrapper e) := by
    simp [remarks]
  obtain ⟨reasons, hrationale, hcases⟩ := decideScanned_cases g wrapped e n
  rw [hrationale, List.mem_append, or_iff_left hremarks]
  rcases hcases with ⟨-, hreasons, -⟩ | ⟨hcaps, -, hreasons, -⟩ | ⟨hcaps, -, hreasons, -⟩
  · rw [hreasons]
  · simp [hreasons, hcaps]
  · simp [hreasons, hcaps]

/-- The decision for the function of a definition, scanned or not. -/
theorem decisionOn_entryOf (g : CallGraph) (wrapped : NameSet) (u : SourceUnit) (f : ParsedFunction)
    (n : Node) :
    (Unscannable u f ∧ ∃ reason,
      g.decisionOn wrapped (u.entryOf f) n = decideUnscanned (u.entryOf f) reason) ∨
    (¬ Unscannable u f ∧
      g.decisionOn wrapped (u.entryOf f) n = decideScanned g wrapped (u.entryOf f) (g.summaryOf n)) := by
  have hfailure : (u.entryOf f).scan.failure = none ↔ ¬ Unscannable u f := u.scanOf_failure_iff
  unfold decisionOn
  cases h : (u.entryOf f).scan.failure with
  | none => exact Or.inr ⟨hfailure.1 h, rfl⟩
  | some reason =>
    rw [h] at hfailure
    exact Or.inl ⟨by simpa using hfailure, reason, rfl⟩

/-! ## Graphs of units -/

/-- The sinks without wrapper below a function are those that it reaches by the units. -/
theorem mem_unwrapped_ofUnits_iff {sink : String} :
    sink ∈ ((ofUnits units).summaryOf (.function name)).unwrapped wrapped ↔
      ReachesUnwrapped units wrapped name sink := by
  rw [mem_unwrapped_iff, Reaches, calls_ofUnits]
  rfl

/-- Nothing caps a function in the graph of units unless something does by the units. -/
theorem capsOf_ofUnits_eq_nil_iff (wrapped : NameSet) {u : SourceUnit} {f : ParsedFunction}
    (hf : definition? units name = some (u, f)) :
    (ofUnits units).capsOf wrapped (.function name) = [] ↔
      ¬ Capped units wrapped name f.signature := by
  have hget : (ofUnits units).catalog.get? name = some (u.entryOf f) := by
    rw [catalog_ofUnits, Catalog.get?_ofUnits, hf]
    rfl
  have hown : (ofUnits units).ownConstraints (.function name) = f.signature.constraints := by
    simp only [ownConstraints, hget]
    rfl
  rw [capsOf_eq_nil_iff, hown, Reaches, Recurs, calls_ofUnits]
  unfold Capped ReachesUnwrapped
  simp only [← Bool.not_eq_true, Signature.contains_constraints_iff, Signature.Declares, not_or]

/-- The category of a function that can be scanned, by the units. -/
theorem category_ofUnits (wrapped : NameSet) {u : SourceUnit} {f : ParsedFunction}
    (hf : definition? units name = some (u, f)) (hscan : ¬ Unscannable u f) :
    let d := decideScanned (ofUnits units) wrapped (u.entryOf f)
      ((ofUnits units).summaryOf (.function name))
    (Capped units wrapped name f.signature ∧ d.category = .partialRefactor) ∨
    (¬ Capped units wrapped name f.signature ∧ ¬ f.Asynchronous ∧ d.category = .preserve) ∨
    (¬ Capped units wrapped name f.signature ∧ f.Asynchronous ∧ d.category = .fullRefactor) := by
  have hneed : (u.entryOf f).scan.migrationPatterns = [] ↔ ¬ f.Asynchronous :=
    u.migrationPatterns_scanOf_iff hscan
  have hcaps := capsOf_ofUnits_eq_nil_iff wrapped hf
  obtain ⟨_, -, hcases⟩ :=
    decideScanned_cases (ofUnits units) wrapped (u.entryOf f) (.function name)
  rcases hcases with ⟨hcap, -, hc⟩ | ⟨hcap, hmigrate, -, hc⟩ | ⟨hcap, hmigrate, -, hc⟩
  · exact Or.inl ⟨not_not.1 (hcaps.not.1 hcap), hc⟩
  · exact Or.inr (Or.inl ⟨hcaps.1 hcap, hneed.1 hmigrate, hc⟩)
  · exact Or.inr (Or.inr ⟨hcaps.1 hcap, not_not.1 (hneed.not.1 hmigrate), hc⟩)

/-- Sinks are a reason if and only if some without wrapper are reached by the units; then these are
named, in order. -/
theorem externalSink_ofUnits (units : List SourceUnit) (wrapped : NameSet) (name : String)
    (e : CatalogEntry) :
    let d := decideScanned (ofUnits units) wrapped e ((ofUnits units).summaryOf (.function name))
    ((∃ sinks, Reason.externalSink sinks ∈ d.rationale) ↔
      ∃ sink, ReachesUnwrapped units wrapped name sink) ∧
    ∀ sinks, Reason.externalSink sinks ∈ d.rationale → sinks.Pairwise (· < ·) ∧
      ∀ sink, sink ∈ sinks ↔ ReachesUnwrapped units wrapped name sink := by
  intro d
  have hmem : ∀ sinks, Reason.externalSink sinks ∈ d.rationale ↔
      sinks = ((ofUnits units).summaryOf (.function name)).unwrapped wrapped ∧ sinks ≠ [] :=
    fun sinks => externalSink_mem_decideScanned_iff.trans externalSink_mem_capsOf_iff
  simp only [hmem]
  refine ⟨⟨?_, ?_⟩, ?_⟩
  · rintro ⟨sinks, rfl, hne⟩
    obtain ⟨sink, hsink⟩ := List.exists_mem_of_ne_nil _ hne
    exact ⟨sink, mem_unwrapped_ofUnits_iff.1 hsink⟩
  · rintro ⟨sink, hsink⟩
    exact ⟨_, rfl, List.ne_nil_of_mem (mem_unwrapped_ofUnits_iff.2 hsink)⟩
  · rintro sinks ⟨rfl, -⟩
    exact ⟨pairwise_unwrapped _, fun sink => mem_unwrapped_ofUnits_iff⟩

end CallGraph

namespace Session

/-- **The rule of decision.** Whatever has been asked before, every function that units define gets a
decision, which hangs on the first definition of its name. It cannot be analysed if and only if it
cannot be scanned; else it is migrated in part if something caps it; else it is kept if it is not
asynchronous; else it is migrated in full. If sinks are a reason, they are those reached that have
no structured wrapper, in the order of their names. -/
theorem decision_rule (units : List SourceUnit) (st : Settings) (earlier : List Question)
    (name : String) (u : SourceUnit) (f : ParsedFunction)
    (hf : definition? units name = some (u, f)) :
    ∃ d, (((start units st).askAll earlier).2.ask (decide (.function name))).1 = .ok d ∧
      (d.category = .unanalyzable ↔ Unscannable u f) ∧
      (d.category = .partialRefactor ↔
        ¬ Unscannable u f ∧ Capped units st.wrappedSinks name f.signature) ∧
      (d.category = .preserve ↔ ¬ Unscannable u f ∧
        ¬ Capped units st.wrappedSinks name f.signature ∧ ¬ f.Asynchronous) ∧
      (d.category = .fullRefactor ↔ ¬ Unscannable u f ∧
        ¬ Capped units st.wrappedSinks name f.signature ∧ f.Asynchronous) ∧
      ((∃ sinks, Reason.externalSink sinks ∈ d.rationale) ↔ ¬ Unscannable u f ∧
        ∃ sink, ReachesUnwrapped units st.wrappedSinks name sink) ∧
      ∀ sinks, Reason.externalSink sinks ∈ d.rationale → sinks.Pairwise (· < ·) ∧
        ∀ sink, sink ∈ sinks ↔ ReachesUnwrapped units st.wrappedSinks name sink := by
  have hs : Faithful (CallGraph.ofUnits units) st ((start units st).askAll earlier).2 :=
    (askAll_spec (faithful_start units st) earlier).2
  have hd : (CallGraph.ofUnits units).decisionOf st.wrappedSinks (.function name)
      = .ok ((CallGraph.ofUnits units).decisionOn st.wrappedSinks (u.entryOf f) (.function name)) := by
    unfold CallGraph.decisionOf
    rw [CallGraph.entry?_ofUnits, hf]
    rfl
  refine ⟨_, (gives_decide (.function name) _ hs).1.trans hd, ?_⟩
  rcases (CallGraph.ofUnits units).decisionOn_entryOf st.wrappedSinks u f (.function name) with
    ⟨hscan, reason, hd⟩ | ⟨hscan, hd⟩
  · rw [hd]
    simp [decideUnscanned, hscan]
  rw [hd]
  obtain ⟨hfires, hexact⟩ :=
    CallGraph.externalSink_ofUnits units st.wrappedSinks name (u.entryOf f)
  rcases CallGraph.category_ofUnits st.wrappedSinks hf hscan with
    ⟨hcap, hc⟩ | ⟨hcap, hasync, hc⟩ | ⟨hcap, hasync, hc⟩
  · simp only [hc, hfires]
    exact ⟨by simp [hscan], by simp [hscan, hcap], by simp [hcap], by simp [hcap], by simp [hscan],
      hexact⟩
  · simp only [hc, hfires]
    exact ⟨by simp [hscan], by simp [hcap], by simp [hscan, hcap, hasync], by simp [hasync],
      by simp [hscan], hexact⟩
  · simp only [hc, hfires]
    exact ⟨by simp [hscan], by simp [hcap], by simp [hasync], by simp [hscan, hcap, hasync],
      by simp [hscan], hexact⟩

/-- Two units that both define `f`; by the first one it calls a function that calls out. -/
def callingOut : List SourceUnit :=
  [{ functions := [{ signature := { name := "f" } }, { signature := { name := "g" } }]
     callSites := [{ caller := "f", callee := some "g" }, { caller := "g", target := "net" }] },
   { functions := [{ signature := { name := "f" }, body := none }] }]

/-- A function that can be scanned by its first definition, and calls out through another. -/
theorem decision_rule_callingOut :
    ∃ u f, definition? callingOut "f" = some (u, f) ∧ ∃ d,
      (((start callingOut {}).askAll [.report (.function "g")]).2.ask
        (decide (.function "f"))).1 = .ok d ∧ d.category = .partialRefactor ∧
      ¬ Unscannable u f ∧ Capped callingOut {} "f" f.signature := by
  obtain ⟨d, hd, -, hrule, -⟩ :=
    decision_rule callingOut {} [.report (.function "g")] "f" _ _ rfl
  have hpartial : (((start callingOut {}).askAll [.report (.function "g")]).2.ask
      (decide (.function "f"))).1.map (·.category) = .ok .partialRefactor := by decide +kernel
  rw [hd] at hpartial
  have hc : d.category = .partialRefactor := Except.ok.inj hpartial
  exact ⟨_, _, rfl, d, hd, hc, hrule.1 hc⟩

end Session
end AsyncMigration
