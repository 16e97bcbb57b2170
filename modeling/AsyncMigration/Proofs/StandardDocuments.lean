import AsyncMigration.Proofs.Delivery
import AsyncMigration.Proofs.Finiteness
import AsyncMigration.Proofs.JsonWords

/-!
# When documents are JSON

The only numbers in a document that are no integers are the scores, so it is a text of the JSON grammar
exactly if these are finite. Under an infinite weight one is not.

* `Result.reals_toJson` — the numbers in a document are its scores.
* `Result.standard_document_iff` — a document is standard if they are finite.
* `Command.exists_table` — the settings of a command come from some table.
* `Session.standard_documents` — which documents are standard, whatever is configured.
* `Session.prints_nan` — a command that succeeds may print what is not JSON.
-/

namespace AsyncMigration

/-! ## The numbers in a document -/

namespace Json

@[simp] theorem realsOfItems_map {α : Type} (f : α → Json) (l : List α) :
    realsOfItems (l.map f) = l.flatMap fun a => (f a).reals := by
  induction l with
  | nil => rfl
  | cons a l ih => rw [List.map_cons, realsOfItems, List.flatMap_cons, ih]

theorem realsOfMembers_append (ms ms' : List (String × Json)) :
    realsOfMembers (ms ++ ms') = realsOfMembers ms ++ realsOfMembers ms' := by
  induction ms with
  | nil => rfl
  | cons m ms ih =>
    obtain ⟨name, v⟩ := m
    rw [List.cons_append, realsOfMembers, realsOfMembers, ih, List.append_assoc]

@[simp] theorem reals_texts (ss : List String) : reals (.texts ss) = [] := by
  simp [texts, reals]

end Json

open Json (reals realsOfMembers)

@[simp] theorem Pattern.reals_toJson (p : Pattern) : p.toJson.reals = [] := by
  cases hcallee : p.callee <;> simp [toJson, hcallee, reals, realsOfMembers]

@[simp] theorem ConstraintSummary.reals_toJson (s : ConstraintSummary) : s.toJson.reals = [] := by
  simp [toJson, reals, realsOfMembers]

@[simp] theorem Traversal.reals_toJson (t : Traversal) : t.toJson.reals = [] := by
  simp [toJson, reals, realsOfMembers]

@[simp] theorem Failure.reals_toJson (f : Failure) : f.toJson.reals = [] := by
  simp [toJson, reals, realsOfMembers]

@[simp] theorem FunctionReport.reals_members (f : FunctionReport) :
    realsOfMembers f.members = [f.priority.score] := by
  simp [members, reals, realsOfMembers]

@[simp] theorem FunctionReport.reals_toJson (f : FunctionReport) :
    f.toJson.reals = [f.priority.score] := by
  rw [toJson, reals, reals_members]

@[simp] theorem RootReport.reals_toJson (r : RootReport) :
    r.toJson.reals = (r.function :: r.dependencies).map (·.priority.score) := by
  have hscores : (r.dependencies.flatMap fun f => [f.priority.score])
      = r.dependencies.map (·.priority.score) := List.map_eq_flatMap.symm
  simp [toJson, reals, realsOfMembers, Json.realsOfMembers_append, hscores]

theorem Result.reals_toJson (r : Result) :
    r.toJson.reals = r.functionReports.map (·.priority.score) := by
  simp [toJson, reals, realsOfMembers, functionReports, List.map_flatMap]

/-- A document is standard exactly if its scores are finite. -/
theorem Result.standard_document_iff (r : Result) :
    Json.Standard r.document.toList ↔ ∀ f ∈ r.functionReports, f.priority.score.IsFinite := by
  have hend : Json.Blanks ['\n'] := by simp [Json.Blanks]
  have htext : r.document.toList = r.toJson.pretty.toList ++ ['\n'] := by simp [document]
  rw [htext, Json.standard_pretty_iff r.toJson hend, reals_toJson, List.forall_mem_map]

/-! ## The scores in a result -/

/-- The signals behind the priority in a report. -/
def FunctionReport.signals (f : FunctionReport) : PrioritySignals :=
  .of f.decision { function := f.name, patterns := f.patterns } f.callSites

/-- The functions that are to be migrated have a score of their own. -/
def Category.isScored : Category → Bool
  | .fullRefactor | .partialRefactor => true
  | .preserve | .unanalyzable => false

/-- A report is on a function without a score of its own, or that score is in range. -/
def FunctionReport.InRange (f : FunctionReport) (p : PrioritySettings) : Prop :=
  f.decision.category.isScored = true → f.signals.InRange p

theorem Category.isFinite_score_iff {c : Category} {x : PrioritySignals} {p : PrioritySettings}
    {q : Priority} (hp : p.Weighted) (hdepth : 0 ≤ x.nestingDepth) (hcalls : 0 ≤ x.callSites)
    (hq : c.priority x p = .ok q) : q.score.IsFinite ↔ (c.isScored = true → x.InRange p) := by
  have hzero : Binary64.zero.IsFinite := ⟨false, 0, rfl⟩
  have hscored : x.score p >>= (fun v => pure ⟨x.tier v p, v⟩) = .ok q →
      (q.score.IsFinite ↔ x.InRange p) := by
    intro h
    obtain ⟨v, hv, h⟩ := bind_eq_ok.1 h
    cases h
    exact PrioritySignals.isFinite_score_iff hp hdepth hcalls hv
  cases c with
  | preserve =>
    cases hq
    simpa [isScored] using hzero
  | unanalyzable =>
    cases hq
    simpa [isScored] using hzero
  | fullRefactor => simpa [isScored] using hscored hq
  | partialRefactor => simpa [isScored] using hscored hq

namespace CallGraph

variable {units : List SourceUnit} {st : Settings} {roots : List String} {r : Result}
  {f : FunctionReport} {n : Node} {g : CallGraph}

/-- The score in a report is finite exactly if it is in range. -/
theorem isFinite_score_iff (hp : st.priority.Weighted) (hf : (ofUnits units).reportOf st n = .ok f) :
    f.priority.score.IsFinite ↔ f.InRange st.priority := by
  obtain ⟨e, q, he, hq, rfl⟩ := exists_priorityOf hf
  exact Category.isFinite_score_iff hp (maxNesting_nonneg he) (Int.natCast_nonneg _) hq

/-- Every report in a result is a report on some node. -/
theorem exists_reportOf_of_mem (h : g.resultOf st roots = .ok r) (hf : f ∈ r.functionReports) :
    ∃ n, g.reportOf st n = .ok f := by
  obtain ⟨parts, hparts, h⟩ := bind_eq_ok.1 h
  cases h
  simp only [Result.functionReports, List.mem_flatMap] at hf
  obtain ⟨x, ⟨part, hpart, hx⟩, hf⟩ := hf
  obtain ⟨root, -, hroot⟩ := (mem_of_mapM_iff hparts).1 hpart
  rcases rootOf_cases hroot with ⟨-, f', ds, hf', hds, rfl⟩ | ⟨-, rfl⟩
  · obtain rfl := List.mem_singleton.1 hx
    obtain ⟨n, -, hn⟩ := (mem_reports_iff hf' hds).1 hf
    exact ⟨n, hn⟩
  · cases hx

end CallGraph

/-! ## The settings of a command -/

theorem Settings.priority_ofTable {t : ConfigTable} {st : Settings} (h : ofTable t = .ok st) :
    PrioritySettings.ofTable (t.inner "priority") = .ok st.priority := by
  obtain ⟨p, hp, h⟩ := bind_eq_ok.1 h
  cases h
  exact hp

/-- Settings that were loaded are those of some table. -/
theorem exists_table_of_loaded {p : PathName} {files : FileTree} {st : Settings}
    (h : ((loadSettings FileTree.access p).run files).1 = .ok st) :
    ∃ t, PrioritySettings.ofTable t = .ok st.priority := by
  have hload : (((loadConfig FileTree.access p).run files).1.bind ConfigTable.settings) = .ok st := h
  obtain ⟨t, -, ht⟩ := bind_eq_ok.1 hload
  exact ⟨_, Settings.priority_ofTable (mapError_eq_ok_iff.1 ht)⟩

theorem Command.exists_table {c : Command} {files : FileTree} {st : Settings}
    (h : ((c.settings FileTree.access).run files).1 = .ok st) :
    ∃ t, PrioritySettings.ofTable t = .ok st.priority := by
  have hloaded : ∀ (p : PathName) (files : FileTree),
      ((((loadSettings FileTree.access p).run files).1.map fun s : Settings =>
        { s with workers := c.workers?.getD s.workers }).mapError CommandError.config) = .ok st →
      ∃ t, PrioritySettings.ofTable t = .ok st.priority := by
    intro p files h
    obtain ⟨s, hs, rfl⟩ := map_eq_ok.1 (mapError_eq_ok_iff.1 h)
    obtain ⟨t, ht⟩ := exists_table_of_loaded hs
    exact ⟨t, ht⟩
  unfold Command.settings at h
  split at h
  · next p _ =>
    rw [FileTree.run_bind] at h
    cases hkind : ((FileAccess.isKind FileTree.access .file p).run files).1 with
    | error e =>
      rw [hkind] at h
      cases h
    | ok found =>
      rw [hkind] at h
      cases found with
      | false => cases h
      | true => exact hloaded _ _ h
  · exact hloaded _ _ h

/-- There is one thing that a command analyses. -/
theorem Command.Analyses.unique {c : Command} {files : FileTree} {units units' : List SourceUnit}
    {roots roots' : List String} {st st' : Settings} (h : c.Analyses files units roots st)
    (h' : c.Analyses files units' roots' st') : units = units' ∧ roots = roots' ∧ st = st' := by
  obtain ⟨frontEnd, bundle, hselect, hload, hsettings, rfl, rfl⟩ := h
  obtain ⟨frontEnd', bundle', hselect', hload', hsettings', rfl, rfl⟩ := h'
  obtain rfl := Except.ok.inj (hselect.symm.trans hselect')
  obtain rfl := Except.ok.inj (hload.symm.trans hload')
  exact ⟨rfl, rfl, Except.ok.inj (hsettings.symm.trans hsettings')⟩

namespace Session

variable {units : List SourceUnit} {st : Settings} {roots : List String} {r : Result}

theorem isFinite_scores_iff (hp : st.priority.Weighted)
    (h : (AsyncMigration.analyze units roots st).1 = .ok r) :
    ∀ f ∈ r.functionReports, f.priority.score.IsFinite ↔ f.InRange st.priority := by
  intro f hf
  by_cases hnil : roots = []
  · subst hnil
    cases h
    cases hf
  · rw [analyze_eq_resultOf units st hnil] at h
    obtain ⟨n, hn⟩ := CallGraph.exists_reportOf_of_mem h hf
    exact CallGraph.isFinite_score_iff hp hn

theorem standard_document_iff (hp : st.priority.Weighted)
    (h : (AsyncMigration.analyze units roots st).1 = .ok r) :
    Json.Standard r.document.toList ↔ ∀ f ∈ r.functionReports, f.InRange st.priority := by
  rw [Result.standard_document_iff]
  exact forall₂_congr (isFinite_scores_iff hp h)

/-- **Standard documents.** Whatever table the settings come from, a score in a result is finite exactly
if it is in range, and the document is a text of the JSON grammar exactly if all scores are. They are if
the weights, the depths and the numbers of calls are below a moderate bound. A command that works with
these settings delivers this document unless it fails, and its settings do come from some table. -/
theorem standard_documents (units : List SourceUnit) (roots : List String) (st : Settings)
    (t : ConfigTable) (ht : PrioritySettings.ofTable t = .ok st.priority) :
    (∀ r, (AsyncMigration.analyze units roots st).1 = .ok r →
      (∀ f ∈ r.functionReports, f.priority.score.IsFinite ↔ f.InRange st.priority) ∧
        (Json.Standard r.document.toList ↔ ∀ f ∈ r.functionReports, f.InRange st.priority)) ∧
    (∀ (f : FunctionReport) (k : Nat), 0 < k → k ≤ 510 →
      f.signals.nestingDepth.natAbs < 2 ^ k → f.callSites < 2 ^ k →
      (∀ w ∈ [st.priority.nestingWeight, st.priority.callSiteWeight, st.priority.redundantWrapperBonus],
        ∃ q, w.HasQuanta q ∧ q < 2 ^ k * Binary64.one) →
      f.InRange st.priority) ∧
    (∀ files args o output workers failOnHigh,
      Command.ofArguments args = .ok (.analyze o output workers failOnHigh) →
      (Command.analyze o output workers failOnHigh).Analyses files units roots st →
      (∃ e log files',
        (Command.runArguments FileTree.access args).run files = (.failed e log, files')) ∨
      ∃ r x files', (AsyncMigration.analyze units roots st).1 = .ok r ∧
        (Command.runArguments FileTree.access args).run files = (x, files') ∧
        x.error.isNone = true ∧ Command.Delivered r.document output x.output files') ∧
    ∀ (c : Command) (files : FileTree) units' roots' (st' : Settings),
      c.Analyses files units' roots' st' → ∃ t', PrioritySettings.ofTable t' = .ok st'.priority := by
  have hp : st.priority.Weighted :=
    PrioritySettings.WeightsFromTable.weighted ⟨t, _, ht, rfl, rfl, rfl⟩
  refine ⟨?_, ?_, ?_, ?_⟩
  · intro r hr
    exact ⟨isFinite_scores_iff hp hr, standard_document_iff hp hr⟩
  · intro f k hpos hk hdepth hcalls hweights _
    exact PrioritySignals.inRange_of_moderate ⟨hpos, hk⟩ hdepth hcalls hweights
  · intro files args o output workers failOnHigh hargs hanalyses
    have hrun : Command.runArguments FileTree.access args
        = (Command.analyze o output workers failOnHigh).run FileTree.access := by
      simp only [Command.runArguments, hargs]
    rw [hrun]
    rcases Command.run_analyze o output workers files with
      ⟨e, log, files', hfailed⟩ | ⟨units', roots', st', r, printed, log, files', hsame, hr, hdone, hx⟩
    · exact Or.inl ⟨e, log, files', hfailed failOnHigh⟩
    · obtain ⟨rfl, rfl, rfl⟩ := hanalyses.unique hsame
      exact Or.inr ⟨r, _, files', hr, hx failOnHigh, rfl, hdone⟩
  · rintro c files units' roots' st' ⟨frontEnd, bundle, -, -, hsettings, -, -⟩
    exact Command.exists_table hsettings

/-- A function that calls itself, with one suspension inside another. -/
def nestedSuspension : List SourceUnit :=
  [{ functions :=
       [{ signature := { name := "f" }
          body := some [.node "suspension" 1 true none [.node "suspension" 2 true none []]] }]
     callSites := [{ caller := "f", callee := some "f" }] }]

theorem defaultWeights_moderate :
    ∀ w ∈ [({} : PrioritySettings).nestingWeight, ({} : PrioritySettings).callSiteWeight,
      ({} : PrioritySettings).redundantWrapperBonus],
      ∃ q, w.HasQuanta q ∧ q < 2 ^ 3 * Binary64.one := by
  have hpos : 0 < Binary64.one := by decide +kernel
  intro w hw
  simp only [List.mem_cons, List.not_mem_nil, or_false] at hw
  rcases hw with rfl | rfl | rfl
  · exact ⟨_, ⟨false, rfl⟩, by omega⟩
  · exact ⟨_, ⟨false, rfl⟩, by omega⟩
  · exact ⟨_, ⟨false, rfl⟩, by omega⟩

/-- With the default settings the score of a function with some depth and some calls is in range, and the
document is standard. A command without a configuration delivers its document. -/
theorem standard_documents_nested :
    PrioritySettings.ofTable [] = .ok ({} : Settings).priority ∧
    (∃ r, (AsyncMigration.analyze nestedSuspension ["f"] {}).1 = .ok r ∧
      r.functionReports.map (fun f => (f.decision.category.isScored, f.signals))
        = [(true, ⟨1, 2, false⟩)] ∧
      (∀ f ∈ r.functionReports, f.InRange {}) ∧ Json.Standard r.document.toList) ∧
    ∃ o output workers failOnHigh units roots st,
      Command.ofArguments ["analyze", "p.json"] = .ok (.analyze o output workers failOnHigh) ∧
      (Command.analyze o output workers failOnHigh).Analyses (filesWith "") units roots st ∧
      ∃ r x files', (AsyncMigration.analyze units roots st).1 = .ok r ∧
        (Command.runArguments FileTree.access ["analyze", "p.json"]).run (filesWith "") = (x, files') ∧
        Command.Delivered r.document output x.output files' := by
  have htable : PrioritySettings.ofTable [] = .ok ({} : Settings).priority := by decide +kernel
  have hsignals : (AsyncMigration.analyze nestedSuspension ["f"] {}).1.toOption.map
      (·.functionReports.map fun f => (f.decision.category.isScored, f.signals))
        = some [(true, ⟨1, 2, false⟩)] := by decide +kernel
  have hargs : Command.ofArguments ["analyze", "p.json"]
      = .ok (.analyze { paths := [.ofText "p.json"] } none none false) := rfl
  have hdone : ((Command.runArguments FileTree.access ["analyze", "p.json"]).run
      (filesWith "")).1.error.isNone = true := by decide +kernel
  obtain ⟨hresult, hmoderate, -, htables⟩ :=
    standard_documents nestedSuspension ["f"] {} [] htable
  refine ⟨htable, ?_, ?_⟩
  · cases hr : (AsyncMigration.analyze nestedSuspension ["f"] {}).1 with
    | error e =>
      rw [hr] at hsignals
      cases hsignals
    | ok r =>
      rw [hr] at hsignals
      have hreports := Option.some.inj hsignals
      have hrange : ∀ f ∈ r.functionReports, f.InRange {} := by
        intro f hf
        have hmem : (f.decision.category.isScored, f.signals) ∈ [(true, ⟨1, 2, false⟩)] := by
          rw [← hreports]
          exact List.mem_map.2 ⟨f, hf, rfl⟩
        have hf : f.signals = ⟨1, 2, false⟩ := congrArg Prod.snd (List.mem_singleton.1 hmem)
        have hcalls : (f.callSites : Int) = 2 := congrArg PrioritySignals.callSites hf
        apply hmoderate f 3 (by decide) (by decide) _ (by omega) defaultWeights_moderate
        rw [hf]
        decide
      exact ⟨r, rfl, hreports, hrange, (hresult r hr).2.2 hrange⟩
  · have hin : ∃ units roots st,
        (Command.analyze { paths := [.ofText "p.json"] } none none false).Analyses (filesWith "")
          units roots st := by
      rcases Command.run_analyze { paths := [.ofText "p.json"] } none none (filesWith "") with
        ⟨e, log, files', hfailed⟩ | ⟨units, roots, st, -, -, -, -, hin, -⟩
      · simp only [Command.runArguments, hargs, hfailed] at hdone
        cases hdone
      · exact ⟨units, roots, st, hin⟩
    obtain ⟨units, roots, st, hin⟩ := hin
    obtain ⟨t, ht⟩ := htables _ _ _ _ _ hin
    obtain ⟨-, -, hcommand, -⟩ := standard_documents units roots st t ht
    rcases hcommand _ _ _ _ _ _ hargs hin with
      ⟨e, log, files', hfailed⟩ | ⟨r, x, files', hr, hx, -, hdelivered⟩
    · rw [hfailed] at hdone
      cases hdone
    · exact ⟨_, _, _, _, units, roots, st, hargs, hin, r, x, files', hr, hx, hdelivered⟩

/-- A configuration with an infinite weight. -/
def infiniteWeight : String := "[priority]\nnesting_weight=inf"

/-- Under an infinite weight a command succeeds, and what it prints is not JSON. -/
theorem prints_nan :
    ∃ x files', (Command.runArguments FileTree.access ["analyze", "p.json"]).run
        (filesWith infiniteWeight) = (x, files') ∧
      x.error.isNone = true ∧ x.exitCode = 0 ∧ ¬ Json.Standard x.output.toList := by
  have hargs : Command.ofArguments ["analyze", "p.json"]
      = .ok (.analyze { paths := [.ofText "p.json"] } none none false) := rfl
  have hscores : (((Command.analyze { paths := [.ofText "p.json"] } none none false).result
      FileTree.access).run (filesWith infiniteWeight)).1.1.toOption.map
        (·.functionReports.map (·.priority.score)) = some [.nan] := by
    decide +kernel
  cases hresult : ((Command.analyze { paths := [.ofText "p.json"] } none none false).result
      FileTree.access).run (filesWith infiniteWeight) with
  | mk answered files' =>
    obtain ⟨answer, events⟩ := answered
    rw [hresult] at hscores
    cases answer with
    | error e => cases hscores
    | ok r =>
      have hnan : r.functionReports.map (·.priority.score) = [.nan] := Option.some.inj hscores
      have hmem : Binary64.nan ∈ r.functionReports.map (·.priority.score) := by simp [hnan]
      obtain ⟨f, hf, hscore⟩ := List.mem_map.1 hmem
      have hlevel : Level.ofThreshold? ("WARNING".map Text.upperAscii) = some .warning := by
        decide +kernel
      refine ⟨{ output := r.document, log := Text.shown (logText .warning events) }, files', ?_, rfl,
        rfl, ?_⟩
      · simp only [Command.runArguments, hargs]
        exact Command.run_of_ok hlevel hresult
      · rw [Result.standard_document_iff]
        intro hfinite
        obtain ⟨s, q, hq⟩ := hfinite f hf
        cases hscore.symm.trans hq

end Session
end AsyncMigration
