import AsyncMigration.Proofs.Accounting
import AsyncMigration.Proofs.Regions
import AsyncMigration.Proofs.Scans
import AsyncMigration.Proofs.Scores

/-!
# Calls made once more

A call that has been made before is made again, from another line. It leads where the earlier one led,
so no new way comes into the graph, and nothing that is read off ways changes. Only the number of
calls does, for the caller and for the function that is called.

* `CallRepeated.sameWays` — the graphs have the same ways.
* `CallRepeated.callSiteCount` — what the call adds to the number of calls.
* `Session.repetition_adds_weight` — so tiers may rise, and all else is as before.
-/

namespace AsyncMigration

/-- Units are given twice; the second time a call site stands at some place after one that differs
from it at most in its line. -/
inductive CallRepeated (s : CallSite) : List SourceUnit → List SourceUnit → Prop
  | later {before after : List SourceUnit} {u : SourceUnit} {ss ts : List CallSite} (line : Int)
      (hs : s ∈ before.flatMap (·.callSites) ++ ss) :
      CallRepeated s (before ++ { u with callSites := ss ++ ts } :: after)
        (before ++ { u with callSites := ss ++ { s with line } :: ts } :: after)

/-- How often a call counts for a function: once if that makes the call, and once more if it is
called. -/
def CallSite.timesFor (s : CallSite) (name : String) : Nat :=
  (if s.caller = name then 1 else 0) + if s.callee = some name then 1 else 0

theorem CallSite.timesFor_eq_zero {s : CallSite} {name : String} (hcaller : name ≠ s.caller)
    (hcallee : ∀ callee, s.callee = some callee → name ≠ callee) : s.timesFor name = 0 := by
  have hnot : s.callee ≠ some name := fun h => hcallee name h rfl
  simp [timesFor, hcaller.symm, hnot]

/-- What stands in a list already adds nothing to what it holds. -/
theorem eraseDups_append_cons {α : Type} [DecidableEq α] {l m : List α} {a : α} (ha : a ∈ l) :
    (l ++ a :: m).eraseDups = (l ++ m).eraseDups := by
  rw [List.eraseDups_append, List.eraseDups_append]
  simp [List.removeAll, ha]

namespace CallRepeated

variable {s : CallSite} {us vs : List SourceUnit} {st : Settings} {name : String} {n : Node}

theorem catalog (h : CallRepeated s us vs) : Catalog.ofUnits us = Catalog.ofUnits vs := by
  cases h with
  | @later before after u ss ts line hs =>
    rw [Catalog.ofUnits_eq_foldl, Catalog.ofUnits_eq_foldl, List.foldl_append, List.foldl_append]
    rfl

theorem defined_iff (h : CallRepeated s us vs) : Defined us name ↔ Defined vs name := by
  rw [← Catalog.contains_ofUnits, h.catalog, Catalog.contains_ofUnits]

theorem entry? (h : CallRepeated s us vs) (n : Node) :
    CallGraph.entry? (CallGraph.ofUnits us) n = CallGraph.entry? (CallGraph.ofUnits vs) n := by
  cases n with
  | sink name => rfl
  | function name =>
    rw [CallGraph.entry?_ofUnits_eq_get?, CallGraph.entry?_ofUnits_eq_get?, h.catalog]

theorem exists_callSites (h : CallRepeated s us vs) :
    ∃ (ss ts : List CallSite) (line : Int), us.flatMap (·.callSites) = ss ++ ts ∧
      vs.flatMap (·.callSites) = ss ++ { s with line } :: ts ∧ s ∈ ss := by
  cases h with
  | @later before after u ss ts line hs =>
    exact ⟨before.flatMap (·.callSites) ++ ss, ts ++ after.flatMap (·.callSites), line,
      by simp, by simp, hs⟩

section

variable (h : CallRepeated s us vs) (hcaller : Defined us s.caller)

include h hcaller

/-- There is one edge more, which leads where an earlier edge led. -/
theorem exists_accepted :
    ∃ (es es' : List CallEdge) (e : CallEdge),
      (Catalog.ofUnits us).accepted (us.flatMap (·.callSites)) = es ++ es' ∧
      (Catalog.ofUnits vs).accepted (vs.flatMap (·.callSites)) = es ++ e :: es' ∧
      e.caller = s.caller ∧ e.callee = (Catalog.ofUnits us).target s ∧
      ∃ x ∈ es, x.caller = e.caller ∧ x.callee = e.callee := by
  obtain ⟨ss, ts, line, hus, hvs, hs⟩ := h.exists_callSites
  have hknown : (Catalog.ofUnits us).contains s.caller = true := Catalog.contains_ofUnits.2 hcaller
  refine ⟨(Catalog.ofUnits us).accepted ss, (Catalog.ofUnits us).accepted ts,
    (Catalog.ofUnits us).edge { s with line }, ?_, ?_, rfl, rfl, (Catalog.ofUnits us).edge s, ?_, rfl,
    rfl⟩
  · rw [hus, Catalog.accepted_append]
  · rw [← h.catalog, hvs, Catalog.accepted_append]
    simp [Catalog.accepted, hknown]
  · exact List.mem_map_of_mem (List.mem_filter.2 ⟨hs, hknown⟩)

theorem failures : (CallGraph.ofUnits us).failures = (CallGraph.ofUnits vs).failures := by
  obtain ⟨ss, ts, line, hus, hvs, -⟩ := h.exists_callSites
  have hknown : (Catalog.ofUnits us).contains s.caller = true := Catalog.contains_ofUnits.2 hcaller
  rw [(CallGraph.ofUnits_spec us "").2.2, (CallGraph.ofUnits_spec vs "").2.2, ← h.catalog, hus, hvs,
    Catalog.refused_append, Catalog.refused_append]
  simp [Catalog.refused, hknown]

theorem successors (n : Node) :
    (CallGraph.ofUnits us).successors n = (CallGraph.ofUnits vs).successors n := by
  cases n with
  | sink name => rfl
  | function name =>
    obtain ⟨es, es', e, hus, hvs, -, -, x, hx, hxcaller, hxcallee⟩ := h.exists_accepted hcaller
    unfold CallGraph.successors
    rw [(CallGraph.ofUnits_spec us name).1, (CallGraph.ofUnits_spec vs name).1, hus, hvs,
      List.filter_append, List.filter_append, List.filter_cons]
    split
    · next hname =>
      have hmem : e.callee ∈ (es.filter (·.caller = name)).map (·.callee) := by
        refine List.mem_map.2 ⟨x, List.mem_filter.2 ⟨hx, ?_⟩, hxcallee⟩
        rw [hxcaller]
        exact hname
      rw [List.map_append, List.map_append, List.map_cons, eraseDups_append_cons hmem]
    · rfl

/-- No new way comes into the graph. -/
theorem sameWays :
    CallGraph.SameWays (fun _ => True) (CallGraph.ofUnits us) (CallGraph.ofUnits vs) where
  closed _ _ _ _ := trivial
  successors n _ := h.successors hcaller n
  ownConstraints n _ := CallGraph.ownConstraints_congr (congrArg _ (h.entry? n))

/-- The call counts for its caller and for the function that it leads to. -/
theorem callSiteCount (hname : Defined us name) :
    (CallGraph.ofUnits vs).callSiteCount (.function name)
      = (CallGraph.ofUnits us).callSiteCount (.function name) + s.timesFor name := by
  obtain ⟨es, es', e, hus, hvs, hecaller, hecallee, -⟩ := h.exists_accepted hcaller
  have hcallee : e.callee = .function name ↔ s.callee = some name := by
    rw [hecallee, Catalog.target_eq_function_iff, Catalog.contains_ofUnits]
    exact and_iff_left hname
  unfold CallGraph.callSiteCount CallGraph.outgoingCalls CallSite.timesFor
  rw [(CallGraph.ofUnits_spec us name).1, (CallGraph.ofUnits_spec vs name).1,
    (CallGraph.ofUnits_spec us name).2.1, (CallGraph.ofUnits_spec vs name).2.1, hus, hvs]
  simp only [← List.countP_eq_length_filter, List.countP_append, List.countP_cons, hecaller, hcallee,
    decide_eq_true_eq]
  omega

theorem isRedundantWrapper (e : CatalogEntry) :
    (CallGraph.ofUnits us).isRedundantWrapper e = (CallGraph.ofUnits vs).isRedundantWrapper e := by
  apply CallGraph.isRedundantWrapper_congr (h.successors hcaller _)
  intro callee _
  rw [CallGraph.catalog_ofUnits, CallGraph.catalog_ofUnits, h.catalog]

theorem decisionOn (wrapped : NameSet) (e : CatalogEntry) (n : Node) :
    (CallGraph.ofUnits us).decisionOn wrapped e n = (CallGraph.ofUnits vs).decisionOn wrapped e n :=
  (h.sameWays hcaller).decisionOn_of_redundant trivial wrapped e (h.isRedundantWrapper hcaller e)

theorem decisionOf (wrapped : NameSet) (n : Node) :
    (CallGraph.ofUnits us).decisionOf wrapped n = (CallGraph.ofUnits vs).decisionOf wrapped n := by
  unfold CallGraph.decisionOf
  rw [← h.entry? n]
  cases CallGraph.entry? (CallGraph.ofUnits us) n with
  | none => rfl
  | some e => simp only [h.decisionOn hcaller]

theorem redundancyOf (n : Node) :
    (CallGraph.ofUnits us).redundancyOf n = (CallGraph.ofUnits vs).redundancyOf n := by
  unfold CallGraph.redundancyOf
  rw [← h.entry? n]
  cases CallGraph.entry? (CallGraph.ofUnits us) n with
  | none => rfl
  | some e => simp only [h.isRedundantWrapper hcaller]

/-- Reports are the same where the call does not count. -/
theorem reportOf (st : Settings) (hn : ∀ name, n = .function name → s.timesFor name = 0) :
    (CallGraph.ofUnits us).reportOf st n = (CallGraph.ofUnits vs).reportOf st n := by
  apply (h.sameWays hcaller).reportOf_of_count trivial (h.entry? n)
  · intro e _
    exact h.decisionOn hcaller _ e n
  · intro e he
    cases n with
    | sink name => cases he
    | function name =>
      rw [h.callSiteCount hcaller (CallGraph.defined_of_entry? he), hn name rfl, Nat.add_zero]

/-- Tiers do not fall. -/
theorem rank_reportOf_le (hp : st.priority.Weighted) {r r' : FunctionReport}
    (hr : (CallGraph.ofUnits us).reportOf st (.function name) = .ok r)
    (hr' : (CallGraph.ofUnits vs).reportOf st (.function name) = .ok r') :
    r'.callSites = r.callSites + s.timesFor name ∧
      r.priority.tier.rank ≤ r'.priority.tier.rank := by
  obtain ⟨e, p, he, rfl⟩ := CallGraph.exists_reportOn hr
  obtain ⟨e', p', he', rfl⟩ := CallGraph.exists_reportOn hr'
  have hcount := h.callSiteCount hcaller (CallGraph.defined_of_entry? he)
  have hsame : e = e' := Option.some.inj (he.symm.trans ((h.entry? _).trans he'))
  subst hsame
  refine ⟨hcount, ?_⟩
  refine CallGraph.rank_reportOf_le hp he he' (h.decisionOn hcaller _ e _)
    ⟨CallGraph.maxNesting_nonneg he, le_rfl⟩ ?_ hr hr'
  omega

theorem failures_resultOf {roots : List String} {r r' : Result}
    (hr : (CallGraph.ofUnits us).resultOf st roots = .ok r)
    (hr' : (CallGraph.ofUnits vs).resultOf st roots = .ok r') : r.failures = r'.failures := by
  rw [(Session.accounting_resultOf hr).1, (Session.accounting_resultOf hr').1, h.catalog,
    h.failures hcaller]
  simp only [rootFailures, h.defined_iff]

end
end CallRepeated

namespace Session

/-- **Repeating a call only adds weight.** A call site of a catalogued caller is followed, anywhere,
by one that differs from it at most in its line. Failures, walks, constraints and decisions are the
same, and so are the reports on functions that neither make the call nor are called. The number of
calls goes up by one for the caller and by one for the callee, so by two for a function that calls
itself. No tier is lowered, where the weights are those of some table. -/
theorem repetition_adds_weight (us vs : List SourceUnit) (st : Settings) (s : CallSite)
    (h : CallRepeated s us vs) (hcaller : Defined us s.caller)
    (hweights : st.priority.WeightsFromTable) :
    (start us st).failures = (start vs st).failures ∧
    (∀ roots r r', (AsyncMigration.analyze us roots st).1 = .ok r →
      (AsyncMigration.analyze vs roots st).1 = .ok r' → r.failures = r'.failures) ∧
    (∀ n, ((start us st).ask (traverse n)).1 = ((start vs st).ask (traverse n)).1 ∧
      ((start us st).ask (summarize n)).1 = ((start vs st).ask (summarize n)).1 ∧
      ((start us st).ask (decide n)).1 = ((start vs st).ask (decide n)).1 ∧
      ((start us st).ask (isRedundantWrapper n)).1 = ((start vs st).ask (isRedundantWrapper n)).1) ∧
    (∀ n, n ≠ .function s.caller → (∀ callee, s.callee = some callee → n ≠ .function callee) →
      ((start us st).ask (report n)).1 = ((start vs st).ask (report n)).1) ∧
    (∀ name, Defined us name →
      (start vs st).graph.callSiteCount (.function name)
        = (start us st).graph.callSiteCount (.function name) + s.timesFor name ∧
      FoundUnless ((start us st).graph.Excessive (.function name))
        ((start us st).ask (report (.function name))).1 ∧
      FoundUnless ((start vs st).graph.Excessive (.function name))
        ((start vs st).ask (report (.function name))).1) ∧
    ∀ name r r', ((start us st).ask (report (.function name))).1 = .ok r →
      ((start vs st).ask (report (.function name))).1 = .ok r' →
      r'.callSites = r.callSites + s.timesFor name ∧
        r.priority.tier.rank ≤ r'.priority.tier.rank := by
  have hways := h.sameWays hcaller
  have hgraph : ∀ units, (start units st).graph = CallGraph.ofUnits units := fun _ => rfl
  have hfailures : (start us st).failures = (start vs st).failures := by
    simp only [failures, hgraph, CallGraph.catalog_ofUnits, h.catalog, h.failures hcaller]
  have hfound : ∀ units name, Defined units name →
      FoundUnless ((CallGraph.ofUnits units).Excessive (.function name))
        ((CallGraph.ofUnits units).reportOf st (.function name)) := fun units name hname =>
    CallGraph.reportOf_found st (CallGraph.contains_catalog_iff.2 hname)
  simp only [traverse_start, summarize_start, decide_start, isRedundantWrapper_start, report_start,
    hgraph]
  refine ⟨hfailures, fun roots r r' hr hr' => ?_, fun n => ⟨?_, ?_, h.decisionOf hcaller _ n,
    h.redundancyOf hcaller n⟩, fun n hn hn' => h.reportOf hcaller st fun name hname => ?_,
    fun name hname => ⟨h.callSiteCount hcaller hname, hfound us name hname,
      hfound vs name (h.defined_iff.1 hname)⟩,
    fun name r r' hr hr' => h.rank_reportOf_le hcaller hweights.weighted hr hr'⟩
  · by_cases hnil : roots = []
    · subst hnil
      cases hr
      cases hr'
      rfl
    · rw [analyze_eq_resultOf us st hnil] at hr
      rw [analyze_eq_resultOf vs st hnil] at hr'
      exact h.failures_resultOf hcaller hr hr'
  · rw [hways.traversalOf trivial]
  · rw [hways.summaryOf trivial]
  · subst hname
    refine CallSite.timesFor_eq_zero (fun heq => hn (congrArg _ heq)) fun callee hcallee heq => ?_
    exact hn' callee hcallee (congrArg _ heq)

/-- A function that suspends and calls itself, over and over, and another one that it calls. -/
def selfCalls (lines : List Int) : List SourceUnit :=
  [{ functions := [⟨{ name := "f" }, some [.node "suspension" 1 true none []]⟩,
       { signature := { name := "g" } }]
     callSites := lines.map fun line => { caller := "f", callee := some "f", line } },
   { callSites := [{ caller := "f", callee := some "g" }] }]

/-- One more call of the function to itself counts twice, and lifts it to the highest tier. -/
theorem repetition_adds_weight_selfCalls :
    CallRepeated { caller := "f", callee := some "f", line := 2 } (selfCalls [2, 3, 4])
      (selfCalls [2, 3, 5, 4]) ∧
    Defined (selfCalls [2, 3, 4]) "f" ∧
    ((start (selfCalls [2, 3, 4]) {}).ask (report (.function "g"))).1
      = ((start (selfCalls [2, 3, 5, 4]) {}).ask (report (.function "g"))).1 ∧
    ∃ r r', ((start (selfCalls [2, 3, 4]) {}).ask (report (.function "f"))).1 = .ok r ∧
      ((start (selfCalls [2, 3, 5, 4]) {}).ask (report (.function "f"))).1 = .ok r' ∧
      r'.callSites = r.callSites + 2 ∧ r.priority.tier = .medium ∧ r'.priority.tier = .high := by
  have h : CallRepeated { caller := "f", callee := some "f", line := 2 } (selfCalls [2, 3, 4])
      (selfCalls [2, 3, 5, 4]) :=
    @CallRepeated.later _ [] [_] { functions := _ } [{ caller := "f", callee := some "f", line := 2 },
      { caller := "f", callee := some "f", line := 3 }] [_] 5 List.mem_cons_self
  have hcaller : Defined (selfCalls [2, 3, 4]) "f" := by decide
  obtain ⟨-, -, -, hothers, -, hreports⟩ :=
    repetition_adds_weight _ _ {} _ h hcaller ⟨[], {}, rfl, rfl, rfl, rfl⟩
  have htiers : ((start (selfCalls [2, 3, 4]) {}).ask (report (.function "f"))).1.map
        (·.priority.tier) = .ok .medium ∧
      ((start (selfCalls [2, 3, 5, 4]) {}).ask (report (.function "f"))).1.map (·.priority.tier)
        = .ok .high := by decide +kernel
  obtain ⟨r, hr, htier⟩ := map_eq_ok.1 htiers.1
  obtain ⟨r', hr', htier'⟩ := map_eq_ok.1 htiers.2
  refine ⟨h, hcaller, hothers _ (by decide) (by simp), r, r', hr, hr', ?_, htier, htier'⟩
  exact (hreports "f" r r' hr hr').1

end Session
end AsyncMigration
