import AsyncMigration.Proofs.DecisionRule
import AsyncMigration.Proofs.Totality

/-!
# What a redundant wrapper is marked by

That a function is a redundant wrapper is said in its decision by a flag and by a remark, and shows in
its priority. A redundant wrapper has something to be migrated, so that it is never kept as it is; and
what is kept or cannot be analysed is of no urgency, whatever is configured.

* `Reason.text_eq_redundantWrapper_iff` — no other reason reads like the remark.
* `CallGraph.coherent_decisionOn` — flag, remark and category of a decision go together.
* `CallGraph.redundantWrapper_decisionOn` — the flag says whether the function is a redundant wrapper.
* `Category.tier_of_redundant`, `Category.priority_of_idle` — what follows for the priority.
* `Session.flags_coherent` — so it is with every decision and report of a session.
-/

namespace AsyncMigration

/-! ## What reasons read like -/

theorem head?_append_of_head? {s : String} {c : Char} (h : s.toList.head? = some c) (t : String) :
    (s ++ t).toList.head? = some c := by
  rw [String.toList_append, List.head?_append, h, Option.some_or]

/-- A reason that reads like the remark on redundant wrappers is that remark. The texts that tell of sinks
or of a failure begin with another letter, whatever they tell. -/
theorem Reason.text_eq_redundantWrapper_iff {r : Reason} :
    r.text = "redundant wrapper — removable" ↔ r = .redundantWrapper := by
  have hfirst : "redundant wrapper — removable".toList.head? = some 'r' := by decide +kernel
  constructor
  · intro h
    cases r with
    | redundantWrapper => rfl
    | externalSink sinks =>
      have hother : (Reason.externalSink sinks).text.toList.head? = some 'd' :=
        head?_append_of_head? (head?_append_of_head? (by decide +kernel) _) _
      rw [h, hfirst] at hother
      exact absurd hother (by decide)
    | unscannable failure =>
      have hother : (Reason.unscannable failure).text.toList.head? = some 'f' :=
        head?_append_of_head? (by decide +kernel) _
      rw [h, hfirst] at hother
      exact absurd hother (by decide)
    | directInterop => exact absurd h (by decide +kernel)
    | directProtocol => exact absurd h (by decide +kernel)
    | mutualRecursion => exact absurd h (by decide +kernel)
    | noMigration => exact absurd h (by decide +kernel)
    | fullMigration => exact absurd h (by decide +kernel)
    | wrappedSinks => exact absurd h (by decide +kernel)
    | unsafeSuspension => exact absurd h (by decide +kernel)
  · rintro rfl
    rfl

theorem mem_texts_redundantWrapper_iff {rs : List Reason} :
    "redundant wrapper — removable" ∈ rs.map Reason.text ↔ .redundantWrapper ∈ rs := by
  simp only [List.mem_map, Reason.text_eq_redundantWrapper_iff, exists_eq_right]

/-! ## Decisions -/

/-- A decision is of one piece: it is flagged if and only if it remarks on a redundant wrapper, and then
there is something to be migrated. -/
structure Decision.Coherent (d : Decision) : Prop where
  remarked : d.redundantWrapper = true ↔ "redundant wrapper — removable" ∈ d.rationale.map Reason.text
  migrated : d.redundantWrapper = true → d.category = .fullRefactor ∨ d.category = .partialRefactor

namespace CallGraph

variable {g : CallGraph} {e : CatalogEntry}

/-- A redundant wrapper has a suspension to be migrated. -/
theorem migrationPatterns_of_redundant (h : g.isRedundantWrapper e = true) :
    e.scan.migrationPatterns ≠ [] := by
  intro hnone
  have hwrapped : g.wrappedCallee? e = none := by
    simp [wrappedCallee?, CatalogEntry.soleSuspension?, hnone]
  simp [isRedundantWrapper, hwrapped] at h

theorem redundantWrapper_mem_remarks_iff {s : ConstraintSummary} {unwrapped : List String}
    {redundant : Bool} :
    .redundantWrapper ∈ remarks e s unwrapped redundant ↔ redundant = true := by
  simp [remarks]

theorem redundantWrapper_not_mem_capReasons {s : ConstraintSummary} {unwrapped : List String} :
    .redundantWrapper ∉ capReasons s unwrapped := by
  simp [capReasons]

theorem coherent_decideScanned (g : CallGraph) (wrapped : NameSet) (e : CatalogEntry) (n : Node) :
    (decideScanned g wrapped e (g.summaryOf n)).Coherent := by
  have hflag : (decideScanned g wrapped e (g.summaryOf n)).redundantWrapper = g.isRedundantWrapper e :=
    rfl
  obtain ⟨reasons, hrationale, hcases⟩ := decideScanned_cases g wrapped e n
  have hreasons : .redundantWrapper ∉ reasons := by
    rcases hcases with ⟨-, rfl, -⟩ | ⟨-, -, rfl, -⟩ | ⟨-, -, rfl, -⟩
    · exact redundantWrapper_not_mem_capReasons
    · simp
    · simp
  refine ⟨?_, fun hredundant => ?_⟩
  · rw [mem_texts_redundantWrapper_iff, hflag, hrationale, List.mem_append, or_iff_right hreasons,
      redundantWrapper_mem_remarks_iff]
  · have hneed := migrationPatterns_of_redundant (hflag.symm.trans hredundant)
    rcases hcases with ⟨-, -, hcategory⟩ | ⟨-, hnone, -⟩ | ⟨-, -, -, hcategory⟩
    · exact Or.inr hcategory
    · exact absurd hnone hneed
    · exact Or.inl hcategory

theorem coherent_decideUnscanned (e : CatalogEntry) (failure : String) :
    (decideUnscanned e failure).Coherent := by
  have hflag : (decideUnscanned e failure).redundantWrapper = false := rfl
  refine ⟨?_, fun h => ?_⟩
  · rw [mem_texts_redundantWrapper_iff]
    simp [decideUnscanned]
  · rw [hflag] at h
    cases h

theorem coherent_decisionOn (g : CallGraph) (wrapped : NameSet) (e : CatalogEntry) (n : Node) :
    (g.decisionOn wrapped e n).Coherent := by
  unfold decisionOn
  split
  · exact coherent_decideUnscanned e _
  · exact coherent_decideScanned g wrapped e n

/-- A function that could not be scanned shows no suspension, so nothing is lost by not asking. -/
theorem redundantWrapper_decisionOn (g : CallGraph) (wrapped : NameSet) (u : SourceUnit)
    (f : ParsedFunction) (n : Node) :
    (g.decisionOn wrapped (u.entryOf f) n).redundantWrapper = g.isRedundantWrapper (u.entryOf f) := by
  rcases u.scanOf_spec f with ⟨hscan, reason, hreport⟩ | ⟨hscan, body, -, hreport⟩
  · have hnone : (u.entryOf f).scan.migrationPatterns = [] := by
      simp [SourceUnit.entryOf, hreport, ScanReport.migrationPatterns]
    have hplain : g.isRedundantWrapper (u.entryOf f) = false :=
      Bool.eq_false_iff.2 fun h => migrationPatterns_of_redundant h hnone
    rw [hplain]
    simp [decisionOn, SourceUnit.entryOf, hreport, decideUnscanned]
  · simp [decisionOn, SourceUnit.entryOf, hreport, decideScanned]

end CallGraph

/-! ## Priorities -/

/-- A redundant wrapper that is migrated is of the highest urgency, whatever is configured. -/
theorem Category.tier_of_redundant {c : Category} {x : PrioritySignals} {p : PrioritySettings}
    {q : Priority} (hc : c = .fullRefactor ∨ c = .partialRefactor) (hx : x.redundantWrapper = true)
    (hq : c.priority x p = .ok q) : q.tier = .high := by
  have hscored : x.score p >>= (fun v => pure ⟨x.tier v p, v⟩) = .ok q := by
    rcases hc with rfl | rfl
    · exact hq
    · exact hq
  obtain ⟨v, -, hv⟩ := bind_eq_ok.1 hscored
  cases hv
  simp [PrioritySignals.tier, hx]

/-- What is kept or cannot be analysed is of no urgency, whatever is configured. -/
theorem Category.priority_of_idle {c : Category} (hc : c = .preserve ∨ c = .unanalyzable)
    (x : PrioritySignals) (p : PrioritySettings) : c.priority x p = .ok ⟨.low, .zero⟩ := by
  rcases hc with rfl | rfl
  · rfl
  · rfl

/-- What is kept or cannot be analysed is not flagged. -/
theorem Decision.Coherent.not_redundant {d : Decision} (h : d.Coherent)
    (hc : d.category = .preserve ∨ d.category = .unanalyzable) : d.redundantWrapper = false := by
  by_contra hredundant
  have hmigrated := h.migrated (by simpa using hredundant)
  rcases hc with hc | hc <;> simp [hc] at hmigrated

/-! ## Sessions -/

namespace Session

/-- **Flag, remark, category and priority go together.** In a session over units, whatever has been
asked before and whatever is configured, every catalogued function has a decision. It is flagged if and
only if the function is a redundant wrapper, and if and only if it says so in words. A function that is
flagged is migrated, in full or in part, and its tier is the highest one, in its report and with any
other priority settings; there is no report only if a depth or a number of calls cannot be converted. A
function that is kept or cannot be analysed is not flagged, and its report gives it the lowest tier and
no score; so would any other settings, depth and number of calls. -/
theorem flags_coherent (units : List SourceUnit) (st : Settings) (earlier : List Question)
    (name : String) (h : (start units st).graph.catalog.contains name = true) :
    let s := ((start units st).askAll earlier).2
    ∃ d, (s.ask (decide (.function name))).1 = .ok d ∧
      (s.ask (isRedundantWrapper (.function name))).1 = .ok d.redundantWrapper ∧
      (d.redundantWrapper = true ↔ "redundant wrapper — removable" ∈ d.rationale.map Reason.text) ∧
      (d.redundantWrapper = true →
        (d.category = .fullRefactor ∨ d.category = .partialRefactor) ∧
        ((∃ r, (s.ask (report (.function name))).1 = .ok r ∧ r.decision = d ∧
            r.priority.tier = .high) ∨
          (s.ask (report (.function name))).1 = .error .outOfRange ∧
            (start units st).graph.Excessive (.function name)) ∧
        ∀ scan calls p q, d.category.priority (.of d scan calls) p = .ok q → q.tier = .high) ∧
      (d.category = .preserve ∨ d.category = .unanalyzable →
        d.redundantWrapper = false ∧
        (∃ r, (s.ask (report (.function name))).1 = .ok r ∧ r.decision = d ∧
          r.priority = ⟨.low, .zero⟩) ∧
        ∀ x p, d.category.priority x p = .ok ⟨.low, .zero⟩) := by
  intro s
  let g := CallGraph.ofUnits units
  have hs : s.Faithful g st := (askAll_spec (faithful_start units st) earlier).2
  have hcatalogued : (CallGraph.entry? g (.function name)).isSome = true := h
  obtain ⟨e, hentry⟩ := Option.isSome_iff_exists.1 hcatalogued
  obtain ⟨u, -, f, -, -, rfl⟩ := Catalog.exists_of_get?_ofUnits
    ((CallGraph.entry?_ofUnits_eq_get? units name).symm.trans hentry)
  have hcoherent := g.coherent_decisionOn st.wrappedSinks (u.entryOf f) (.function name)
  have hdecision := (gives_decide (.function name) s hs).1.trans
    (CallGraph.decisionOf_eq_ok hentry st.wrappedSinks)
  refine ⟨_, hdecision, ?_, hcoherent.remarked, fun hredundant => ?_, fun hidle => ?_⟩
  · rw [(gives_isRedundantWrapper (.function name) s hs).1, g.redundantWrapper_decisionOn,
      CallGraph.redundancyOf, hentry]
    rfl
  · have hmigrated := hcoherent.migrated hredundant
    refine ⟨hmigrated, ?_, fun scan calls p q => Category.tier_of_redundant hmigrated hredundant⟩
    rw [(gives_report (.function name) s hs).1]
    refine (CallGraph.reportOf_found st hcatalogued).imp_left ?_
    rintro ⟨r, hr⟩
    obtain ⟨e, p, he, hp, rfl⟩ := CallGraph.exists_priorityOf hr
    obtain rfl : u.entryOf f = e := Option.some.inj (hentry.symm.trans he)
    exact ⟨_, hr, rfl, Category.tier_of_redundant hmigrated hredundant hp⟩
  · have hlow := Category.priority_of_idle hidle
    refine ⟨hcoherent.not_redundant hidle, ?_, hlow⟩
    refine ⟨g.reportOn st (u.entryOf f) (.function name) ⟨.low, .zero⟩, ?_, rfl, rfl⟩
    rw [(gives_report (.function name) s hs).1, CallGraph.reportOf, hentry]
    dsimp only
    rw [CallGraph.priorityOf, hlow]
    rfl

/-- A redundant wrapper that also calls out, and a function that calls it and has no body. -/
def flaggedUnits : List SourceUnit :=
  [{ functions :=
      [{ signature := { name := "wrapper" }
         body := some [.node "suspension" 2 false (some "core") []] },
       { signature := { name := "core", structured := true } },
       { signature := { name := "broken" }, body := none }]
     callSites := [{ caller := "wrapper", callee := some "core" }, { caller := "wrapper", target := "net" },
       { caller := "broken", callee := some "wrapper" }] }]

/-- Settings with which no score and no depth that occurs reaches a tier. -/
def unreachableTiers : Settings :=
  { priority := { mediumThreshold := .nan, highThreshold := .nan, highNestingDepth := 100 } }

/-- A flagged function is of the highest tier where no score leads there; one that cannot be analysed is
of the lowest. -/
theorem flags_coherent_unreachable :
    let s := ((start flaggedUnits unreachableTiers).askAll [.analyze ["broken"]]).2
    (∃ d r, (s.ask (decide (.function "wrapper"))).1 = .ok d ∧ d.redundantWrapper = true ∧
      "redundant wrapper — removable" ∈ d.rationale.map Reason.text ∧
      (s.ask (report (.function "wrapper"))).1 = .ok r ∧ r.priority.tier = .high) ∧
    ∃ d r, (s.ask (decide (.function "broken"))).1 = .ok d ∧ d.category = .unanalyzable ∧
      d.redundantWrapper = false ∧ (s.ask (report (.function "broken"))).1 = .ok r ∧
      r.priority = ⟨.low, .zero⟩ := by
  intro s
  constructor
  · obtain ⟨d, hd, -, hremarked, hflagged, -⟩ :=
      flags_coherent flaggedUnits unreachableTiers [.analyze ["broken"]] "wrapper" (by decide +kernel)
    have hflag : (s.ask (decide (.function "wrapper"))).1.map (·.redundantWrapper) = .ok true := by
      decide +kernel
    rw [hd] at hflag
    have hredundant : d.redundantWrapper = true := Except.ok.inj hflag
    obtain ⟨-, ⟨r, hr, -, htier⟩ | ⟨herror, -⟩, -⟩ := hflagged hredundant
    · exact ⟨d, r, hd, hredundant, hremarked.1 hredundant, hr, htier⟩
    · have hfound : (s.ask (report (.function "wrapper"))).1.isOk = true := by decide +kernel
      rw [herror] at hfound
      cases hfound
  · obtain ⟨d, hd, -, -, -, hidle⟩ :=
      flags_coherent flaggedUnits unreachableTiers [.analyze ["broken"]] "broken" (by decide +kernel)
    have hcategory : (s.ask (decide (.function "broken"))).1.map (·.category) = .ok .unanalyzable := by
      decide +kernel
    rw [hd] at hcategory
    have hunanalyzable : d.category = .unanalyzable := Except.ok.inj hcategory
    obtain ⟨hplain, ⟨r, hr, -, hlow⟩, -⟩ := hidle (Or.inr hunanalyzable)
    exact ⟨d, r, hd, hunanalyzable, hplain, hr, hlow⟩

end Session
end AsyncMigration
