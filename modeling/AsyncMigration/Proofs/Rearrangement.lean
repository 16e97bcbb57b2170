import AsyncMigration.Proofs.Likeness

/-!
# The order of units

Where no name is defined twice, the order in which units, functions and call sites are handed over
does not matter: the graphs are alike, and every call is counted once.

* `Rearranged.alike`, `callSiteCount`, `failures` — what a rearrangement leaves as it is.
* `Session.order_independent` — the answers agree, and the failures up to their order.
-/

namespace AsyncMigration

/-- Two units differ in the order of their functions and call sites only. -/
structure SourceUnit.Reordered (u v : SourceUnit) : Prop where
  path : u.path = v.path
  text : u.text = v.text
  parseError : u.parseError = v.parseError
  functions : u.functions.Perm v.functions
  callSites : u.callSites.Perm v.callSites

/-- Units are put in another order, and so are the functions and call sites within each. -/
def Rearranged (us vs : List SourceUnit) : Prop :=
  ∃ ws, us.Perm ws ∧ List.Forall₂ SourceUnit.Reordered ws vs

/-- No name is defined twice. -/
def DistinctNames (units : List SourceUnit) : Prop :=
  ((units.flatMap (·.functions)).map (·.signature.name)).Nodup

namespace SourceUnit.Reordered

variable {u v : SourceUnit} (h : u.Reordered v)

include h

theorem scanOf (f : ParsedFunction) : u.scanOf f = v.scanOf f := by
  unfold SourceUnit.scanOf
  rw [h.parseError]

theorem entries : (u.functions.map u.entryOf).Perm (v.functions.map v.entryOf) := by
  have hentry : u.entryOf = v.entryOf := by
    funext f
    unfold entryOf
    rw [h.scanOf]
  rw [hentry]
  exact h.functions.map _

theorem ownFailures : u.ownFailures.Perm v.ownFailures := by
  have hparse : u.parseFailures = v.parseFailures := by
    unfold parseFailures
    rw [h.path, h.parseError]
  have hscan : u.scanFailures = v.scanFailures := by
    funext f
    unfold scanFailures
    rw [h.scanOf]
  unfold SourceUnit.ownFailures
  rw [hparse, hscan]
  exact (h.functions.flatMap_right _).append_left _

end SourceUnit.Reordered

/-- Where the names of entries are distinct, the entry of a name does not hang on their order: two
neighbours may change places, since at most one of them has the name. -/
theorem find?_eq_of_perm {es es' : List CatalogEntry} (h : es.Perm es')
    (hdistinct : (es.map (·.name)).Nodup) (name : String) :
    es.find? (·.name = name) = es'.find? (·.name = name) := by
  induction h with
  | nil => rfl
  | cons e _ ih =>
    rw [List.map_cons, List.nodup_cons] at hdistinct
    rw [List.find?_cons, List.find?_cons, ih hdistinct.2]
  | swap e e' es =>
    simp only [List.map_cons, List.nodup_cons, List.mem_cons, not_or] at hdistinct
    have hne : e'.name ≠ e.name := hdistinct.1.1
    by_cases he : e.name = name
    · have he' : e'.name ≠ name := he ▸ hne
      simp [he, he']
    · by_cases he' : e'.name = name <;> simp [he, he']
  | trans h₁ _ ih₁ ih₂ =>
    exact (ih₁ hdistinct).trans (ih₂ ((h₁.map _).nodup_iff.1 hdistinct))

namespace Rearranged

variable {us vs : List SourceUnit} {α : Type}

/-- What the units contribute is the same up to its order if it is for each of them. -/
theorem flatMap (h : Rearranged us vs) (f : SourceUnit → List α)
    (hf : ∀ u v, SourceUnit.Reordered u v → (f u).Perm (f v)) :
    (us.flatMap f).Perm (vs.flatMap f) := by
  obtain ⟨ws, hperm, hforall⟩ := h
  refine (hperm.flatMap_right f).trans ?_
  -- the units stand in their places now, so only what is within each is left to compare
  clear hperm
  induction hforall with
  | nil => exact .refl _
  | cons huv _ ih =>
    rw [List.flatMap_cons, List.flatMap_cons]
    exact (hf _ _ huv).append ih

variable (h : Rearranged us vs) (hdistinct : DistinctNames us)

include h hdistinct

theorem distinctNames : DistinctNames vs :=
  ((h.flatMap _ fun _ _ huv => huv.functions).map _).nodup_iff.1 hdistinct

theorem get? (name : String) :
    (Catalog.ofUnits us).get? name = (Catalog.ofUnits vs).get? name := by
  rw [Catalog.get?_ofUnits_eq_find?, Catalog.get?_ofUnits_eq_find?]
  refine find?_eq_of_perm (h.flatMap _ fun _ _ huv => huv.entries) ?_ name
  have hnames : (us.flatMap fun u => u.functions.map u.entryOf).map (·.name)
      = (us.flatMap (·.functions)).map (·.signature.name) := by
    simp [List.map_flatMap, Function.comp_def, SourceUnit.entryOf, CatalogEntry.name]
  rw [hnames]
  exact hdistinct

theorem contains :
    (Catalog.ofUnits us).contains = (Catalog.ofUnits vs).contains := by
  funext name
  unfold Catalog.contains
  rw [h.get? hdistinct]

/-- The same calls are accepted. -/
theorem accepted :
    ((Catalog.ofUnits us).accepted (us.flatMap (·.callSites))).Perm
      ((Catalog.ofUnits vs).accepted (vs.flatMap (·.callSites))) := by
  have hedge : (Catalog.ofUnits us).edge = (Catalog.ofUnits vs).edge := by
    funext s
    unfold Catalog.edge Catalog.target
    rw [h.contains hdistinct]
  unfold Catalog.accepted
  rw [hedge, h.contains hdistinct]
  exact ((h.flatMap _ fun _ _ huv => huv.callSites).filter _).map _

/-- The same calls are refused. -/
theorem refused :
    ((Catalog.ofUnits us).refused (us.flatMap (·.callSites))).Perm
      ((Catalog.ofUnits vs).refused (vs.flatMap (·.callSites))) := by
  unfold Catalog.refused
  rw [h.contains hdistinct]
  exact ((h.flatMap _ fun _ _ huv => huv.callSites).filter _).map _

theorem outEdges (n : Node) :
    ((CallGraph.ofUnits us).outEdges n).Perm ((CallGraph.ofUnits vs).outEdges n) := by
  cases n with
  | sink name => exact .refl _
  | function name =>
    rw [(CallGraph.ofUnits_spec us name).1, (CallGraph.ofUnits_spec vs name).1]
    exact (h.accepted hdistinct).filter _

/-- The graphs have the same entries and calls. -/
theorem alike :
    (CallGraph.ofUnits us).Alike (CallGraph.ofUnits vs) where
  entries n := by
    cases n with
    | sink name => rfl
    | function name =>
      unfold CallGraph.entry?
      rw [CallGraph.catalog_ofUnits, CallGraph.catalog_ofUnits]
      exact h.get? hdistinct name
  calls a b := by
    unfold CallGraph.Calls
    rw [CallGraph.mem_successors, CallGraph.mem_successors]
    simp only [(h.outEdges hdistinct a).mem_iff]

/-- Every node takes part in the same number of calls. -/
theorem callSiteCount (n : Node) :
    (CallGraph.ofUnits us).callSiteCount n = (CallGraph.ofUnits vs).callSiteCount n := by
  have hout : (CallGraph.ofUnits us).outgoingCalls n = (CallGraph.ofUnits vs).outgoingCalls n :=
    (h.outEdges hdistinct n).length_eq
  have hin : (CallGraph.ofUnits us).incomingCalls n = (CallGraph.ofUnits vs).incomingCalls n := by
    cases n with
    | sink name => rfl
    | function name =>
      rw [(CallGraph.ofUnits_spec us name).2.1, (CallGraph.ofUnits_spec vs name).2.1]
      exact (h.accepted hdistinct).countP_eq _
  unfold CallGraph.callSiteCount
  rw [hout, hin]

/-- The same failures are noted. -/
theorem failures :
    ((CallGraph.ofUnits us).catalog.failures ++ (CallGraph.ofUnits us).failures).Perm
      ((CallGraph.ofUnits vs).catalog.failures ++ (CallGraph.ofUnits vs).failures) := by
  rw [CallGraph.catalog_ofUnits, CallGraph.catalog_ofUnits, Catalog.failures_ofUnits,
    Catalog.failures_ofUnits, definitionFailures_of_distinct hdistinct,
    definitionFailures_of_distinct (h.distinctNames hdistinct), (CallGraph.ofUnits_spec us "").2.2,
    (CallGraph.ofUnits_spec vs "").2.2]
  exact (h.flatMap _ fun _ _ huv => huv.ownFailures).append (h.refused hdistinct)

end Rearranged

namespace Session

/-- **Order does not matter.** Units in which no name is defined twice may be rearranged, and so may
the functions and call sites of each: every function has the same report; every walk visits the same
nodes, finds the same cycles and ends at the same sinks; and the failures are the same up to their
order, those of an analysis included. -/
theorem order_independent (us vs : List SourceUnit) (st : Settings) (h : Rearranged us vs)
    (hdistinct : DistinctNames us) :
    (∀ n, ((start us st).ask (report n)).1 = ((start vs st).ask (report n)).1) ∧
    (∀ root, ∃ t t', ((start us st).ask (traverse root)).1 = .ok t ∧
      ((start vs st).ask (traverse root)).1 = .ok t' ∧
      (∀ n, n ∈ t.visited ↔ n ∈ t'.visited) ∧ (∀ c, c ∈ t.cycles ↔ c ∈ t'.cycles) ∧
      ∀ sink, sink ∈ t.externalSinks ↔ sink ∈ t'.externalSinks) ∧
    (start us st).failures.Perm (start vs st).failures ∧
    ∀ roots r, ((start us st).ask (analyze roots)).1 = .ok r →
      ∃ r', ((start vs st).ask (analyze roots)).1 = .ok r' ∧ r.failures.Perm r'.failures := by
  have hus : (start us st).Faithful (CallGraph.ofUnits us) st := faithful_start us st
  have hvs : (start vs st).Faithful (CallGraph.ofUnits vs) st := faithful_start vs st
  have halike := h.alike hdistinct
  have hcount := h.callSiteCount hdistinct
  refine ⟨fun n => ?_, fun root => ?_, h.failures hdistinct, fun roots r hr => ?_⟩
  · rw [(gives_report n _ hus).1, (gives_report n _ hvs).1, halike.reportOf hcount]
  · exact ⟨_, _, (gives_traverse root _ hus).1, (gives_traverse root _ hvs).1, halike.visited root,
      halike.cycles root, halike.externalSinks root⟩
  · rw [(gives_analyze roots _ hus).1] at hr
    rw [(gives_analyze roots _ hvs).1]
    exact halike.resultOf hcount (h.failures hdistinct) hr

/-- A unit with a cycle and a call from nowhere, and a unit that did not parse. -/
def scattered : List SourceUnit :=
  [{ path := "a", functions := [{ signature := { name := "f" } }, { signature := { name := "g" } }]
     callSites := [{ caller := "f", callee := some "g" }, { caller := "g", callee := some "f" },
       { caller := "h", callee := some "g" }] },
   { path := "b", parseError := some "eof", functions := [{ signature := { name := "k" } }] }]

/-- Everything in reverse. -/
def scatteredBack : List SourceUnit := scattered.reverse.map fun u =>
  { u with functions := u.functions.reverse, callSites := u.callSites.reverse }

theorem order_independent_scattered :
    Rearranged scattered scatteredBack ∧ DistinctNames scattered ∧
    ((start scattered {}).ask (report (.function "g"))).1
      = ((start scatteredBack {}).ask (report (.function "g"))).1 ∧
    (start scattered {}).failures.Perm (start scatteredBack {}).failures ∧
    ∃ r r', ((start scattered {}).ask (analyze ["f", "k"])).1 = .ok r ∧
      ((start scatteredBack {}).ask (analyze ["f", "k"])).1 = .ok r' ∧ r.failures.Perm r'.failures := by
  have h : Rearranged scattered scatteredBack :=
    ⟨scattered.reverse, (List.reverse_perm _).symm,
      .cons ⟨rfl, rfl, rfl, (List.reverse_perm _).symm, (List.reverse_perm _).symm⟩
        (.cons ⟨rfl, rfl, rfl, (List.reverse_perm _).symm, (List.reverse_perm _).symm⟩ .nil)⟩
  have hdistinct : DistinctNames scattered := by
    unfold DistinctNames
    decide
  obtain ⟨hreport, -, hfailures, hresult⟩ := order_independent scattered scatteredBack {} h hdistinct
  have hok : ((start scattered {}).ask (analyze ["f", "k"])).1.isOk = true := by decide +kernel
  obtain ⟨r, hr⟩ := exists_ok_of_isOk hok
  obtain ⟨r', hr', hperm⟩ := hresult _ r hr
  exact ⟨h, hdistinct, hreport _, hfailures, r, r', hr, hr', hperm⟩

end Session
end AsyncMigration
