import AsyncMigration.Proofs.Regions
import AsyncMigration.Proofs.Scans
import AsyncMigration.Report.Json

/-!
# What an analysis does not look at

The essence of units is what is left when all that an analysis passes over is blanked: the text of a
unit, what a function returns, how its parameters are called and which of them are no callbacks, the
wording of a protocol tag, the marks of nodes that leave no pattern, and of a call site what serves
only to name a sink or a failure that does not come about. Units and their essence have the same
result, so units of the same essence do.

* `SourceUnit.scanOf_essence` — the scans are the same.
* `Catalog.get?_essence`, `definitionFailures_essence` — the catalogue differs in signatures only.
* `CallGraph.agreeOn_essence` — the graphs agree everywhere.
* `Session.irrelevant_fields_ignored` — so units of the same essence have the same result.
-/

namespace AsyncMigration

/-! ## The essence of units -/

/-- A kind of node that leaves no pattern of its own. -/
def NodeKind.silent : NodeKind → Bool
  | closure | call | block => true
  | suspension | await => false

/-- A node of this kind leaves no pattern of its own, though the kind is known. -/
def isSilent (kind : String) : Bool := (NodeKind.ofName? kind).any NodeKind.silent

/-- One line for all valid lines of nodes that leave no pattern. -/
def lineEssence (kind : String) (line : Int) : Int :=
  if isSilent kind then min line 1 else line

mutual

/-- An element without its mark, unless it is a suspension; if it leaves no pattern, also without its
callee and its line, as long as that is valid. -/
def BodyElement.essence : BodyElement → BodyElement
  | .stray v => .stray v
  | .node kind line checked callee children =>
    .node kind (lineEssence kind line) (checked && decide (kind = "suspension"))
      (if isSilent kind then none else callee) (bodyEssence children)

/-- A body with each of its elements reduced to the essence. -/
def bodyEssence : List BodyElement → List BodyElement
  | [] => []
  | e :: es => e.essence :: bodyEssence es

end

/-- A signature without what the function returns, with nameless callbacks for parameters, and with
one tag for all protocols. -/
def Signature.essence (s : Signature) : Signature :=
  { s with
    params := s.callbacks.map fun _ => ⟨"", true⟩
    returns := ""
    protocol := s.protocol.map fun tag => if tag = "" then "" else "protocol" }

def ParsedFunction.essence (f : ParsedFunction) : ParsedFunction :=
  ⟨f.signature.essence, f.body.map bodyEssence⟩

/-- A call site without its text, if it names a callee, and without its line, if its caller is
known. -/
def CallSite.essence (known : String → Bool) (s : CallSite) : CallSite :=
  { s with
    target := if s.callee.any (· ≠ "") then "" else s.target
    line := if known s.caller then 0 else s.line }

def SourceUnit.essence (known : String → Bool) (u : SourceUnit) : SourceUnit :=
  { u with
    text := ""
    functions := u.functions.map ParsedFunction.essence
    callSites := u.callSites.map (CallSite.essence known) }

/-- Units without all that an analysis of them passes over. -/
def essence (units : List SourceUnit) : List SourceUnit :=
  units.map (SourceUnit.essence (Catalog.ofUnits units).contains)

/-! ## Scans -/

theorem lineEssence_lt_one_iff {kind : String} {line : Int} :
    lineEssence kind line < 1 ↔ line < 1 := by
  unfold lineEssence
  split <;> omega

theorem lineEssence_of_lt_one {kind : String} {line : Int} (h : line < 1) :
    lineEssence kind line = line := by
  unfold lineEssence
  split <;> omega

mutual

theorem elementFault?_essence (e : BodyElement) : elementFault? e.essence = elementFault? e := by
  match e with
  | .stray v => rfl
  | .node kind line checked callee children =>
    unfold BodyElement.essence elementFault?
    rw [firstFault?_essence]
    cases hkind : NodeKind.ofName? kind with
    | none => simp [lineEssence, isSilent, hkind]
    | some k =>
      simp only [Option.isNone_some, Bool.false_eq_true, if_false, lineEssence_lt_one_iff]
      split
      · next hline => rw [lineEssence_of_lt_one hline]
      · rfl

theorem firstFault?_essence (es : List BodyElement) : firstFault? (bodyEssence es) = firstFault? es := by
  match es with
  | [] => rfl
  | e :: es => rw [bodyEssence, firstFault?, firstFault?, elementFault?_essence, firstFault?_essence]

end

mutual

theorem elementClosureDepth_essence (e : BodyElement) :
    elementClosureDepth e.essence = elementClosureDepth e := by
  match e with
  | .stray v => rfl
  | .node kind line checked callee children =>
    unfold BodyElement.essence elementClosureDepth
    rw [closureDepth_essence]

theorem closureDepth_essence (es : List BodyElement) :
    closureDepth (bodyEssence es) = closureDepth es := by
  match es with
  | [] => rfl
  | e :: es =>
    rw [bodyEssence, closureDepth, closureDepth, elementClosureDepth_essence, closureDepth_essence]

end

mutual

/-- What is blanked in an element is not in its patterns. -/
theorem elementPatterns_essence (function : String) (depth suspensions : Nat) (e : BodyElement) :
    elementPatterns function depth suspensions e.essence
      = elementPatterns function depth suspensions e := by
  match e with
  | .stray v => rfl
  | .node kind line checked callee children =>
    unfold BodyElement.essence elementPatterns
    split
    · next hkind =>
      have hname : kind = "suspension" := ofName?_eq_suspension_iff.1 hkind
      rw [forestPatterns_essence]
      simp [hname, lineEssence, isSilent, NodeKind.ofName?, NodeKind.silent]
    · next hkind =>
      rw [forestPatterns_essence]
      simp [lineEssence, isSilent, hkind, NodeKind.silent]
    · rw [forestPatterns_essence]
    · rw [forestPatterns_essence]

theorem forestPatterns_essence (function : String) (depth suspensions : Nat)
    (es : List BodyElement) : forestPatterns function depth suspensions (bodyEssence es)
      = forestPatterns function depth suspensions es := by
  match es with
  | [] => rfl
  | e :: es =>
    rw [bodyEssence, forestPatterns, forestPatterns, forestPatterns_essence, elementPatterns_essence]

end

theorem Signature.constraints_essence (s : Signature) : s.essence.constraints = s.constraints := by
  unfold Signature.constraints Signature.essence
  cases s.protocol with
  | none => rfl
  | some tag => by_cases htag : tag = "" <;> simp [htag]

/-- Only the number of callbacks is in the patterns of a declaration. -/
theorem declarationPatterns_essence (s : Signature) (closureDepth : Nat) :
    declarationPatterns s.essence closureDepth = declarationPatterns s closureDepth := by
  have hcallbacks : s.essence.callbacks = s.callbacks.map fun _ => ⟨"", true⟩ :=
    List.filter_eq_self.2 fun p hp => by
      obtain ⟨_, -, rfl⟩ := List.mem_map.1 hp
      rfl
  unfold declarationPatterns
  rw [hcallbacks, List.map_map]
  rfl

theorem scanFunction_essence (f : ParsedFunction) : scanFunction f.essence = scanFunction f := by
  rw [scanFunction_eq, scanFunction_eq, ParsedFunction.essence]
  cases f.body with
  | none => rfl
  | some body =>
    simp only [Option.map_some, firstFault?_essence, closureDepth_essence,
      declarationPatterns_essence, forestPatterns_essence]
    rfl

theorem SourceUnit.scanOf_essence (u : SourceUnit) (known : String → Bool) (f : ParsedFunction) :
    (u.essence known).scanOf f.essence = u.scanOf f := by
  unfold SourceUnit.scanOf
  rw [scanFunction_essence]
  rfl

/-! ## The catalogue -/

/-- An entry with its signature reduced to the essence. -/
def CatalogEntry.essence (e : CatalogEntry) : CatalogEntry := ⟨e.signature.essence, e.scan⟩

theorem signaturesOf_essence (known : String → Bool) (us : List SourceUnit) :
    signaturesOf (us.map (SourceUnit.essence known)) = (signaturesOf us).map Signature.essence := by
  simp only [signaturesOf, List.flatMap_map, List.map_flatMap, SourceUnit.essence, List.map_map]
  rfl

theorem SourceUnit.entryOf_essence (u : SourceUnit) (known : String → Bool) (f : ParsedFunction) :
    (u.essence known).entryOf f.essence = (u.entryOf f).essence := by
  unfold SourceUnit.entryOf
  rw [scanOf_essence]
  rfl

theorem Catalog.get?_essence (us : List SourceUnit) (name : String) :
    (ofUnits (AsyncMigration.essence us)).get? name
      = ((ofUnits us).get? name).map CatalogEntry.essence := by
  have hentries : ((AsyncMigration.essence us).flatMap fun u => u.functions.map u.entryOf)
      = (us.flatMap fun u => u.functions.map u.entryOf).map CatalogEntry.essence := by
    unfold AsyncMigration.essence
    rw [List.flatMap_map, List.map_flatMap]
    refine List.flatMap_congr fun u _ => ?_
    rw [List.map_map]
    show (u.functions.map ParsedFunction.essence).map _ = _
    rw [List.map_map]
    exact List.map_congr_left fun f _ => u.entryOf_essence _ f
  rw [get?_ofUnits_eq_find?, get?_ofUnits_eq_find?, hentries, List.find?_map]
  rfl

theorem Catalog.contains_essence (us : List SourceUnit) (name : String) :
    (ofUnits (AsyncMigration.essence us)).contains name = (ofUnits us).contains name := by
  unfold Catalog.contains
  rw [get?_essence, Option.isSome_map]

theorem eachAfter_map {α β : Type} (f : α → β) (l : List α) :
    eachAfter (l.map f) = (eachAfter l).map fun x => (x.1.map f, f x.2) := by
  simp [eachAfter, List.zipIdx_map, List.map_take, Function.comp_def]

theorem SourceUnit.failuresAfter_essence (u : SourceUnit) (known : String → Bool)
    (earlier : List Signature) (f : ParsedFunction) :
    (u.essence known).failuresAfter (earlier.map Signature.essence) f.essence
      = u.failuresAfter earlier f := by
  have hfirst : (earlier.map Signature.essence).find? (·.name = f.essence.signature.name)
      = (earlier.find? (·.name = f.signature.name)).map Signature.essence := List.find?_map ..
  unfold SourceUnit.failuresAfter SourceUnit.scanFailures
  rw [hfirst, scanOf_essence]
  cases earlier.find? (·.name = f.signature.name) with
  | none => rfl
  | some first => rfl

theorem definitionFailures_essence (us : List SourceUnit) :
    definitionFailures (essence us) = definitionFailures us := by
  unfold definitionFailures essence
  rw [eachAfter_map, List.flatMap_map]
  refine List.flatMap_congr fun x _ => ?_
  refine congrArg (x.2.parseFailures ++ ·) ?_
  show (eachAfter (x.2.functions.map ParsedFunction.essence)).flatMap _ = _
  rw [eachAfter_map, List.flatMap_map]
  refine List.flatMap_congr fun y _ => ?_
  have hearlier : signaturesOf (x.1.map (SourceUnit.essence (Catalog.ofUnits us).contains))
      ++ (y.1.map ParsedFunction.essence).map (·.signature)
        = (signaturesOf x.1 ++ y.1.map (·.signature)).map Signature.essence := by
    rw [signaturesOf_essence, List.map_append, List.map_map, List.map_map]
    rfl
  dsimp only
  rw [hearlier]
  exact x.2.failuresAfter_essence _ _ y.2

/-! ## Call sites -/

/-- The two ends of a call. -/
def CallEdge.ends (e : CallEdge) : String × Node := (e.caller, e.callee)

theorem CallSite.sinkName_essence (known : String → Bool) (s : CallSite) :
    (s.essence known).sinkName = s.sinkName := by
  unfold CallSite.sinkName CallSite.essence
  split <;> simp_all

section

variable {c c' : Catalog} (hc : ∀ name, c'.contains name = c.contains name)

include hc

theorem Catalog.target_essence (known : String → Bool) (s : CallSite) :
    c'.target (s.essence known) = c.target s := by
  unfold Catalog.target
  rw [CallSite.sinkName_essence, funext hc]
  rfl

/-- The calls accepted have the same ends. -/
theorem Catalog.ends_accepted_essence (known : String → Bool) (sites : List CallSite) :
    (c'.accepted (sites.map (CallSite.essence known))).map CallEdge.ends
      = (c.accepted sites).map CallEdge.ends := by
  have hcaller : ∀ s, c'.contains (CallSite.essence known s).caller = c.contains s.caller :=
    fun s => hc s.caller
  simp only [Catalog.accepted, List.filter_map, Function.comp_def, List.map_map, hcaller]
  refine List.map_congr_left fun s _ => ?_
  exact congrArg (Prod.mk s.caller) (Catalog.target_essence hc known s)

/-- The calls refused are the same, since their lines are kept. -/
theorem Catalog.refused_essence (sites : List CallSite) :
    c'.refused (sites.map (CallSite.essence c.contains)) = c.refused sites := by
  have hcaller : ∀ s, c'.contains (CallSite.essence c.contains s).caller = c.contains s.caller :=
    fun s => hc s.caller
  simp only [Catalog.refused, List.filter_map, Function.comp_def, List.map_map, hcaller]
  refine List.map_congr_left fun s hs => ?_
  have hline : (s.essence c.contains).line = s.line := by
    have hunknown := (List.mem_filter.1 hs).2
    simp_all [CallSite.essence]
  rw [CallSite.sinkName_essence, hline]
  rfl

end

theorem callSites_essence (us : List SourceUnit) : (essence us).flatMap (·.callSites)
    = (us.flatMap (·.callSites)).map (CallSite.essence (Catalog.ofUnits us).contains) := by
  unfold essence
  rw [List.flatMap_map, List.map_flatMap]
  rfl

namespace CallGraph

/-! ## The call graph -/

/-- What a function calls, call by call. -/
theorem callees_ofUnits (us : List SourceUnit) (name : String) :
    ((ofUnits us).outEdges (.function name)).map (·.callee)
      = ((((Catalog.ofUnits us).accepted (us.flatMap (·.callSites))).map CallEdge.ends).filter
        (·.1 = name)).map (·.2) := by
  rw [(ofUnits_spec us name).1, List.filter_map, List.map_map]
  rfl

theorem incomingCalls_ofUnits (us : List SourceUnit) (name : String) :
    (ofUnits us).incomingCalls (.function name)
      = (((Catalog.ofUnits us).accepted (us.flatMap (·.callSites))).map CallEdge.ends).countP
        (·.2 = .function name) := by
  rw [(ofUnits_spec us name).2.1, List.countP_map]
  rfl

theorem ends_essence (us : List SourceUnit) :
    ((Catalog.ofUnits (essence us)).accepted ((essence us).flatMap (·.callSites))).map CallEdge.ends
      = ((Catalog.ofUnits us).accepted (us.flatMap (·.callSites))).map CallEdge.ends := by
  rw [callSites_essence]
  exact Catalog.ends_accepted_essence (Catalog.contains_essence us) _ _

theorem callees_essence (us : List SourceUnit) (n : Node) :
    ((ofUnits (essence us)).outEdges n).map (·.callee) = ((ofUnits us).outEdges n).map (·.callee) := by
  cases n with
  | sink name => rfl
  | function name => rw [callees_ofUnits, callees_ofUnits, ends_essence]

theorem entry?_essence (us : List SourceUnit) (n : Node) :
    CallGraph.entry? (ofUnits (essence us)) n
      = (CallGraph.entry? (ofUnits us) n).map CatalogEntry.essence := by
  cases n with
  | sink name => rfl
  | function name => rw [entry?_ofUnits_eq_get?, entry?_ofUnits_eq_get?, Catalog.get?_essence]

theorem agreeOn_essence (us : List SourceUnit) :
    AgreeOn (fun _ => True) (ofUnits (essence us)) (ofUnits us) where
  closed _ _ _ _ := trivial
  successors n _ := by
    unfold successors
    rw [callees_essence]
  ownConstraints n _ := by
    cases n with
    | sink name => rfl
    | function name =>
      unfold ownConstraints
      simp only [catalog_ofUnits, Catalog.get?_essence]
      cases (Catalog.ofUnits us).get? name with
      | none => rfl
      | some e => exact e.signature.constraints_essence
  callSiteCount n _ := by
    have hout : (ofUnits (essence us)).outgoingCalls n = (ofUnits us).outgoingCalls n := by
      have hlength := congrArg List.length (callees_essence us n)
      rwa [List.length_map, List.length_map] at hlength
    have hin : (ofUnits (essence us)).incomingCalls n = (ofUnits us).incomingCalls n := by
      cases n with
      | sink name => rfl
      | function name => rw [incomingCalls_ofUnits, incomingCalls_ofUnits, ends_essence]
    unfold callSiteCount
    rw [hout, hin]

theorem failures_essence (us : List SourceUnit) :
    (ofUnits (essence us)).catalog.failures ++ (ofUnits (essence us)).failures
      = (ofUnits us).catalog.failures ++ (ofUnits us).failures := by
  -- the failures are said of some name, whichever it is
  rw [catalog_ofUnits, catalog_ofUnits, Catalog.failures_ofUnits, Catalog.failures_ofUnits,
    definitionFailures_essence, (ofUnits_spec (essence us) "").2.2, (ofUnits_spec us "").2.2,
    callSites_essence, Catalog.refused_essence (Catalog.contains_essence us)]

/-! ## Answers -/

variable (us : List SourceUnit) (st : Settings)

theorem isRedundantWrapper_essence (e : CatalogEntry) :
    (ofUnits (essence us)).isRedundantWrapper e.essence = (ofUnits us).isRedundantWrapper e := by
  have hwrapped : (ofUnits (essence us)).wrappedCallee? e.essence = (ofUnits us).wrappedCallee? e := by
    unfold wrappedCallee? resolvedCallees
    rw [(agreeOn_essence us).successors _ trivial]
    rfl
  unfold isRedundantWrapper
  rw [hwrapped]
  cases (ofUnits us).wrappedCallee? e with
  | none => rfl
  | some callee =>
    simp only [catalog_ofUnits, Catalog.get?_essence]
    cases (Catalog.ofUnits us).get? callee with
    | none => rfl
    | some target => rfl

theorem decisionOn_essence (wrapped : NameSet) (e : CatalogEntry) (n : Node) :
    (ofUnits (essence us)).decisionOn wrapped e.essence n = (ofUnits us).decisionOn wrapped e n := by
  have hscan : e.essence.scan = e.scan := rfl
  unfold decisionOn
  rw [(agreeOn_essence us).summaryOf trivial, hscan]
  cases e.scan.failure with
  | some failure => rfl
  | none =>
    simp only [decideScanned, isRedundantWrapper_essence]
    rfl

theorem reportOf_essence (n : Node) :
    (ofUnits (essence us)).reportOf st n = (ofUnits us).reportOf st n := by
  unfold reportOf
  rw [entry?_essence]
  cases CallGraph.entry? (ofUnits us) n with
  | none => rfl
  | some e =>
    simp only [Option.map_some, priorityOf, reportOn, decisionOn_essence,
      (agreeOn_essence us).callSiteCount n trivial, (agreeOn_essence us).summaryOf (a := n) trivial]
    rfl

theorem rootOf_essence (root : String) :
    (ofUnits (essence us)).rootOf st root = (ofUnits us).rootOf st root := by
  refine (agreeOn_essence us).rootOf trivial (fun n _ => ?_) fun n _ => reportOf_essence us st n
  rw [entry?_essence, Option.isSome_map]

theorem resultOf_essence (roots : List String) :
    (ofUnits (essence us)).resultOf st roots = (ofUnits us).resultOf st roots := by
  unfold resultOf
  rw [mapM_congr fun root _ => rootOf_essence us st root, failures_essence]

end CallGraph

namespace Session

/-- Units and their essence have the same result. -/
theorem analyze_essence (us : List SourceUnit) (roots : List String) (st : Settings) :
    (AsyncMigration.analyze (essence us) roots st).1 = (AsyncMigration.analyze us roots st).1 := by
  by_cases hnil : roots = []
  · subst hnil
    rfl
  · rw [analyze_eq_resultOf _ st hnil, analyze_eq_resultOf _ st hnil, CallGraph.resultOf_essence]

/-- **Irrelevant fields are ignored.** Units are given twice, with the same essence: they differ at
most in texts, return types, the names of parameters and the number of those that are no callbacks,
which protocol is named, the marks of nodes that are no suspensions, the callees and valid lines of
closures, calls and blocks, the texts of call sites that name a callee and the lines of those with a
catalogued caller. Whatever the roots and the settings, they have the same result, and what is written
of it is the same. -/
theorem irrelevant_fields_ignored (us vs : List SourceUnit) (h : essence us = essence vs)
    (roots : List String) (st : Settings) :
    (AsyncMigration.analyze us roots st).1 = (AsyncMigration.analyze vs roots st).1 ∧
      (AsyncMigration.analyze us roots st).1.map Result.toJson
        = (AsyncMigration.analyze vs roots st).1.map Result.toJson := by
  have hresult : (AsyncMigration.analyze us roots st).1 = (AsyncMigration.analyze vs roots st).1 := by
    rw [← analyze_essence us, ← analyze_essence vs, h]
  exact ⟨hresult, congrArg _ hresult⟩

/-- Two functions with their calls, one of which has no catalogued caller. The words, parameters,
marks and lines left open are passed over. -/
def garnished (word : String) (plain : List Parameter) (checked : Bool) (line : Int) :
    List SourceUnit :=
  [{ path := "a"
     text := word
     functions :=
      [{ signature :=
          { name := "f", params := plain ++ [⟨word, true⟩], returns := word, protocol := some word }
         body := some [.node "closure" line checked (some word)
          [.node "suspension" 2 true (some "g") [], .node "await" 3 checked none []]] },
       { signature := { name := "g", structured := true } }]
     callSites :=
      [{ caller := "f", callee := some "g", target := word, line },
       { caller := "f", target := "net", line },
       { caller := "lost", callee := some "g", target := word, line := 4 }] }]

theorem irrelevant_fields_ignored_garnished :
    essence (garnished "x" [] true 1) = essence (garnished "y" [⟨"z", false⟩] false 9) ∧
      (AsyncMigration.analyze (garnished "x" [] true 1) ["f", "lost"] {}).1.map Result.toJson
        = (AsyncMigration.analyze (garnished "y" [⟨"z", false⟩] false 9) ["f", "lost"] {}).1.map
          Result.toJson := by
  have hessence : essence (garnished "x" [] true 1) = essence (garnished "y" [⟨"z", false⟩] false 9) := by
    with_unfolding_all rfl
  exact ⟨hessence, (irrelevant_fields_ignored _ _ hessence ["f", "lost"] {}).2⟩

end Session
end AsyncMigration
