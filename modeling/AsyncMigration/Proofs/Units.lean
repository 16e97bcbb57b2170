import AsyncMigration.Proofs.Reach
import Mathlib.Data.List.Induction

/-!
# What units define and call

The catalogue and the call graph of units, read off the units themselves.

* `Catalog.get?_ofUnits` — the entry of a name is that of its first definition.
* `Catalog.failures_ofUnits` — what is noted of a definition hangs on those before it.
* `CallGraph.addCalls_spec` — what call sites leave in a graph: edges, counts and failures.
* `CallGraph.calls_ofUnits_iff` — the calls of the graph of units are those that their call sites make.
-/

namespace AsyncMigration

/-! ## Definitions -/

/-- Each item of a list with those before it. -/
def eachAfter {α : Type} (l : List α) : List (List α × α) :=
  l.zipIdx.map fun (a, i) => (l.take i, a)

theorem eachAfter_concat {α : Type} (l : List α) (a : α) :
    eachAfter (l ++ [a]) = eachAfter l ++ [(l, a)] := by
  simp only [eachAfter, List.zipIdx_append, List.map_append]
  congr 1
  · apply List.map_congr_left
    intro x hx
    have hlt := List.snd_lt_of_mem_zipIdx hx
    rw [List.take_append_of_le_length (by omega)]
  · simp

theorem exists_of_mem_eachAfter {α : Type} {l : List α} {x : List α × α} (hx : x ∈ eachAfter l) :
    ∃ after, l = x.1 ++ x.2 :: after := by
  induction l using List.reverseRecOn with
  | nil => cases hx
  | append_singleton l a ih =>
    rw [eachAfter_concat, List.mem_append, List.mem_singleton] at hx
    rcases hx with hx | rfl
    · obtain ⟨after, hafter⟩ := ih hx
      refine ⟨after ++ [a], ?_⟩
      rw [← List.cons_append, ← List.append_assoc, ← hafter]
    · exact ⟨[], rfl⟩

/-- Where what comes before makes no difference, it can be left out. -/
theorem flatMap_eachAfter {α β : Type} {l : List α} {f : List α × α → List β} {k : α → List β}
    (h : ∀ x ∈ eachAfter l, f x = k x.2) : (eachAfter l).flatMap f = l.flatMap k := by
  have hall : (eachAfter l).map (·.2) = l := by
    clear h
    induction l using List.reverseRecOn with
    | nil => rfl
    | append_singleton l a ih => rw [eachAfter_concat, List.map_append, ih, List.map_singleton]
  rw [List.flatMap_congr h, ← List.flatMap_map, hall]

/-- A declaration brings a constraint along by itself. -/
def Signature.Declares (s : Signature) : Constraint → Prop
  | .interopExposure => s.interop = true
  | .protocolRequirement => ∃ tag, s.protocol = some tag ∧ tag ≠ ""
  | .externalSinkDependency => False

theorem Signature.contains_constraints_iff (s : Signature) {k : Constraint} :
    s.constraints.contains k = true ↔ s.Declares k := by
  cases k with
  | interopExposure => exact Iff.rfl
  | protocolRequirement =>
    cases hprotocol : s.protocol <;>
      simp [constraints, ConstraintSet.contains, Declares, hprotocol]
  | externalSinkDependency => simp [constraints, ConstraintSet.contains, Declares]

/-- The entry that a definition gives rise to. -/
def SourceUnit.entryOf (u : SourceUnit) (f : ParsedFunction) : CatalogEntry :=
  ⟨f.signature, u.scanOf f⟩

/-- The functions that units define, each with its unit, in order. -/
def definitions (units : List SourceUnit) : List (SourceUnit × ParsedFunction) :=
  units.flatMap fun u => u.functions.map (u, ·)

/-- The first definition of a name. -/
def definition? (units : List SourceUnit) (name : String) : Option (SourceUnit × ParsedFunction) :=
  (definitions units).find? (·.2.signature.name = name)

/-- What is noted of a unit that did not parse. -/
def SourceUnit.parseFailures (u : SourceUnit) : List Failure :=
  u.parseError.toList.map fun error => .unitUnparsed u.path error

/-- What is noted of a function that cannot be scanned. -/
def SourceUnit.scanFailures (u : SourceUnit) (f : ParsedFunction) : List Failure :=
  (u.scanOf f).failure.toList.map
    fun reason => .bodyUnscannable f.signature.name reason f.signature.path

/-- What is noted of a unit and of its functions. -/
def SourceUnit.ownFailures (u : SourceUnit) : List Failure :=
  u.parseFailures ++ u.functions.flatMap u.scanFailures

/-- The signatures of all definitions, in order. -/
def signaturesOf (units : List SourceUnit) : List Signature :=
  units.flatMap fun u => u.functions.map (·.signature)

/-- What is noted of a definition after earlier ones: that its name is taken and nothing else, or why
the function cannot be scanned. -/
def SourceUnit.failuresAfter (u : SourceUnit) (earlier : List Signature) (f : ParsedFunction) :
    List Failure :=
  match earlier.find? (·.name = f.signature.name) with
  | some first => [.duplicateDefinition f.signature.name first.path first.line f.signature.path]
  | none => u.scanFailures f

/-- What is noted of units: first that a unit did not parse, then what there is to note of its
definitions. -/
def definitionFailures (units : List SourceUnit) : List Failure :=
  (eachAfter units).flatMap fun (before, u) =>
    u.parseFailures ++ (eachAfter u.functions).flatMap fun (earlier, f) =>
      u.failuresAfter (signaturesOf before ++ earlier.map (·.signature)) f

/-- Where all names are distinct, each unit is noted by itself. -/
theorem definitionFailures_of_distinct {units : List SourceUnit}
    (hdistinct : ((units.flatMap (·.functions)).map (·.signature.name)).Nodup) :
    definitionFailures units = units.flatMap SourceUnit.ownFailures := by
  have hown : ∀ x ∈ eachAfter units, ∀ y ∈ eachAfter x.2.functions,
      x.2.failuresAfter (signaturesOf x.1 ++ y.1.map (·.signature)) y.2 = x.2.scanFailures y.2 := by
    rintro ⟨before, u⟩ hu ⟨earlier, f⟩ hf
    obtain ⟨after, rfl⟩ := exists_of_mem_eachAfter hu
    obtain ⟨later, hlater⟩ := exists_of_mem_eachAfter hf
    have hbefore : signaturesOf before ++ earlier.map (·.signature)
        = (before.flatMap (·.functions) ++ earlier).map (·.signature) := by
      simp [signaturesOf, List.map_flatMap]
    have hapart : ((before.flatMap (·.functions) ++ earlier).map (·.signature.name)
        ++ (f :: (later ++ after.flatMap (·.functions))).map (·.signature.name)).Nodup := by
      simpa [show u.functions = earlier ++ f :: later from hlater] using hdistinct
    have hnew : (signaturesOf before ++ earlier.map (·.signature)).find? (·.name = f.signature.name)
        = none := by
      rw [hbefore, List.find?_eq_none]
      intro s hs
      obtain ⟨f', hf', rfl⟩ := List.mem_map.1 hs
      simpa using (List.nodup_append.1 hapart).2.2 _ (List.mem_map_of_mem hf') _ List.mem_cons_self
    simp only [SourceUnit.failuresAfter, hnew]
  refine flatMap_eachAfter fun x hx => ?_
  exact congrArg (x.2.parseFailures ++ ·) (flatMap_eachAfter (hown x hx))

/-- Some unit defines a function of this name. -/
def Defined (units : List SourceUnit) (name : String) : Prop :=
  ∃ u ∈ units, ∃ f ∈ u.functions, f.signature.name = name

instance (units : List SourceUnit) (name : String) : Decidable (Defined units name) :=
  inferInstanceAs (Decidable (∃ u ∈ units, ∃ f ∈ u.functions, f.signature.name = name))

namespace Catalog

variable {c : Catalog} {name : String} {e : CatalogEntry} {units : List SourceUnit}
  {sigs : List Signature}

theorem name_of_get? (h : c.get? name = some e) : e.name = name := by
  simpa using List.find?_some h

/-- A name that is present keeps its entry. -/
theorem get?_add (c : Catalog) (s : Signature) (scan : ScanReport) (name : String) :
    (c.add s scan).1.get? name = (c.get? name).or (if s.name = name then some ⟨s, scan⟩ else none) := by
  have hnew : ({ c with entries := c.entries ++ [⟨s, scan⟩] } : Catalog).get? name
      = (c.get? name).or (if s.name = name then some ⟨s, scan⟩ else none) := by
    simp only [get?, List.find?_append]
    by_cases hname : s.name = name <;> simp [CatalogEntry.name, hname]
  unfold add
  split
  · next first hfirst =>
    show c.get? name = _
    split
    · next hname =>
      rw [← hname, hfirst]
      rfl
    · rw [Option.or_none]
  · dsimp only
    split
    · exact hnew
    · exact hnew

theorem entries_noteUnit (c : Catalog) (u : SourceUnit) : (c.noteUnit u).entries = c.entries := by
  unfold noteUnit
  split <;> rfl

theorem get?_noteUnit (c : Catalog) (u : SourceUnit) : (c.noteUnit u).get? name = c.get? name := by
  rw [get?, entries_noteUnit, get?]

/-- Enters definitions of a unit, each scanned. -/
def addDefinitions (c : Catalog) (u : SourceUnit) (fs : List ParsedFunction) : Catalog :=
  fs.foldl (fun c f => (c.add f.signature (u.scanOf f)).1) c

/-- Enters a unit. -/
def addUnit (c : Catalog) (u : SourceUnit) : Catalog := (c.noteUnit u).addDefinitions u u.functions

theorem addDefinitions_cons (c : Catalog) (u : SourceUnit) (f : ParsedFunction)
    (fs : List ParsedFunction) : c.addDefinitions u (f :: fs)
      = (c.add f.signature (u.scanOf f)).1.addDefinitions u fs := rfl

theorem ofUnits_eq_foldl (units : List SourceUnit) : ofUnits units = units.foldl addUnit {} := rfl

theorem get?_addDefinitions (u : SourceUnit) (fs : List ParsedFunction) (c : Catalog) :
    (c.addDefinitions u fs).get? name
      = (c.get? name).or ((fs.map u.entryOf).find? (·.name = name)) := by
  induction fs generalizing c with
  | nil => simp [addDefinitions]
  | cons f fs ih =>
    rw [addDefinitions_cons, ih, get?_add, List.map_cons, List.find?_cons, Option.or_assoc]
    congr 1
    by_cases hname : f.signature.name = name <;> simp [SourceUnit.entryOf, CatalogEntry.name, hname]

theorem get?_addUnits (units : List SourceUnit) (c : Catalog) :
    (units.foldl addUnit c).get? name
      = (c.get? name).or ((units.flatMap fun u => u.functions.map u.entryOf).find? (·.name = name)) := by
  induction units generalizing c with
  | nil => simp
  | cons u us ih =>
    rw [List.foldl_cons, ih, addUnit, get?_addDefinitions, get?_noteUnit, List.flatMap_cons,
      List.find?_append, Option.or_assoc]

/-- The catalogue holds what is defined. -/
theorem get?_ofUnits_eq_find? (units : List SourceUnit) (name : String) :
    (ofUnits units).get? name
      = (units.flatMap fun u => u.functions.map u.entryOf).find? (·.name = name) := by
  rw [ofUnits_eq_foldl, get?_addUnits]
  rfl

/-- The first definition of a name counts. -/
theorem get?_ofUnits (units : List SourceUnit) (name : String) :
    (ofUnits units).get? name = (definition? units name).map fun d => d.1.entryOf d.2 := by
  have hflat : (units.flatMap fun u => u.functions.map u.entryOf)
      = (definitions units).map fun d => d.1.entryOf d.2 := by
    simp [definitions, List.map_flatMap, Function.comp_def]
  rw [get?_ofUnits_eq_find?, hflat, List.find?_map]
  rfl

/-- An entry is that of a definition in some unit. -/
theorem exists_of_get?_ofUnits (h : (ofUnits units).get? name = some e) :
    ∃ u ∈ units, ∃ f ∈ u.functions, f.signature.name = name ∧ e = u.entryOf f := by
  have hname : e.name = name := name_of_get? h
  rw [get?_ofUnits_eq_find?] at h
  obtain ⟨u, hu, he⟩ := List.mem_flatMap.1 (List.mem_of_find?_eq_some h)
  obtain ⟨f, hf, rfl⟩ := List.mem_map.1 he
  exact ⟨u, hu, f, hf, hname, rfl⟩

theorem contains_ofUnits : (ofUnits units).contains name = true ↔ Defined units name := by
  rw [contains, get?_ofUnits_eq_find?, List.find?_isSome]
  simp only [List.mem_flatMap, List.mem_map, decide_eq_true_eq, Defined]
  constructor
  · rintro ⟨_, ⟨u, hu, f, hf, rfl⟩, hname⟩
    exact ⟨u, hu, f, hf, hname⟩
  · rintro ⟨u, hu, f, hf, hname⟩
    exact ⟨_, ⟨u, hu, f, hf, rfl⟩, hname⟩

theorem failures_add (c : Catalog) (s : Signature) (scan : ScanReport) (h : c.get? s.name = none) :
    (c.add s scan).1.failures
      = c.failures ++ scan.failure.toList.map fun reason => .bodyUnscannable s.name reason s.path := by
  unfold add
  rw [h]
  dsimp only
  split
  · next reason hreason =>
    rw [hreason]
    rfl
  · next hreason => simp [hreason]

theorem failures_noteUnit (c : Catalog) (u : SourceUnit) :
    (c.noteUnit u).failures = c.failures ++ u.parseFailures := by
  unfold noteUnit SourceUnit.parseFailures
  split
  · next error herror =>
    rw [herror]
    rfl
  · next herror => simp [herror]

/-- A catalogue holds signatures, of each name the first. -/
def Holds (c : Catalog) (sigs : List Signature) : Prop :=
  ∀ name, (c.get? name).map (·.signature) = sigs.find? (·.name = name)

theorem holds_add (hc : c.Holds sigs) (s : Signature) (scan : ScanReport) :
    (c.add s scan).1.Holds (sigs ++ [s]) := by
  intro name
  rw [get?_add, List.find?_append, ← hc name]
  by_cases hname : s.name = name <;> cases c.get? name <;> simp [hname]

theorem holds_noteUnit (hc : c.Holds sigs) (u : SourceUnit) : (c.noteUnit u).Holds sigs := by
  intro name
  rw [get?_noteUnit]
  exact hc name

/-- A definition is noted if its name is taken or it cannot be scanned. -/
theorem failures_add_of_holds (hc : c.Holds sigs) (u : SourceUnit) (f : ParsedFunction) :
    (c.add f.signature (u.scanOf f)).1.failures = c.failures ++ u.failuresAfter sigs f := by
  have hfirst := hc f.signature.name
  unfold SourceUnit.failuresAfter
  rw [← hfirst]
  cases hget : c.get? f.signature.name with
  | none => exact failures_add c _ _ hget
  | some first => simp [add, hget, fail]

theorem addDefinitions_spec (hc : c.Holds sigs) (u : SourceUnit) (fs : List ParsedFunction) :
    (c.addDefinitions u fs).Holds (sigs ++ fs.map (·.signature)) ∧
      (c.addDefinitions u fs).failures = c.failures ++ (eachAfter fs).flatMap fun (earlier, f) =>
        u.failuresAfter (sigs ++ earlier.map (·.signature)) f := by
  induction fs using List.reverseRecOn with
  | nil => simpa [addDefinitions, eachAfter] using hc
  | append_singleton fs f ih =>
    obtain ⟨hholds, hfailures⟩ := ih
    have hlast : c.addDefinitions u (fs ++ [f])
        = ((c.addDefinitions u fs).add f.signature (u.scanOf f)).1 := by
      simp [addDefinitions]
    rw [hlast, eachAfter_concat]
    constructor
    · simpa using holds_add hholds f.signature (u.scanOf f)
    · rw [failures_add_of_holds hholds, hfailures]
      simp

theorem ofUnits_spec (units : List SourceUnit) :
    (ofUnits units).Holds (signaturesOf units) ∧
      (ofUnits units).failures = definitionFailures units := by
  rw [ofUnits_eq_foldl]
  induction units using List.reverseRecOn with
  | nil => exact ⟨fun _ => rfl, rfl⟩
  | append_singleton us u ih =>
    obtain ⟨hholds, hfailures⟩ := ih
    obtain ⟨hholds', hfailures'⟩ := addDefinitions_spec (holds_noteUnit hholds u) u u.functions
    rw [List.foldl_append, List.foldl_cons, List.foldl_nil, addUnit]
    constructor
    · simpa [signaturesOf] using hholds'
    · rw [hfailures', failures_noteUnit, hfailures]
      simp [definitionFailures, eachAfter_concat]

/-- The signature of a name is that of its first definition. -/
theorem holds_ofUnits (units : List SourceUnit) : (ofUnits units).Holds (signaturesOf units) :=
  (ofUnits_spec units).1

/-- The failures of the catalogue are those noted of units. -/
theorem failures_ofUnits (units : List SourceUnit) :
    (ofUnits units).failures = definitionFailures units := (ofUnits_spec units).2

end Catalog

/-! ## Call sites -/

namespace Catalog

/-- Where a call leads: to the function that it names, or else out of the catalogued code. -/
def target (c : Catalog) (s : CallSite) : Node :=
  match s.callee.filter c.contains with
  | some callee => .function callee
  | none => .sink s.sinkName

/-- The edge that a call site gives rise to. -/
def edge (c : Catalog) (s : CallSite) : CallEdge :=
  ⟨s.caller, c.target s, !(c.target s).isSink, s.line, s.target⟩

/-- The edges of call sites whose callers are catalogued. -/
def accepted (c : Catalog) (sites : List CallSite) : List CallEdge :=
  (sites.filter fun s => c.contains s.caller).map c.edge

/-- The failures of call sites whose callers are not catalogued. -/
def refused (c : Catalog) (sites : List CallSite) : List Failure :=
  (sites.filter fun s => !c.contains s.caller).map fun s => .unknownCaller s.caller s.sinkName s.line

/-- A call leads to a function if it names that function and the function is catalogued. -/
theorem target_eq_function_iff {c : Catalog} {s : CallSite} {name : String} :
    c.target s = .function name ↔ s.callee = some name ∧ c.contains name = true := by
  rw [← Option.filter_eq_some_iff]
  unfold target
  split
  · next callee hcallee => simp [hcallee]
  · next hcallee => simp [hcallee]

theorem accepted_append (c : Catalog) (ss ts : List CallSite) :
    c.accepted (ss ++ ts) = c.accepted ss ++ c.accepted ts := by
  simp [accepted]

/-- What calls lead to hangs only on which of the names in them are catalogued. -/
theorem accepted_congr {c c' : Catalog} {sites : List CallSite}
    (hcaller : ∀ s ∈ sites, c.contains s.caller = c'.contains s.caller)
    (hcallee : ∀ s ∈ sites, ∀ callee, s.callee = some callee → c.contains callee = c'.contains callee) :
    c.accepted sites = c'.accepted sites := by
  unfold accepted
  rw [List.filter_congr hcaller]
  apply List.map_congr_left
  intro s hs
  have hs : s ∈ sites := (List.mem_filter.1 hs).1
  have htarget : s.callee.filter c.contains = s.callee.filter c'.contains := by
    cases h : s.callee with
    | none => rfl
    | some callee => simp only [Option.filter, hcallee s hs callee h]
  unfold edge target
  rw [htarget]

theorem accepted_flatMap (c : Catalog) (units : List SourceUnit) :
    c.accepted (units.flatMap (·.callSites)) = units.flatMap fun u => c.accepted u.callSites := by
  induction units with
  | nil => rfl
  | cons u us ih => rw [List.flatMap_cons, List.flatMap_cons, accepted_append, ih]

theorem refused_append (c : Catalog) (ss ts : List CallSite) :
    c.refused (ss ++ ts) = c.refused ss ++ c.refused ts := by
  simp [refused]

end Catalog

namespace CallGraph

variable {g : CallGraph}

@[simp] theorem catalog_addCall (g : CallGraph) (s : CallSite) : (g.addCall s).1.catalog = g.catalog := by
  unfold addCall
  split
  · split <;> rfl
  · rfl

@[simp] theorem catalog_addCalls (g : CallGraph) (sites : List CallSite) :
    (g.addCalls sites).catalog = g.catalog := by
  unfold addCalls
  induction sites generalizing g with
  | nil => rfl
  | cons s sites ih => rw [List.foldl_cons, ih, catalog_addCall]

theorem outEdges_addEdge (g : CallGraph) (e : CallEdge) (name : String) :
    (g.addEdge e).outEdges (.function name)
      = g.outEdges (.function name) ++ if e.caller = name then [e] else [] := by
  simp only [outEdges, addEdge, Table.get?_insert]
  split
  · next h => simp [h]
  · simp

/-- What one call site leaves in a graph. -/
theorem addCall_spec (g : CallGraph) (s : CallSite) (name : String) :
    (g.addCall s).1.outEdges (.function name)
        = g.outEdges (.function name) ++ (g.catalog.accepted [s]).filter (·.caller = name) ∧
      (g.addCall s).1.incomingCalls (.function name)
        = g.incomingCalls (.function name)
          + (g.catalog.accepted [s]).countP (·.callee = .function name) ∧
      (g.addCall s).1.failures = g.failures ++ g.catalog.refused [s] := by
  unfold addCall
  split
  · next hcaller =>
    have haccepted : g.catalog.accepted [s] = [g.catalog.edge s] := by simp [Catalog.accepted, hcaller]
    have hrefused : g.catalog.refused [s] = [] := by simp [Catalog.refused, hcaller]
    rw [haccepted, hrefused]
    split
    · next callee hcallee =>
      have hedge : g.catalog.edge s = ⟨s.caller, .function callee, true, s.line, s.target⟩ := by
        simp [Catalog.edge, Catalog.target, hcallee, Node.isSink]
      rw [hedge]
      refine ⟨?_, ?_, (List.append_nil _).symm⟩
      · refine (outEdges_addEdge g _ name).trans ?_
        simp [List.filter_singleton]
      · simp only [incomingCalls, Table.get?_insert, List.countP_singleton]
        by_cases hname : callee = name <;> simp [hname]
    · next hcallee =>
      have hedge : g.catalog.edge s = ⟨s.caller, .sink s.sinkName, false, s.line, s.target⟩ := by
        simp [Catalog.edge, Catalog.target, hcallee, Node.isSink]
      rw [hedge]
      refine ⟨?_, ?_, (List.append_nil _).symm⟩
      · refine (outEdges_addEdge g _ name).trans ?_
        simp [List.filter_singleton]
      · simp [incomingCalls, addEdge]
  · next hcaller =>
    have haccepted : g.catalog.accepted [s] = [] := by simp [Catalog.accepted, hcaller]
    have hrefused : g.catalog.refused [s] = [.unknownCaller s.caller s.sinkName s.line] := by
      simp [Catalog.refused, hcaller]
    rw [haccepted, hrefused]
    exact ⟨(List.append_nil _).symm, rfl, rfl⟩

/-- What call sites leave in a graph. -/
theorem addCalls_spec (g : CallGraph) (sites : List CallSite) (name : String) :
    (g.addCalls sites).outEdges (.function name)
        = g.outEdges (.function name) ++ (g.catalog.accepted sites).filter (·.caller = name) ∧
      (g.addCalls sites).incomingCalls (.function name)
        = g.incomingCalls (.function name)
          + (g.catalog.accepted sites).countP (·.callee = .function name) ∧
      (g.addCalls sites).failures = g.failures ++ g.catalog.refused sites := by
  induction sites generalizing g with
  | nil => simp [addCalls, Catalog.accepted, Catalog.refused]
  | cons s sites ih =>
    obtain ⟨hout, hin, hfail⟩ := addCall_spec g s name
    obtain ⟨hout', hin', hfail'⟩ := ih (g.addCall s).1
    rw [catalog_addCall] at hout' hin' hfail'
    show ((g.addCall s).1.addCalls sites).outEdges _ = _ ∧
      ((g.addCall s).1.addCalls sites).incomingCalls _ = _ ∧
        ((g.addCall s).1.addCalls sites).failures = _
    have haccepted := Catalog.accepted_append g.catalog [s] sites
    have hrefused := Catalog.refused_append g.catalog [s] sites
    rw [List.singleton_append] at haccepted hrefused
    rw [hout', hin', hfail', hout, hin, hfail, haccepted, hrefused]
    simp [List.append_assoc, Nat.add_assoc]

/-- A node calls another if a call site says so whose caller is catalogued. -/
theorem calls_addCalls_iff {catalog : Catalog} {sites : List CallSite} {a b : Node} :
    (CallGraph.addCalls { catalog } sites).Calls a b ↔
      ∃ s ∈ sites, catalog.contains s.caller = true ∧ a = .function s.caller ∧ b = catalog.target s := by
  cases a with
  | sink name => simp [Calls]
  | function name =>
    obtain ⟨hout, -, -⟩ := addCalls_spec { catalog } sites name
    have hnone : ({ catalog } : CallGraph).outEdges (.function name) = [] := rfl
    rw [hnone, List.nil_append] at hout
    rw [Calls, mem_successors, hout]
    simp only [Catalog.accepted, List.mem_filter, List.mem_map, decide_eq_true_eq, Node.function.injEq]
    constructor
    · rintro ⟨_, ⟨⟨s, ⟨hs, hcaller⟩, rfl⟩, hname⟩, rfl⟩
      exact ⟨s, hs, hcaller, hname.symm, rfl⟩
    · rintro ⟨s, hs, hcaller, hname, rfl⟩
      exact ⟨_, ⟨⟨s, ⟨hs, hcaller⟩, rfl⟩, hname.symm⟩, rfl⟩

end CallGraph

/-! ## Calls between units -/

/-- A call site of a unit says that a defined function calls a function or a sink: the function that
the site names if some unit defines it, and else the sink known by the name or text of the call. -/
inductive Invokes (units : List SourceUnit) : Node → Node → Prop
  | function {u : SourceUnit} {s : CallSite} {callee : String} (hu : u ∈ units)
      (hs : s ∈ u.callSites) (hcaller : Defined units s.caller) (hcallee : s.callee = some callee)
      (hdefined : Defined units callee) : Invokes units (.function s.caller) (.function callee)
  | sink {u : SourceUnit} {s : CallSite} (hu : u ∈ units) (hs : s ∈ u.callSites)
      (hcaller : Defined units s.caller)
      (hundefined : ∀ callee, s.callee = some callee → ¬ Defined units callee) :
      Invokes units (.function s.caller) (.sink s.sinkName)

namespace CallGraph

variable {units : List SourceUnit} {a b : Node}

/-- The call graph of units over their own catalogue. -/
def ofUnits (units : List SourceUnit) : CallGraph := build (Catalog.ofUnits units) units

@[simp] theorem catalog_ofUnits (units : List SourceUnit) :
    (ofUnits units).catalog = Catalog.ofUnits units := catalog_addCalls _ _

/-- What the call sites of units leave in their graph. -/
theorem ofUnits_spec (units : List SourceUnit) (name : String) :
    (ofUnits units).outEdges (.function name)
        = ((Catalog.ofUnits units).accepted (units.flatMap (·.callSites))).filter (·.caller = name) ∧
      (ofUnits units).incomingCalls (.function name)
        = ((Catalog.ofUnits units).accepted (units.flatMap (·.callSites))).countP
          (·.callee = .function name) ∧
      (ofUnits units).failures = (Catalog.ofUnits units).refused (units.flatMap (·.callSites)) := by
  obtain ⟨hout, hin, hfail⟩ :=
    addCalls_spec { catalog := Catalog.ofUnits units } (units.flatMap (·.callSites)) name
  exact ⟨hout, hin.trans (Nat.zero_add _), hfail⟩

theorem entry?_ofUnits_eq_get? (units : List SourceUnit) (name : String) :
    CallGraph.entry? (ofUnits units) (.function name) = (Catalog.ofUnits units).get? name := by
  rw [← catalog_ofUnits]
  rfl

theorem entry?_ofUnits (units : List SourceUnit) (name : String) :
    CallGraph.entry? (ofUnits units) (.function name)
      = (definition? units name).map fun d => d.1.entryOf d.2 := by
  rw [entry?_ofUnits_eq_get?, Catalog.get?_ofUnits]

theorem contains_catalog_iff {name : String} :
    (ofUnits units).catalog.contains name = true ↔ Defined units name := by
  rw [catalog_ofUnits, Catalog.contains_ofUnits]

theorem defined_of_entry? {name : String} {e : CatalogEntry}
    (h : CallGraph.entry? (ofUnits units) (.function name) = some e) : Defined units name :=
  contains_catalog_iff.1 (Option.isSome_iff_exists.2 ⟨e, h⟩)

/-- The graph of units has the calls that their call sites make. -/
theorem calls_ofUnits_iff : (ofUnits units).Calls a b ↔ Invokes units a b := by
  unfold ofUnits build
  rw [calls_addCalls_iff]
  constructor
  · rintro ⟨s, hs, hcaller, rfl, rfl⟩
    obtain ⟨u, hu, hs⟩ := List.mem_flatMap.1 hs
    have hcaller := Catalog.contains_ofUnits.1 hcaller
    unfold Catalog.target
    split
    · next callee hcallee =>
      obtain ⟨hcallee, hdefined⟩ := Option.filter_eq_some_iff.1 hcallee
      exact .function hu hs hcaller hcallee (Catalog.contains_ofUnits.1 hdefined)
    · next hcallee =>
      refine .sink hu hs hcaller fun callee hs' hdefined => ?_
      have hno := Option.filter_eq_none_iff.1 hcallee callee hs'
      exact hno (Catalog.contains_ofUnits.2 hdefined)
  · intro h
    cases h with
    | @function u s callee hu hs hcaller hcallee hdefined =>
      refine ⟨s, List.mem_flatMap.2 ⟨u, hu, hs⟩, Catalog.contains_ofUnits.2 hcaller, rfl, ?_⟩
      have hin := Catalog.contains_ofUnits.2 hdefined
      simp [Catalog.target, hcallee, Option.filter, hin]
    | @sink u s hu hs hcaller hundefined =>
      refine ⟨s, List.mem_flatMap.2 ⟨u, hu, hs⟩, Catalog.contains_ofUnits.2 hcaller, rfl, ?_⟩
      have hnone : s.callee.filter (Catalog.ofUnits units).contains = none := by
        refine Option.filter_eq_none_iff.2 fun callee hcallee hin => ?_
        exact hundefined callee hcallee (Catalog.contains_ofUnits.1 hin)
      simp [Catalog.target, hnone]

theorem calls_ofUnits (units : List SourceUnit) : (ofUnits units).Calls = Invokes units :=
  funext fun _ => funext fun _ => propext calls_ofUnits_iff

end CallGraph
end AsyncMigration
