import AsyncMigration.Proofs.Cataloguing

/-!
# When a session can be started

A session is started in three stages: all units are scanned, then catalogued, then linked. Each stage puts
in words what it finds wrong, and ends where an integer is too long for that. What the stages have to print
is gathered here. A session is started if all of it can be printed, and then it is the one that would be
started if integers of any length could be printed.

* `CallGraph.tryBuild_eq` — what linking units has to print.
* `Session.tryStart_eq` — what starting a session has to print.
* `Session.tryAnalyze_eq` — an analysis of units, told from what would be found if all could be printed.
-/

namespace AsyncMigration

/-! ## Links -/

namespace CallGraph

/-- The lines of call sites are told whose callers are not catalogued. -/
theorem tryAddCalls_eq (g : CallGraph) (sites : List CallSite) :
    g.tryAddCalls sites
      = Numeral.printing ((g.catalog.refused sites).flatMap Failure.printed) (g.addCalls sites) := by
  induction sites generalizing g with
  | nil => rfl
  | cons s sites ih =>
    have hfirst : g.catalog.refused (s :: sites)
        = (g.dropped? s).toList ++ g.catalog.refused sites := by
      unfold dropped? Catalog.refused
      cases hcaller : g.catalog.contains s.caller <;> simp [hcaller]
    let told := (g.dropped? s).toList.flatMap Failure.printed
    calc g.tryAddCalls (s :: sites)
        = Numeral.printing told (g.addCall s).1 >>= fun g' => g'.tryAddCalls sites := by
          rw [tryAddCalls, List.foldlM_cons, tryAddCall, Numeral.map_printing]
          rfl
      _ = Numeral.printing told (g.addCall s).1 >>= fun g' =>
            Numeral.printing ((g'.catalog.refused sites).flatMap Failure.printed)
              (g'.addCalls sites) := by
          simp only [ih]
      _ = Numeral.printing (told ++ ((g.addCall s).1.catalog.refused sites).flatMap Failure.printed)
            ((g.addCall s).1.addCalls sites) := Numeral.printing_bind ..
      _ = Numeral.printing ((g.catalog.refused (s :: sites)).flatMap Failure.printed)
            (g.addCalls (s :: sites)) := by
          rw [catalog_addCall, hfirst, List.flatMap_append]
          rfl

theorem tryBuild_eq (units : List SourceUnit) :
    tryBuild (Catalog.ofUnits units) units
      = Numeral.printing ((ofUnits units).failures.flatMap Failure.printed) (ofUnits units) := by
  rw [(ofUnits_spec units "").2.2]
  exact tryAddCalls_eq _ _

/-- A line that a failure of the graph has to print is that of a call site. -/
theorem exists_of_mem_failures_ofUnits {units : List SourceUnit} {failure : Failure} {i : Int}
    (h : failure ∈ (ofUnits units).failures) (hi : i ∈ failure.printed) :
    ∃ u ∈ units, ∃ s ∈ u.callSites, s.line = i := by
  rw [(ofUnits_spec units "").2.2] at h
  obtain ⟨s, hs, rfl⟩ := List.mem_map.1 h
  obtain ⟨u, hu, hs⟩ := List.mem_flatMap.1 (List.mem_of_mem_filter hs)
  exact ⟨u, hu, s, hs, (List.mem_singleton.1 hi).symm⟩

end CallGraph

/-! ## Sessions -/

namespace Session

/-- What has to be printed to start a session over units: the first faults of all bodies that are
scanned, then the failures of the catalogue and of the graph. -/
def printed (units : List SourceUnit) : List Int :=
  units.flatMap (fun u => u.functions.flatMap u.printedOf)
    ++ ((Catalog.ofUnits units).failures ++ (CallGraph.ofUnits units).failures).flatMap Failure.printed

/-- Something that is said when a session over units is started cannot be printed: the first fault of a
body that is scanned, or a failure that is noted of the catalogue or the graph. -/
inductive Unprintable (units : List SourceUnit) : Prop
  | body {u : SourceUnit} {f : ParsedFunction} {fault : BodyFault} {i : Int} (hu : u ∈ units)
      (hparsed : u.parseError = none) (hf : f ∈ u.functions) (hfault : scanFunction f = .error fault)
      (hi : i ∈ fault.printed) (hlong : Numeral.TooLong i)
  | failure {failure : Failure} {i : Int}
      (hfailure : failure ∈ (Catalog.ofUnits units).failures ++ (CallGraph.ofUnits units).failures)
      (hi : i ∈ failure.printed) (hlong : Numeral.TooLong i)

theorem unprintable_iff {units : List SourceUnit} :
    Unprintable units ↔ ∃ i ∈ printed units, Numeral.TooLong i := by
  constructor
  · intro h
    cases h with
    | body hu hparsed hf hfault hi hlong =>
      exact ⟨_, List.mem_append_left _ (List.mem_flatMap.2 ⟨_, hu, List.mem_flatMap.2
        ⟨_, hf, SourceUnit.mem_printedOf_iff.2 ⟨hparsed, _, hfault, hi⟩⟩⟩), hlong⟩
    | failure hfailure hi hlong =>
      exact ⟨_, List.mem_append_right _ (List.mem_flatMap.2 ⟨_, hfailure, hi⟩), hlong⟩
  · rintro ⟨i, hi, hlong⟩
    rcases List.mem_append.1 hi with hi | hi
    · obtain ⟨u, hu, hi⟩ := List.mem_flatMap.1 hi
      obtain ⟨f, hf, hi⟩ := List.mem_flatMap.1 hi
      obtain ⟨hparsed, fault, hfault, hi⟩ := SourceUnit.mem_printedOf_iff.1 hi
      exact .body hu hparsed hf hfault hi hlong
    · obtain ⟨failure, hfailure, hi⟩ := List.mem_flatMap.1 hi
      exact .failure hfailure hi hlong

theorem not_unprintable_iff {units : List SourceUnit} :
    ¬ Unprintable units ↔ (printed units).all Numeral.printable = true := by
  rw [unprintable_iff, Numeral.all_printable_iff]
  simp

/-- A session is started if everything that is said on the way can be printed. -/
theorem tryStart_eq (units : List SourceUnit) (st : Settings) :
    tryStart units st = (Numeral.printing (printed units) (start units st)).mapError .ofPrintFault := by
  have hscan : units.mapM SourceUnit.tryScan
      = Numeral.printing (units.flatMap fun u => u.functions.flatMap u.printedOf)
          (units.map SourceUnit.scan) := by
    rw [funext SourceUnit.tryScan_eq, Numeral.mapM_printing]
  have hcatalog : (Catalog.tryBuild units (units.map SourceUnit.scan)).mapError AnalysisError.notBuilt
      = (Numeral.printing ((Catalog.ofUnits units).failures.flatMap Failure.printed)
          (Catalog.ofUnits units)).mapError AnalysisError.ofPrintFault := by
    rw [Catalog.tryBuild_scan]
    unfold Numeral.printing
    split <;> rfl
  -- a stage goes on to the next one only if what it has to print can be printed
  rw [tryStart, hscan, Numeral.mapError_printing_bind, hcatalog, Numeral.mapError_printing_bind,
    CallGraph.tryBuild_eq, Numeral.mapError_printing_bind, printed, List.flatMap_append]
  simp only [Numeral.printing, List.all_append]
  cases (units.flatMap fun u => u.functions.flatMap u.printedOf).all Numeral.printable with
  | false => rfl
  | true =>
    cases ((Catalog.ofUnits units).failures.flatMap Failure.printed).all Numeral.printable with
    | false => rfl
    | true =>
      cases ((CallGraph.ofUnits units).failures.flatMap Failure.printed).all Numeral.printable <;> rfl

/-- There is an analysis if everything that is said when its session is started can be printed. -/
theorem tryAnalyze_eq (units : List SourceUnit) (roots : List String) (st : Settings) :
    tryAnalyze units roots st
      = if roots.isEmpty || (printed units).all Numeral.printable
        then (AsyncMigration.analyze units roots st).1
        else .error (.ofPrintFault .tooLong) := by
  unfold tryAnalyze AsyncMigration.analyze
  cases roots.isEmpty with
  | true => rfl
  | false =>
    rw [tryStart_eq, Numeral.mapError_printing_bind]
    rfl

/-- A result is the one that there would be if integers of any length could be printed. -/
theorem analyze_of_tryAnalyze {units : List SourceUnit} {roots : List String} {st : Settings}
    {r : Result} (h : tryAnalyze units roots st = .ok r) :
    (AsyncMigration.analyze units roots st).1 = .ok r := by
  rw [tryAnalyze_eq] at h
  split at h
  · exact h
  · cases h

end Session
end AsyncMigration
