import AsyncMigration.Proofs.Building
import AsyncMigration.Proofs.Growth
import AsyncMigration.Proofs.Range
import AsyncMigration.Proofs.Scans
import Mathlib.Data.List.Induction

/-!
# Every analysis has an answer

Each step that could fail is shown to succeed. What a search looks up is there, since the innermost
node lies on the stack and a component closes only after all that it calls. What is scanned without
a fault holds no stray value. What a walk visits is aggregated, and a report is asked for only where
there is a catalogue entry. Only the printing of a number is left, and the conversion of one.

* `Search.Sound.unfailing` — no look-up of a run fails.
* `CallGraph.resultOf_found` — there is a result unless a number is out of range.
* `Session.analyze_total` — so for the analysis of any units from any roots, if its numbers can be printed.
-/

namespace AsyncMigration

/-! ## Look-ups of the search -/

namespace Search

variable {g : CallGraph} {s : Search g} {f : Frame g} {fs : List (Frame g)} {n : Node}

/-- What a step looks up is there: the numbers of the innermost node and the lowlink of its caller,
the node on the stack, and, where a component closes, what is known of the calls out of it. -/
structure Finds (s : Search g) (f : Frame g) (fs : List (Frame g)) : Prop where
  index : s.memo.index.contains f.node = true
  lowlink : s.memo.lowlink.contains f.node = true
  caller : ∀ p ps, fs = p :: ps → s.memo.lowlink.contains p.node = true
  onStack : f.node ∈ s.stack
  outside : f.pending = [] → s.memo.lowlink.get? f.node = s.memo.index.get? f.node →
    ∀ n ∈ (splitBelow f.node s.stack).1, ∀ c ∈ g.successors n,
      c ∉ (splitBelow f.node s.stack).1 → s.memo.aggregates.contains c = true

/-- A run none of whose look-ups fails. -/
inductive Unfailing : Search g → Prop
  | done {s : Search g} (hs : s.frames = []) : Unfailing s
  | step {s : Search g} {f : Frame g} {fs : List (Frame g)} (hs : s.frames = f :: fs)
      (hfinds : s.Finds f fs) (hrest : Unfailing (s.step f fs)) : Unfailing s

theorem Sound.finds (h : s.Sound) (hs : s.frames = f :: fs) : s.Finds f fs := by
  have hmem := top_mem_stack h hs
  have hindex := h.stacked.index_get? hmem
  have hlowlink := h.stacked.lowlink_get? hmem
  refine ⟨by simp [Table.contains, hindex], by simp [Table.contains, hlowlink], ?_, hmem, ?_⟩
  · rintro p ps rfl
    have hp : p.node ∈ s.path := by simp [path_cons hs]
    simp [Table.contains, h.stacked.lowlink_get? (h.stacked.path_mem _ hp)]
  · intro hf heq n hn c hc hout
    rw [hindex, hlowlink] at heq
    exact ((h.closable hs hf (Option.some.inj heq)).covered n hn c hc).resolve_left hout

theorem Sound.unfailing (h : s.Sound) : s.Unfailing := by
  induction s using Search.run.induct with
  | case1 s hs => exact .done hs
  | case2 s f fs hs ih =>
    have hstep := step_spec (P := fun _ => True) (fun _ _ _ _ => trivial) h hs trivial
    exact .step hs (h.finds hs) (ih hstep.1)

end Search

namespace Memo

/-- What is known after requests for aggregates. -/
def requested (g : CallGraph) (asked : List Node) : Memo :=
  asked.foldl (fun m n => (m.ensure g n).1) {}

theorem requested_concat (g : CallGraph) (asked : List Node) (n : Node) :
    requested g (asked ++ [n]) = ((requested g asked).ensure g n).1 := by
  simp [requested]

theorem settled_requested (g : CallGraph) (asked : List Node) : (requested g asked).Settled := by
  induction asked using List.reverseRecOn with
  | nil => exact settled_empty
  | append_singleton asked n ih =>
    rw [requested_concat]
    exact (ensure_spec (P := fun _ => True) (fun _ _ _ _ => trivial) ih trivial).1

end Memo

/-! ## Bodies -/

/-- The closures of a body that is scanned can be counted. -/
theorem SourceUnit.exists_closureDepthOf {u : SourceUnit} {f : ParsedFunction}
    (h : (u.scanOf f).failure = none) : ∃ d, closureDepthOf f.body = .ok d := by
  rw [scanOf_failure_iff] at h
  cases hbody : f.body with
  | none => exact absurd (Or.inr (Or.inl hbody)) h
  | some body =>
    have hsound : firstFault? body = none := (firstFault?_eq_none_iff body).2 fun x hx hmal =>
      h (Or.inr (Or.inr ⟨body, hbody, x, hx, hmal⟩))
    exact ⟨closureDepth body, closureDepthOf_of_sound hsound⟩

/-! ## Answers -/

/-- There is an answer, unless a number is out of range; then something holds. -/
def FoundUnless {α : Type} (why : Prop) (x : Except AnalysisError α) : Prop :=
  (∃ a, x = .ok a) ∨ (x = .error .outOfRange ∧ why)

namespace FoundUnless

variable {α β : Type} {why : Prop} {x : Except AnalysisError α}

theorem pure (a : α) : FoundUnless why (pure a : Except AnalysisError α) := Or.inl ⟨a, rfl⟩

theorem imp {why' : Prop} (h : FoundUnless why x) (hwhy : why → why') : FoundUnless why' x :=
  Or.imp_right (fun ⟨hx, hw⟩ => ⟨hx, hwhy hw⟩) h

theorem bind {f : α → Except AnalysisError β} (hx : FoundUnless why x)
    (hf : ∀ a, FoundUnless why (f a)) : FoundUnless why (x >>= f) := by
  rcases hx with ⟨a, rfl⟩ | ⟨rfl, hwhy⟩
  · exact hf a
  · exact Or.inr ⟨rfl, hwhy⟩

theorem mapM {f : α → Except AnalysisError β} (l : List α) (h : ∀ a ∈ l, FoundUnless why (f a)) :
    FoundUnless why (l.mapM f) := by
  induction l with
  | nil => exact .pure _
  | cons a l ih =>
    rw [List.mapM_cons]
    refine (h a List.mem_cons_self).bind fun b => ?_
    exact (ih fun c hc => h c (List.mem_cons_of_mem _ hc)).bind fun bs => .pure _

end FoundUnless

namespace CallGraph

variable {g : CallGraph} {n : Node}

/-- The depth of a catalogued function or the number of its calls is out of range. -/
def Excessive (g : CallGraph) (n : Node) : Prop :=
  ∃ e, g.entry? n = some e ∧
    (Binary64.OutOfRange e.scan.maxNesting.natAbs ∨ Binary64.OutOfRange (g.callSiteCount n))

theorem reportOf_found (st : Settings) (hn : (g.entry? n).isSome = true) :
    FoundUnless (g.Excessive n) (g.reportOf st n) := by
  obtain ⟨e, he⟩ := Option.isSome_iff_exists.1 hn
  simp only [reportOf, he]
  cases hp : g.priorityOf st e n with
  | ok priority => exact .pure _
  | error fault =>
    have hrange := Category.outOfRange_of_priority hp
    simp only [PrioritySignals.of, Int.natAbs_natCast] at hrange
    cases fault
    exact Or.inr ⟨rfl, e, he, hrange⟩

/-- Reports are asked for on the root and on visited nodes, and only where there is an entry. -/
theorem rootOf_found (g : CallGraph) (st : Settings) (root : String) :
    FoundUnless (∃ n, g.Reaches (.function root) n ∧ g.Excessive n) (g.rootOf st root) := by
  unfold rootOf
  split
  · next hroot =>
    refine ((reportOf_found (n := .function root) st hroot).imp fun h => ⟨_, .refl g _, h⟩).bind fun r => ?_
    refine (FoundUnless.mapM _ fun n hn => ?_).bind fun rs => .pure _
    obtain ⟨hvisited, hentry⟩ := List.mem_filter.1 hn
    have hreach := Traversal.mem_visited.1 (List.mem_of_mem_tail hvisited)
    exact (reportOf_found st hentry).imp fun h => ⟨n, hreach, h⟩
  · exact .pure _

theorem resultOf_found (g : CallGraph) (st : Settings) (roots : List String) :
    FoundUnless (∃ root ∈ roots, ∃ n, g.Reaches (.function root) n ∧ g.Excessive n)
      (g.resultOf st roots) := by
  refine (FoundUnless.mapM _ fun root hroot => ?_).bind fun parts => .pure _
  exact (rootOf_found g st root).imp fun h => ⟨root, List.mem_eraseDups.1 hroot, h⟩

end CallGraph

namespace Session

/-- An analysis finds out what it knows by requests for aggregates. -/
theorem exists_memo_eq_requested (units : List SourceUnit) (st : Settings) (roots : List String) :
    ∃ asked, ((start units st).ask (Session.analyze roots)).2.memo
      = Memo.requested (start units st).graph asked := by
  refine (keeps_analyze (P := fun g m => g = (start units st).graph ∧
    ∃ asked, m = Memo.requested g asked) ?_ roots (start units st) ⟨rfl, [], rfl⟩).elim ?_
  · rintro g m n ⟨hg, asked, rfl⟩
    exact ⟨hg, asked ++ [n], (Memo.requested_concat g asked n).symm⟩
  · rintro hg ⟨asked, hasked⟩
    exact ⟨asked, hg ▸ hasked⟩

/-- There is a result, unless a root reaches a function whose depth or number of calls cannot be
converted. -/
theorem analyze_found (units : List SourceUnit) (roots : List String) (st : Settings) :
    FoundUnless (∃ root ∈ roots, ∃ n, (start units st).graph.Reaches (.function root) n ∧
      (start units st).graph.Excessive n) (AsyncMigration.analyze units roots st).1 := by
  unfold AsyncMigration.analyze
  split
  · exact Or.inl ⟨_, rfl⟩
  · have hanswer := (gives_analyze roots _ (faithful_start units st)).1
    show FoundUnless _ ((start units st).ask (Session.analyze roots)).1
    rw [hanswer]
    exact CallGraph.resultOf_found (start units st).graph st roots

/-- **Where an analysis can fail.** Each function has its scan, and what is scanned without a fault can
be counted. Whatever has been requested before, no look-up of a search fails. An analysis from some
roots ends without a result if what has to be said of the units cannot be printed: the first fault of a
body, or a failure that is noted. In every other case there is a result, unless a root reaches a function
whose depth or number of calls cannot be converted. -/
theorem analyze_total (units : List SourceUnit) (roots : List String) (st : Settings) :
    let g := (start units st).graph
    Catalog.build units (units.map SourceUnit.scan) = .ok g.catalog ∧
    (∀ u ∈ units, ∀ f ∈ u.functions, (u.scanOf f).failure = none →
      ∃ d, closureDepthOf f.body = .ok d) ∧
    (∃ asked, ((start units st).ask (Session.analyze roots)).2.memo = Memo.requested g asked) ∧
    (∀ asked n, (Memo.requested g asked).aggregates.contains n = false →
      (Search.openNode ⟨Memo.requested g asked, [], [], []⟩ n : Search g).Unfailing) ∧
    (tryAnalyze units roots st = .error (.notBuilt (.unprintable .tooLong)) ↔
      roots ≠ [] ∧ Unprintable units) ∧
    (roots = [] ∨ ¬ Unprintable units →
      (∃ r, tryAnalyze units roots st = .ok r) ∨
      tryAnalyze units roots st = .error .outOfRange ∧
        ∃ root ∈ roots, ∃ n, g.Reaches (.function root) n ∧ g.Excessive n) := by
  intro g
  have hfound := analyze_found units roots st
  have htried := tryAnalyze_eq units roots st
  have hprintable : (roots.isEmpty || (printed units).all Numeral.printable) = true ↔
      roots = [] ∨ ¬ Unprintable units := by
    rw [not_unprintable_iff, Bool.or_eq_true, List.isEmpty_iff]
  refine ⟨?_, fun u _ f _ h => u.exists_closureDepthOf h, exists_memo_eq_requested units st roots,
    fun asked n hn => ?_, ?_, fun h => ?_⟩
  · have hcatalog : g.catalog = Catalog.ofUnits units :=
      CallGraph.catalog_addCalls { catalog := Catalog.ofUnits units } _
    rw [Catalog.build_scan, hcatalog]
  · have hidle := Memo.settled_requested g asked
    exact (Search.sound_begin hidle (by simp [hn])).unfailing
  · by_cases h : roots = [] ∨ ¬ Unprintable units
    · -- what the analysis itself can raise is another error
      rw [if_pos (hprintable.2 h)] at htried
      have hother : tryAnalyze units roots st ≠ .error (.notBuilt (.unprintable .tooLong)) := by
        rw [htried]
        rcases hfound with ⟨r, hr⟩ | ⟨hr, -⟩ <;> rw [hr] <;> simp
      exact iff_of_false hother (by tauto)
    · rw [if_neg (mt hprintable.1 h)] at htried
      exact iff_of_true htried (by tauto)
  · rw [if_pos (hprintable.2 h)] at htried
    rw [htried]
    exact hfound

/-- Units with a malformed body, a name that is defined twice and a call from nowhere. -/
def faultyUnits : List SourceUnit :=
  [{ functions := [{ signature := { name := "f", line := 3 }, body := some [.node "await" 0 true none []] },
       { signature := { name := "f", line := 9 } }]
     callSites := [{ caller := "ghost", target := "io", line := -8 }] }]

/-- What is wrong with the units can be printed, and so there is a result. -/
theorem analyze_total_faulty :
    ¬ Unprintable faultyUnits ∧ ∃ r, tryAnalyze faultyUnits ["f"] {} = .ok r := by
  have hprintable : ¬ Unprintable faultyUnits := not_unprintable_iff.2 (by decide +kernel)
  obtain ⟨-, -, -, -, -, hfound⟩ := analyze_total faultyUnits ["f"] {}
  refine ⟨hprintable, (hfound (Or.inr hprintable)).resolve_right ?_⟩
  rintro ⟨herror, -⟩
  have hok : (tryAnalyze faultyUnits ["f"] {}).isOk = true := by decide +kernel
  rw [herror] at hok
  cases hok

/-- A call from nowhere, in a line that cannot be printed. -/
def calledFromAfar : List SourceUnit :=
  [{ functions := [{ signature := { name := "f" } }]
     callSites := [{ caller := "ghost", target := "io", line := 10 ^ Numeral.maxFigures }] }]

/-- There is no result, though nothing is out of range. -/
theorem tryAnalyze_calledFromAfar :
    tryAnalyze calledFromAfar ["f"] {} = .error (.notBuilt (.unprintable .tooLong)) := by
  have hghost : (Catalog.ofUnits calledFromAfar).contains "ghost" = false := by
    rw [← Bool.not_eq_true, Catalog.contains_ofUnits]
    decide
  have hdropped : .unknownCaller "ghost" "io" (10 ^ Numeral.maxFigures)
      ∈ (CallGraph.ofUnits calledFromAfar).failures := by
    rw [(CallGraph.ofUnits_spec calledFromAfar "").2.2, Catalog.refused]
    exact List.mem_map_of_mem (List.mem_filter.2 ⟨List.mem_singleton_self _, by simp [hghost]⟩)
  have hlong : Unprintable calledFromAfar :=
    .failure (List.mem_append_right _ hdropped) (List.mem_singleton_self _) Numeral.tooLong_pow
  have hnot : ¬ (printed calledFromAfar).all Numeral.printable = true := fun h =>
    not_unprintable_iff.2 h hlong
  exact (tryAnalyze_eq calledFromAfar ["f"] {}).trans (if_neg hnot)

end Session
end AsyncMigration
