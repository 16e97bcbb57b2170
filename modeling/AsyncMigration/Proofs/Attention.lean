import AsyncMigration.Proofs.Totality
import AsyncMigration.Proofs.Units

/-!
# When a result asks for attention

A result asks for attention if one of its reports has a high tier. Its reports are those on the
functions that catalogued roots reach, so this can be said without the result.

* `CallGraph.requiresAttention_rootOf` — the reports for a root are on what it reaches.
* `Session.requiresAttention_iff` — attention is asked for exactly if some root is `Urgent`.
-/

namespace AsyncMigration

theorem Result.requiresAttention_eq_true {r : Result} {t : Tier} :
    r.requiresAttention t = true
      ↔ ∃ x ∈ r.roots, ∃ f ∈ x.function :: x.dependencies, t.rank ≤ f.priority.tier.rank := by
  simp [requiresAttention, functionReports, List.any_flatMap]

namespace CallGraph

variable {g : CallGraph} {st : Settings} {root : String} {roots : List String} {part r : Result}

/-- The reports for a root are those on the nodes that it reaches. -/
theorem mem_reports_iff {f f' : FunctionReport} {ds : List FunctionReport}
    (hf : g.reportOf st (.function root) = .ok f)
    (hds : ((g.traversalOf (.function root)).visited.tail.filter fun n => (g.entry? n).isSome).mapM
      (g.reportOf st) = .ok ds) :
    f' ∈ f :: ds ↔ ∃ n, g.Reaches (.function root) n ∧ g.reportOf st n = .ok f' := by
  obtain ⟨ns, hns, hreach⟩ := Traversal.visited_eq_cons g (.function root)
  have hvisited : (g.traversalOf (.function root)).visited = .function root :: ns := hns
  rw [hvisited, List.tail_cons] at hds
  rw [List.mem_cons, mem_of_mapM_iff hds]
  constructor
  · rintro (rfl | ⟨n, hn, hreport⟩)
    · exact ⟨_, .refl g _, hf⟩
    · exact ⟨n, (hreach n).2 (Or.inr (List.mem_filter.1 hn).1), hreport⟩
  · rintro ⟨n, hn, hreport⟩
    rcases (hreach n).1 hn with rfl | hn
    · exact Or.inl (Except.ok.inj (hreport.symm.trans hf))
    · obtain ⟨e, p, he, -⟩ := exists_reportOn hreport
      exact Or.inr ⟨n, List.mem_filter.2 ⟨hn, Option.isSome_iff_exists.2 ⟨e, he⟩⟩, hreport⟩

theorem requiresAttention_rootOf (h : g.rootOf st root = .ok part) (t : Tier) :
    part.requiresAttention t = true ↔ g.catalog.contains root = true ∧
      ∃ n, g.Reaches (.function root) n ∧ ∃ f, g.reportOf st n = .ok f ∧
        t.rank ≤ f.priority.tier.rank := by
  rw [Result.requiresAttention_eq_true]
  rcases rootOf_cases h with ⟨hroot, f, ds, hf, hds, rfl⟩ | ⟨hroot, rfl⟩
  · simp only [hroot, List.mem_singleton, exists_eq_left, mem_reports_iff hf hds, true_and]
    grind
  · simp [hroot]

/-- A result asks for attention if that for one of its roots does. -/
theorem requiresAttention_resultOf (h : g.resultOf st roots = .ok r) (t : Tier) :
    r.requiresAttention t = true
      ↔ ∃ root ∈ roots, ∃ part, g.rootOf st root = .ok part ∧ part.requiresAttention t = true := by
  obtain ⟨parts, hparts, h⟩ := bind_eq_ok.1 h
  cases h
  simp only [Result.requiresAttention_eq_true, List.mem_flatMap, mem_of_mapM_iff hparts,
    List.mem_eraseDups]
  grind

/-- There is a result if there is one for each root. -/
theorem exists_resultOf_iff (g : CallGraph) (st : Settings) (roots : List String) :
    (∃ r, g.resultOf st roots = .ok r) ↔ ∀ root ∈ roots, ∃ part, g.rootOf st root = .ok part := by
  constructor
  · rintro ⟨r, h⟩ root hroot
    obtain ⟨parts, hparts, -⟩ := bind_eq_ok.1 h
    exact exists_ok_of_mapM hparts (List.mem_eraseDups.2 hroot)
  · intro h
    obtain ⟨parts, hparts⟩ := exists_mapM_ok (l := roots.eraseDups) fun root hroot =>
      h root (List.mem_eraseDups.1 hroot)
    exact ⟨_, bind_eq_ok.2 ⟨parts, hparts, rfl⟩⟩

/-- No function is catalogued with a negative depth. -/
theorem maxNesting_nonneg {units : List SourceUnit} {n : Node} {e : CatalogEntry}
    (he : CallGraph.entry? (ofUnits units) n = some e) : 0 ≤ e.scan.maxNesting := by
  cases n with
  | sink name => cases he
  | function name =>
    rw [entry?_ofUnits_eq_get?] at he
    obtain ⟨u, -, f, -, -, rfl⟩ := Catalog.exists_of_get?_ofUnits he
    exact ScanReport.maxNesting_nonneg (u.layered_scanOf f)

/-- A way between functions leads through functions, since sinks call nothing. -/
theorem reaches_function_iff {units : List SourceUnit} {a b : String} :
    (ofUnits units).Reaches (.function a) (.function b)
      ↔ Relation.ReflTransGen (fun x y => Invokes units (.function x) (.function y)) a b := by
  constructor
  · intro h
    have hway : ∀ n, (ofUnits units).Reaches (.function a) n → ∀ b, n = .function b →
        Relation.ReflTransGen (fun x y => Invokes units (.function x) (.function y)) a b := by
      intro n hn
      induction hn with
      | refl =>
        rintro b hb
        cases hb
        exact .refl
      | @tail m n _ hcall ih =>
        rintro b rfl
        have hcall : Invokes units m (.function b) := calls_ofUnits_iff.1 hcall
        cases m with
        | sink s => cases hcall
        | function x => exact (ih x rfl).tail hcall
    exact hway _ h b rfl
  · intro h
    induction h with
    | refl => exact .refl _ _
    | tail _ hcall ih => exact ih.call (calls_ofUnits_iff.2 hcall)

end CallGraph

namespace Session

variable {units : List SourceUnit} {st : Settings} {roots : List String} {r : Result}

/-- A root is defined, and a function that it reaches by resolved calls is reported with a tier that
is high enough. -/
def Urgent (units : List SourceUnit) (st : Settings) (t : Tier) (root : String) : Prop :=
  Defined units root ∧
    ∃ name, Relation.ReflTransGen (fun a b => Invokes units (.function a) (.function b)) root name ∧
      ∃ f, ((start units st).ask (report (.function name))).1 = .ok f ∧ t.rank ≤ f.priority.tier.rank

theorem urgent_iff (t : Tier) (root : String) :
    Urgent units st t root ↔ (CallGraph.ofUnits units).catalog.contains root = true ∧
      ∃ n, (CallGraph.ofUnits units).Reaches (.function root) n ∧
        ∃ f, (CallGraph.ofUnits units).reportOf st n = .ok f ∧ t.rank ≤ f.priority.tier.rank := by
  simp only [Urgent, report_start]
  rw [CallGraph.contains_catalog_iff]
  refine and_congr_right fun _ => ⟨?_, ?_⟩
  · rintro ⟨name, hreach, f, hf, ht⟩
    exact ⟨.function name, CallGraph.reaches_function_iff.2 hreach, f, hf, ht⟩
  · rintro ⟨n, hreach, f, hf, ht⟩
    obtain ⟨e, p, he, -⟩ := CallGraph.exists_reportOn hf
    cases n with
    | sink s => cases he
    | function name =>
      exact ⟨name, CallGraph.reaches_function_iff.1 hreach, f, hf, ht⟩

/-- Attention is asked for exactly if some root is urgent. -/
theorem requiresAttention_iff (h : (AsyncMigration.analyze units roots st).1 = .ok r) (t : Tier) :
    r.requiresAttention t = true ↔ ∃ root ∈ roots, Urgent units st t root := by
  by_cases hnil : roots = []
  · subst hnil
    cases h
    simp [Result.requiresAttention_eq_true]
  · rw [analyze_eq_resultOf units st hnil] at h
    have hfound := (CallGraph.exists_resultOf_iff _ st roots).1 ⟨r, h⟩
    rw [CallGraph.requiresAttention_resultOf h]
    refine exists_congr fun root => and_congr_right fun hroot => ?_
    obtain ⟨part, hpart⟩ := hfound root hroot
    rw [urgent_iff, ← CallGraph.requiresAttention_rootOf hpart]
    constructor
    · rintro ⟨part', hpart', ht⟩
      cases hpart.symm.trans hpart'
      exact ht
    · intro ht
      exact ⟨part, hpart, ht⟩

theorem exists_analyze_iff (units : List SourceUnit) (st : Settings) (roots : List String) :
    (∃ r, (AsyncMigration.analyze units roots st).1 = .ok r)
      ↔ ∀ root ∈ roots, ∃ part, (CallGraph.ofUnits units).rootOf st root = .ok part := by
  by_cases hnil : roots = []
  · subst hnil
    exact ⟨fun _ _ h => absurd h List.not_mem_nil, fun _ => ⟨{}, rfl⟩⟩
  · rw [analyze_eq_resultOf units st hnil]
    exact CallGraph.exists_resultOf_iff _ st roots

/-- There is a result if there is one for each root by itself. -/
theorem exists_tryAnalyze_iff (units : List SourceUnit) (st : Settings) (roots : List String) :
    (∃ r, tryAnalyze units roots st = .ok r)
      ↔ ∀ root ∈ roots, ¬ Unprintable units ∧
          ∃ part, (CallGraph.ofUnits units).rootOf st root = .ok part := by
  by_cases hnil : roots = []
  · subst hnil
    exact ⟨fun _ _ h => absurd h List.not_mem_nil, fun _ => ⟨{}, rfl⟩⟩
  · obtain ⟨root, hroot⟩ := List.exists_mem_of_ne_nil roots hnil
    have hempty : roots.isEmpty = false := by simpa using hnil
    rw [tryAnalyze_eq, hempty, Bool.false_or, not_unprintable_iff]
    split
    · next hprintable => simp only [exists_analyze_iff, hprintable, true_and]
    · next hprintable =>
      refine iff_of_false (by simp) fun h => hprintable (h root hroot).1

end Session
end AsyncMigration
