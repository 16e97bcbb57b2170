import AsyncMigration.Proofs.Accounting
import AsyncMigration.Report.Json

/-!
# Nodes told apart by their texts

Reports show a node as a text, and a sink as its name behind a mark. A function may have a name that
begins with that mark. What a root is said to reach can be read back to functions and sinks, unless
the root reaches a sink and also a function that is called as the sink is shown.

* `Node.eq_or_of_text_eq` — what a text with the mark can stand for.
* `Traversal.legible_iff` — when the texts of a walk can be read back.
* `Session.reachable_legible_iff` — when those in a result can be.
* `Session.function_shown_as_sink` — a result in which they cannot be.
-/

namespace AsyncMigration

/-! ## Texts and what they stand for -/

namespace Node

/-- A text with the mark of a sink is shown for that sink and for the function of that name. -/
theorem eq_or_of_text_eq {m : Node} {n : String} (h : m.text = "external::" ++ n) :
    m = .sink n ∨ m = .function ("external::" ++ n) := by
  cases m with
  | function name =>
    right
    simpa [text] using h
  | sink name =>
    left
    simpa [text] using h

end Node

/-- The texts of visited nodes can be read back: no two are the same, and a text with the mark of a sink
stands for the sink if the sink is listed as visited, and else for a function that units define. -/
structure Traversal.Legible (units : List SourceUnit) (t : Traversal) : Prop where
  distinct : (t.visited.map Node.text).Nodup
  sink : ∀ m ∈ t.visited, ∀ n, m.text = "external::" ++ n → n ∈ t.externalSinks → m = .sink n
  function : ∀ m ∈ t.visited, ∀ n, m.text = "external::" ++ n → n ∉ t.externalSinks →
    ∃ name, m = .function name ∧ Defined units name

namespace Traversal

variable {units : List SourceUnit} {t : Traversal} {n : String}

/-- A text with the mark of a sink that is not listed as visited stands for a function. -/
theorem function_of_unlisted (hdefined : ∀ name, .function name ∈ t.visited → Defined units name)
    {m : Node} (hm : m ∈ t.visited) (htext : m.text = "external::" ++ n) (hn : n ∉ t.externalSinks) :
    ∃ name, m = .function name ∧ Defined units name := by
  rcases Node.eq_or_of_text_eq htext with rfl | rfl
  · exact absurd (mem_externalSinks.2 hm) hn
  · exact ⟨_, rfl, hdefined _ hm⟩

/-- Texts can be read back unless a sink is visited and a function whose name is shown for the sink. -/
theorem legible_iff (honce : t.visited.Nodup)
    (hdefined : ∀ name, .function name ∈ t.visited → Defined units name) :
    t.Legible units ↔
      ¬ ∃ n, .sink n ∈ t.visited ∧ .function ("external::" ++ n) ∈ t.visited := by
  constructor
  · rintro h ⟨n, hsink, hfunction⟩
    have heq := h.sink _ hfunction n rfl (mem_externalSinks.2 hsink)
    cases heq
  · intro hclash
    have hapart : ∀ n, .sink n ∈ t.visited → .function ("external::" ++ n) ∉ t.visited :=
      fun n hsink hfunction => hclash ⟨n, hsink, hfunction⟩
    refine ⟨?_, fun m hm n htext hn => ?_, fun m hm n => function_of_unlisted hdefined hm⟩
    · refine honce.map_on fun a ha b hb htext => ?_
      cases b with
      | sink s =>
        rcases Node.eq_or_of_text_eq htext with rfl | rfl
        · rfl
        · exact absurd ha (hapart s hb)
      | function name =>
        cases a with
        | function name' => simpa [Node.text] using htext
        | sink s =>
          rcases Node.eq_or_of_text_eq htext.symm with heq | heq
          · exact heq.symm
          · rw [heq] at hb
            exact absurd hb (hapart s ha)
    · rcases Node.eq_or_of_text_eq htext with rfl | rfl
      · rfl
      · exact absurd hm (hapart n (mem_externalSinks.1 hn))

end Traversal

/-! ## Results -/

/-- The value at the end of a way through objects. -/
def Json.at? : List String → Json → Option Json
  | [], j => some j
  | name :: names, .object members => (Json.member? name members).bind (Json.at? names)
  | _ :: _, _ => none

/-- What is shown of a root tells the texts of the nodes visited, and the sinks among them. -/
theorem RootReport.at?_traversal (x : RootReport) :
    x.toJson.at? ["traversal", "reachable"] = some (.texts (x.traversal.visited.map Node.text)) ∧
      x.toJson.at? ["traversal", "external_sinks"] = some (.texts x.traversal.externalSinks) :=
  ⟨rfl, rfl⟩

/-- The reports of a result are on catalogued roots, with the walks from them. -/
theorem CallGraph.traversal_of_mem_roots {g : CallGraph} {st : Settings} {roots : List String}
    {r : Result} {x : RootReport} (h : g.resultOf st roots = .ok r) (hx : x ∈ r.roots) :
    g.catalog.contains x.function.name = true ∧
      x.traversal = g.traversalOf (.function x.function.name) := by
  obtain ⟨parts, hparts, h⟩ := bind_eq_ok.1 h
  cases h
  obtain ⟨part, hpart, hx⟩ := List.mem_flatMap.1 hx
  obtain ⟨root, -, hroot⟩ := (mem_of_mapM_iff hparts).1 hpart
  rcases rootOf_cases hroot with ⟨hknown, f, ds, hf, -, rfl⟩ | ⟨-, rfl⟩
  · obtain rfl := List.mem_singleton.1 hx
    have hname : f.name = root := name_of_reportOf hf
    exact ⟨hname.symm ▸ hknown, hname.symm ▸ rfl⟩
  · cases hx

namespace Session

open Relation (ReflTransGen)

section

variable {units : List SourceUnit} {roots : List String} {st : Settings} {r : Result} {x : RootReport}
  (hr : (AsyncMigration.analyze units roots st).1 = .ok r) (hx : x ∈ r.roots)
include hr hx

theorem traversal_of_analyze :
    Defined units x.function.name ∧
      x.traversal = (CallGraph.ofUnits units).traversalOf (.function x.function.name) := by
  have hroots : roots ≠ [] := by
    rintro rfl
    cases hr
    cases hx
  rw [analyze_eq_resultOf units st hroots] at hr
  obtain ⟨hknown, htraversal⟩ := CallGraph.traversal_of_mem_roots hr hx
  exact ⟨CallGraph.contains_catalog_iff.1 hknown, htraversal⟩

/-- What is visited from a root is what it reaches. -/
theorem mem_visited_iff_reaches {n : Node} :
    n ∈ x.traversal.visited ↔ ReflTransGen (Invokes units) (.function x.function.name) n := by
  rw [(traversal_of_analyze hr hx).2, ← CallGraph.calls_ofUnits]
  exact Traversal.mem_visited

theorem defined_of_mem_visited {name : String} (h : .function name ∈ x.traversal.visited) :
    Defined units name := by
  obtain ⟨hroot, htraversal⟩ := traversal_of_analyze hr hx
  rw [htraversal] at h
  exact CallGraph.defined_of_reaches hroot (Traversal.mem_visited.1 h)

end

/-- **When what is reached can be read back.** The output for a root lists the texts of the nodes
visited, each of which is visited once, and the names of the sinks among them. A text with the mark of
a sink that is not listed stands for a function that units define. All texts can be read back if and
only if the root does not reach both a sink and a function whose name is the text of the sink. -/
theorem reachable_legible_iff (units : List SourceUnit) (roots : List String) (st : Settings)
    (r : Result) (hr : (AsyncMigration.analyze units roots st).1 = .ok r) (x : RootReport)
    (hx : x ∈ r.roots) :
    r.toJson.at? ["roots"] = some (.list (r.roots.map RootReport.toJson)) ∧
    x.toJson.at? ["traversal", "reachable"] = some (.texts (x.traversal.visited.map Node.text)) ∧
    x.toJson.at? ["traversal", "external_sinks"] = some (.texts x.traversal.externalSinks) ∧
    x.traversal.visited.Nodup ∧
    (∀ m ∈ x.traversal.visited, ∀ n, m.text = "external::" ++ n → n ∉ x.traversal.externalSinks →
      ∃ name, m = .function name ∧ Defined units name) ∧
    (x.traversal.Legible units ↔ ¬ ∃ n,
      ReflTransGen (Invokes units) (.function x.function.name) (.sink n) ∧
      ReflTransGen (Invokes units) (.function x.function.name) (.function ("external::" ++ n))) := by
  have hdefined : ∀ name, .function name ∈ x.traversal.visited → Defined units name :=
    fun name => defined_of_mem_visited hr hx
  have honce : x.traversal.visited.Nodup := by
    rw [(traversal_of_analyze hr hx).2]
    exact Traversal.nodup_visited _ _
  obtain ⟨hreachable, hsinks⟩ := x.at?_traversal
  refine ⟨rfl, hreachable, hsinks, honce, fun m hm n => Traversal.function_of_unlisted hdefined hm, ?_⟩
  rw [Traversal.legible_iff honce hdefined]
  simp only [mem_visited_iff_reaches hr hx]

/-- A function that calls out, and calls one whose name has the mark of a sink. -/
def markedFunction : List SourceUnit :=
  [{ functions := [{ signature := { name := "main" } }, { signature := { name := "external::log" } }]
     callSites := [{ caller := "main", callee := some "external::log" },
       { caller := "main", target := "net" }] }]

/-- A function is told from a sink although its name has the mark of a sink. -/
theorem reachable_legible_iff_marked :
    ∃ r x, (AsyncMigration.analyze markedFunction ["main"] {}).1 = .ok r ∧ x ∈ r.roots ∧
      x.traversal.visited.map Node.text = ["main", "external::log", "external::net"] ∧
      x.traversal.Legible markedFunction := by
  have hvisited : (AsyncMigration.analyze markedFunction ["main"] {}).1.map
      (fun r => r.roots.map (·.traversal.visited))
      = .ok [[.function "main", .function "external::log", .sink "net"]] := by decide +kernel
  obtain ⟨r, hr, hroots⟩ := map_eq_ok.1 hvisited
  obtain ⟨x, hx, hnodes⟩ := List.mem_map.1 (hroots ▸ List.mem_singleton_self _)
  obtain ⟨-, -, -, -, -, hlegible⟩ := reachable_legible_iff markedFunction ["main"] {} r hr x hx
  refine ⟨r, x, hr, hx, by rw [hnodes]; rfl, hlegible.2 ?_⟩
  rintro ⟨n, hsink, hfunction⟩
  rw [← mem_visited_iff_reaches hr hx, hnodes] at hsink hfunction
  obtain rfl : n = "net" := by simpa using hsink
  exact absurd hfunction (by decide)

/-- A function that calls out, and calls one whose name is the text of the sink that it calls. -/
def shownAlike : List SourceUnit :=
  [{ functions := [{ signature := { name := "main" } }, { signature := { name := "external::net" } }]
     callSites := [{ caller := "main", callee := some "external::net" },
       { caller := "main", target := "net" }] }]

/-- A function can be taken for a sink: two nodes are listed under one text, and as that of a sink. -/
theorem function_shown_as_sink :
    ∃ r x, (AsyncMigration.analyze shownAlike ["main"] {}).1 = .ok r ∧ x ∈ r.roots ∧
      x.traversal.visited = [.function "main", .function "external::net", .sink "net"] ∧
      x.toJson.at? ["traversal", "reachable"]
        = some (.texts ["main", "external::net", "external::net"]) ∧
      x.toJson.at? ["traversal", "external_sinks"] = some (.texts ["net"]) ∧
      ¬ (x.traversal.visited.map Node.text).Nodup ∧ ¬ x.traversal.Legible shownAlike := by
  have hvisited : (AsyncMigration.analyze shownAlike ["main"] {}).1.map
      (fun r => r.roots.map (·.traversal.visited))
      = .ok [[.function "main", .function "external::net", .sink "net"]] := by decide +kernel
  obtain ⟨r, hr, hroots⟩ := map_eq_ok.1 hvisited
  obtain ⟨x, hx, hnodes⟩ := List.mem_map.1 (hroots ▸ List.mem_singleton_self _)
  obtain ⟨hreachable, hsinks⟩ := x.at?_traversal
  have hrepeated : ¬ (x.traversal.visited.map Node.text).Nodup := by
    rw [hnodes]
    decide
  refine ⟨r, x, hr, hx, hnodes, ?_, ?_, hrepeated, fun h => hrepeated h.distinct⟩
  · rw [hreachable, hnodes]
    rfl
  · rw [hsinks, Traversal.externalSinks, hnodes]
    rfl

end Session
end AsyncMigration
