import AsyncMigration.Proofs.History
import Mathlib.Data.Set.Finite.Basic
import Mathlib.Data.Fintype.Card

/-!
# Chains of redundant wrappers

A redundant wrapper can be removed in favour of what it wraps. What it wraps may be a redundant wrapper
too, if it is natively structured as well and so has a pattern besides its suspension. Following the
wrapped functions leads to one that is worth keeping, unless natively structured functions wrap each
other in a ring; one such function may even wrap itself.

* `CallGraph.redundant_iff` — what makes a function a redundant wrapper.
* `CallGraph.ring_iff` — which functions a chain of redundant wrappers returns to.
* `CallGraph.exists_end` — a chain that never returns ends.
* `Session.wrappers_removable_iff` — when all redundant wrappers can be removed.
* `Session.wraps_itself` — a function that is a redundant wrapper around itself.
-/

namespace AsyncMigration

open Relation (ReflTransGen TransGen)

namespace CallGraph

variable {g : CallGraph} {a b c z : String}

/-! ## Wrappers and what they wrap -/

/-- A catalogued function merely wraps another one in a suspension. -/
def Wraps (g : CallGraph) (a b : String) : Prop :=
  ∃ e, g.catalog.get? a = some e ∧ g.wrappedCallee? e = some b

theorem wraps_iff {g : CallGraph} {a b : String} :
    g.Wraps a b ↔ (g.catalog.get? a).bind g.wrappedCallee? = some b :=
  Option.bind_eq_some_iff.symm

/-- A function is catalogued, can be analysed and is natively structured. -/
def Structured (g : CallGraph) (a : String) : Prop :=
  ∃ e, g.catalog.get? a = some e ∧ e.analyzable = true ∧ e.nativelyStructured = true

/-- A catalogued function is a redundant wrapper. -/
def Redundant (g : CallGraph) (a : String) : Prop :=
  ∃ e, g.catalog.get? a = some e ∧ g.isRedundantWrapper e = true

/-- A redundant wrapper gives way to what it wraps. -/
def Unwraps (g : CallGraph) (a b : String) : Prop := g.Redundant a ∧ g.Wraps a b

/-- A function that is natively structured already merely wraps another one. -/
def Rewraps (g : CallGraph) (a b : String) : Prop := g.Structured a ∧ g.Wraps a b

theorem Wraps.unique (h : g.Wraps a b) (h' : g.Wraps a c) : b = c := by
  obtain ⟨e, he, hb⟩ := h
  obtain ⟨e', he', hc⟩ := h'
  obtain rfl : e = e' := Option.some.inj (he.symm.trans he')
  exact Option.some.inj (hb.symm.trans hc)

/-- A redundant wrapper is one around a natively structured function. -/
theorem redundant_iff : g.Redundant a ↔ ∃ b, g.Wraps a b ∧ g.Structured b := by
  constructor
  · rintro ⟨e, he, hredundant⟩
    unfold isRedundantWrapper at hredundant
    split at hredundant
    · cases hredundant
    · next b hb =>
      split at hredundant
      · cases hredundant
      · next target htarget =>
        obtain ⟨hscanned, hnative⟩ := (Bool.and_eq_true _ _).mp hredundant
        exact ⟨b, ⟨e, he, hb⟩, target, htarget, hscanned, hnative⟩
  · rintro ⟨b, ⟨e, he, hb⟩, target, htarget, hscanned, hnative⟩
    refine ⟨e, he, ?_⟩
    simp [isRedundantWrapper, hb, htarget, hscanned, hnative]

/-- What a redundant wrapper gives way to is natively structured. -/
theorem Unwraps.structured (h : g.Unwraps a b) : g.Structured b := by
  obtain ⟨c, hwraps, hstructured⟩ := redundant_iff.1 h.1
  rwa [h.2.unique hwraps]

/-! ## Rings -/

/-- From a natively structured function on, giving way is wrapping while natively structured. -/
theorem transGen_rewraps (h : TransGen g.Unwraps a z) (ha : g.Structured a) : TransGen g.Rewraps a z := by
  induction h using TransGen.head_induction_on with
  | single h => exact .single ⟨ha, h.2⟩
  | head h _ ih => exact .head ⟨ha, h.2⟩ (ih h.structured)

/-- And the other way round, up to a natively structured function. -/
theorem transGen_unwraps (h : TransGen g.Rewraps a z) (hz : g.Structured z) : TransGen g.Unwraps a z := by
  induction h using TransGen.head_induction_on with
  | single h => exact .single ⟨redundant_iff.2 ⟨z, h.2, hz⟩, h.2⟩
  | @head b c h hrest ih =>
    have hc : g.Structured c := by
      obtain ⟨_, hnext, -⟩ := TransGen.head'_iff.1 hrest
      exact hnext.1
    exact .head ⟨redundant_iff.2 ⟨c, h.2, hc⟩, h.2⟩ ih

/-- A chain of redundant wrappers returns to a function if and only if natively structured functions
wrap each other from it back to it. -/
theorem ring_iff : TransGen g.Unwraps z z ↔ TransGen g.Rewraps z z := by
  constructor
  · intro h
    obtain ⟨_, -, hlast⟩ := TransGen.tail'_iff.1 h
    exact transGen_rewraps h hlast.structured
  · intro h
    obtain ⟨_, hfirst, -⟩ := TransGen.head'_iff.1 h
    exact transGen_unwraps h hfirst.1

/-! ## Ends -/

/-- A redundant wrapper can be removed: giving way to what is wrapped never returns to a function, and
it ends in one that is natively structured and no redundant wrapper. -/
structure Removable (g : CallGraph) (a : String) : Prop where
  once : ∀ z, ReflTransGen g.Unwraps a z → ¬ TransGen g.Unwraps z z
  ends : ∃ z, ReflTransGen g.Unwraps a z ∧ g.Structured z ∧ ¬ g.Redundant z

theorem mem_names_of_get? {e : CatalogEntry} (h : g.catalog.get? a = some e) :
    a ∈ g.catalog.entries.map (·.name) :=
  List.mem_map.2 ⟨e, List.mem_of_find?_eq_some h, Catalog.name_of_get? h⟩

/-- A chain of redundant wrappers that never returns to a function ends, since only so many functions
are catalogued. -/
theorem exists_end (ha : g.Redundant a)
    (honce : ∀ z, ReflTransGen g.Unwraps a z → ¬ TransGen g.Unwraps z z) :
    ∃ z, ReflTransGen g.Unwraps a z ∧ g.Structured z ∧ ¬ g.Redundant z := by
  let chain : Set String := { x | x ∈ g.catalog.entries.map (·.name) ∧ ReflTransGen g.Unwraps a x }
  have hfinite : Finite chain := ((List.finite_toSet _).subset fun x hx => hx.1).to_subtype
  have hwf : WellFounded fun y x : chain => TransGen g.Unwraps x y := by
    have htrans : IsTrans chain fun y x => TransGen g.Unwraps x y :=
      ⟨fun _ _ _ hyx hzy => hzy.trans hyx⟩
    have hirrefl : Std.Irrefl fun y x : chain => TransGen g.Unwraps x y :=
      ⟨fun x hx => honce x x.2.2 hx⟩
    exact Finite.wellFounded_of_trans_of_irrefl _
  have hends : ∀ x : chain, g.Redundant x ∨ g.Structured x →
      ∃ z, ReflTransGen g.Unwraps x z ∧ g.Structured z ∧ ¬ g.Redundant z := by
    intro x
    induction x using hwf.induction with
    | h x ih =>
      intro hx
      by_cases hredundant : g.Redundant x
      · obtain ⟨b, hwraps, hb⟩ := redundant_iff.1 hredundant
        have hstep : g.Unwraps x b := ⟨hredundant, hwraps⟩
        obtain ⟨_, he, -⟩ := hb
        obtain ⟨z, hz, hend⟩ :=
          ih ⟨b, mem_names_of_get? he, x.2.2.tail hstep⟩ (.single hstep) (Or.inr hstep.structured)
        exact ⟨z, .head hstep hz, hend⟩
      · exact ⟨x, .refl, hx.resolve_left hredundant, hredundant⟩
  obtain ⟨e, he, hwrapper⟩ := ha
  exact hends ⟨a, mem_names_of_get? he, .refl⟩ (Or.inl ⟨e, he, hwrapper⟩)

/-- A redundant wrapper can be removed if and only if its chain leads into no ring. -/
theorem removable_iff (ha : g.Redundant a) :
    g.Removable a ↔ ∀ z, ReflTransGen g.Unwraps a z → ¬ TransGen g.Rewraps z z := by
  simp only [← ring_iff]
  exact ⟨fun h => h.once, fun h => ⟨h, exists_end ha h⟩⟩

end CallGraph

namespace Session

theorem isRedundantWrapper_eq_true_iff {s : Session} {a : String} :
    (s.ask (isRedundantWrapper (.function a))).1 = .ok true ↔ s.graph.Redundant a := by
  have hentry : s.graph.entry? (.function a) = s.graph.catalog.get? a := rfl
  unfold isRedundantWrapper CallGraph.Redundant
  rw [ask_get, hentry]
  cases s.graph.catalog.get? a with
  | none =>
    constructor
    · intro h
      cases h
    · rintro ⟨e, he, -⟩
      cases he
  | some e => simp

/-- **When redundant wrappers can be removed.** In any session, giving way to what is wrapped leads from
each redundant wrapper without return to a function that is natively structured and no redundant
wrapper, if and only if there is no ring of natively structured functions each of which merely wraps
the next in a suspension. -/
theorem wrappers_removable_iff (s : Session) :
    (∀ a, (s.ask (isRedundantWrapper (.function a))).1 = .ok true → s.graph.Removable a) ↔
      ¬ ∃ z, TransGen s.graph.Rewraps z z := by
  simp only [isRedundantWrapper_eq_true_iff]
  constructor
  · rintro h ⟨z, hring⟩
    have hround := CallGraph.ring_iff.2 hring
    obtain ⟨_, hfirst, -⟩ := TransGen.head'_iff.1 hround
    exact (h z hfirst.1).once z .refl hround
  · intro h a ha
    exact (CallGraph.removable_iff ha).2 fun z _ hring => h ⟨z, hring⟩

/-- A wrapper around a wrapper, which awaits as well, around a structured function. -/
def wrappedTwice : List SourceUnit :=
  [{ functions :=
      [{ signature := { name := "outer" }
         body := some [.node "suspension" 2 true (some "inner") []] },
       { signature := { name := "inner" }
         body := some [.node "suspension" 5 true (some "core") [], .node "await" 6 true none []] },
       { signature := { name := "core", structured := true } }] }]

/-- Two redundant wrappers, one around the other, can be removed. -/
theorem wrappers_removable_iff_twice :
    ((start wrappedTwice {}).ask (isRedundantWrapper (.function "inner"))).1 = .ok true ∧
      (start wrappedTwice {}).graph.Unwraps "outer" "inner" ∧
      (start wrappedTwice {}).graph.Removable "outer" := by
  have houter : ((start wrappedTwice {}).ask (isRedundantWrapper (.function "outer"))).1 = .ok true := by
    decide +kernel
  have hentries : (start wrappedTwice {}).graph.catalog.entries.all (fun e => !e.nativelyStructured ||
      (e.name, (start wrappedTwice {}).graph.wrappedCallee? e) ∈ [("inner", some "core"), ("core", none)])
      = true := by decide +kernel
  -- only one natively structured function wraps anything
  have hsole : ∀ x y, (start wrappedTwice {}).graph.Rewraps x y → x = "inner" ∧ y = "core" := by
    rintro x y ⟨⟨e, he, -, hnative⟩, e', he', hwrapped⟩
    obtain rfl : e = e' := Option.some.inj (he.symm.trans he')
    have hcase := List.all_eq_true.1 hentries e (List.mem_of_find?_eq_some he)
    rw [hwrapped, Catalog.name_of_get? he] at hcase
    simpa [hnative] using hcase
  refine ⟨by decide +kernel, ⟨isRedundantWrapper_eq_true_iff.1 houter, CallGraph.wraps_iff.2 (by decide +kernel)⟩,
    (wrappers_removable_iff _).2 ?_ "outer" houter⟩
  rintro ⟨z, hring⟩
  obtain ⟨y, hfirst, hrest⟩ := TransGen.head'_iff.1 hring
  obtain ⟨rfl, rfl⟩ := hsole z y hfirst
  rcases ReflTransGen.cases_head hrest with hsame | ⟨w, hnext, -⟩
  · exact absurd hsame (by decide)
  · exact absurd (hsole _ _ hnext).1 (by decide)

/-- A function that awaits and, besides, suspends around itself. -/
def selfWrapper : List SourceUnit :=
  [{ functions :=
      [{ signature := { name := "f" }
         body := some [.node "suspension" 2 true (some "f") [], .node "await" 3 true none []] }] }]

/-- A function can be a redundant wrapper around itself; removing it leads nowhere. -/
theorem wraps_itself :
    ((start selfWrapper {}).ask (isRedundantWrapper (.function "f"))).1 = .ok true ∧
      (start selfWrapper {}).graph.Unwraps "f" "f" ∧ ¬ (start selfWrapper {}).graph.Removable "f" := by
  have hflagged : ((start selfWrapper {}).ask (isRedundantWrapper (.function "f"))).1 = .ok true := by
    decide +kernel
  have hstep : (start selfWrapper {}).graph.Unwraps "f" "f" :=
    ⟨isRedundantWrapper_eq_true_iff.1 hflagged, CallGraph.wraps_iff.2 (by decide +kernel)⟩
  exact ⟨hflagged, hstep, fun h => h.once "f" .refl (.single hstep)⟩

end Session
end AsyncMigration
