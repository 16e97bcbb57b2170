import AsyncMigration.Payload.Record
import AsyncMigration.Proofs.History
import AsyncMigration.Proofs.Scans
import Mathlib.Data.List.Forall2
import Mathlib.Data.Set.List

/-!
# The units that records stand for

A record and the unit that it stands for differ in a few places only: the path of a unit is that of
its functions as well, an empty protocol is none, and a call without a target has its callee for one.
So it can be said which units stand for a record, and which records stand for the same unit. A record is
converted into the unit that it stands for if there is room for the calls that this takes.

* `NodeRecord.exists_toElements_iff` — a body comes from a record if nothing in it is no node.
* `UnitRecord.Alike` — records differ only in how they leave out a protocol or a target.
* `UnitRecord.toUnit_eq_iff` — the records that stand for the same unit.
* `UnitRecord.convert_exact` — the units that records are converted into, and the records that are.
-/

namespace AsyncMigration

/-! ## Bodies -/

namespace NodeRecord

mutual

theorem exists_toElement (e : BodyElement) (h : ∀ v, ¬ (BodyElement.stray v).Within e) :
    ∃ n : NodeRecord, n.toElement = e := by
  match e with
  | .stray v => exact absurd .self (h v)
  | .node kind line checked callee children =>
    have hchildren : ∀ v, ¬ OccursIn (.stray v) children := by
      intro v hv
      exact h v (BodyElement.within_node_iff.2 (Or.inr hv))
    obtain ⟨ns, rfl⟩ := exists_toElements children hchildren
    exact ⟨.mk kind line checked callee ns, by rw [toElement]⟩

theorem exists_toElements (es : List BodyElement) (h : ∀ v, ¬ OccursIn (.stray v) es) :
    ∃ ns : List NodeRecord, toElements ns = es := by
  match es with
  | [] => exact ⟨[], by rw [toElements]⟩
  | e :: es =>
    simp only [occursIn_cons_iff, not_or] at h
    obtain ⟨n, rfl⟩ := exists_toElement e fun v => (h v).1
    obtain ⟨ns, rfl⟩ := exists_toElements es fun v => (h v).2
    exact ⟨n :: ns, by rw [toElements]⟩

end

mutual

theorem not_within_toElement (n : NodeRecord) (v : Stray) :
    ¬ (BodyElement.stray v).Within n.toElement := by
  match n with
  | .mk kind line checked callee children =>
    rw [toElement, BodyElement.within_node_iff]
    rintro (h | h)
    · cases h
    · exact not_occursIn_toElements children v h

theorem not_occursIn_toElements (ns : List NodeRecord) (v : Stray) :
    ¬ OccursIn (.stray v) (toElements ns) := by
  match ns with
  | [] =>
    rw [toElements]
    exact not_occursIn_nil
  | n :: ns =>
    rw [toElements, occursIn_cons_iff]
    rintro (h | h)
    · exact not_within_toElement n v h
    · exact not_occursIn_toElements ns v h

end

/-- A body comes from a record if nothing in it, at any depth, is no node. -/
theorem exists_toElements_iff {es : List BodyElement} :
    (∃ ns, toElements ns = es) ↔ ∀ v, ¬ OccursIn (.stray v) es := by
  constructor
  · rintro ⟨ns, rfl⟩
    exact not_occursIn_toElements ns
  · exact exists_toElements es

mutual

theorem toElement_injective (n m : NodeRecord) (h : n.toElement = m.toElement) : n = m := by
  match n, m with
  | .mk kind line checked callee children, .mk kind' line' checked' callee' children' =>
    simp only [toElement, BodyElement.node.injEq] at h
    obtain ⟨rfl, rfl, rfl, rfl, hchildren⟩ := h
    rw [toElements_injective children children' hchildren]

theorem toElements_injective (ns ms : List NodeRecord) (h : toElements ns = toElements ms) :
    ns = ms := by
  match ns, ms with
  | [], [] => rfl
  | [], m :: ms => simp [toElements] at h
  | n :: ns, [] => simp [toElements] at h
  | n :: ns, m :: ms =>
    simp only [toElements, List.cons.injEq] at h
    rw [toElement_injective n m h.1, toElements_injective ns ms h.2]

end

end NodeRecord

/-! ## Functions and calls -/

/-- Two protocols are the same, or neither names one. -/
def SameProtocol (a b : Option String) : Prop := a = b ∨ a ∈ [none, some ""] ∧ b ∈ [none, some ""]

/-- An empty protocol is left out, and every other one stays. -/
theorem filter_protocol (a : Option String) :
    a ∈ [none, some ""] ∧ a.filter (· ≠ "") = none ∨
      a ∉ [none, some ""] ∧ a.filter (· ≠ "") = a := by
  cases a with
  | none => left; simp
  | some p =>
    by_cases hp : p = ""
    · left; simp [hp]
    · right; simp [hp]

theorem filter_protocol_eq_iff {a b : Option String} :
    a.filter (· ≠ "") = b.filter (· ≠ "") ↔ SameProtocol a b := by
  unfold SameProtocol
  rcases filter_protocol a with ⟨ha, ha'⟩ | ⟨ha, ha'⟩ <;>
    rcases filter_protocol b with ⟨hb, hb'⟩ | ⟨hb, hb'⟩ <;> rw [ha', hb'] <;> grind

/-- Two function records differ at most in how they say that there is no protocol. -/
def FunctionRecord.Alike (f g : FunctionRecord) : Prop :=
  g = { f with protocol := g.protocol } ∧ SameProtocol f.protocol g.protocol

/-- Two call records differ at most in whether they repeat their callee as a target. -/
def CallRecord.Alike (c d : CallRecord) : Prop :=
  d = { c with target := d.target } ∧
    (c.target = d.target ∨
      c.target ∈ ["", c.callee.getD ""] ∧ d.target ∈ ["", c.callee.getD ""])

/-- A function comes from a record of a unit at a path: it has that path, its protocol is not empty,
and its body consists of nodes. -/
structure ParsedFunction.Recorded (path : String) (f : ParsedFunction) : Prop where
  path_eq : f.signature.path = path
  protocol : f.signature.protocol ≠ some ""
  nodes : ∀ body, f.body = some body → ∀ v, ¬ OccursIn (.stray v) body

namespace FunctionRecord

theorem exists_toFunction_iff {path : String} {f : ParsedFunction} :
    (∃ r : FunctionRecord, r.toFunction path = f) ↔ f.Recorded path := by
  constructor
  · rintro ⟨r, rfl⟩
    refine ⟨rfl, ?_, ?_⟩
    · simp [toFunction, FunctionRecord.signature, Option.filter_eq_some_iff]
    · intro body hbody v
      obtain ⟨ns, -, rfl⟩ := Option.map_eq_some_iff.1 hbody
      exact NodeRecord.not_occursIn_toElements ns v
  · rintro ⟨rfl, hprotocol, hnodes⟩
    obtain ⟨signature, body⟩ := f
    have hbody : ∃ b : Option (List NodeRecord), b.map NodeRecord.toElements = body := by
      cases body with
      | none => exact ⟨none, rfl⟩
      | some es =>
        obtain ⟨ns, rfl⟩ := NodeRecord.exists_toElements_iff.2 (hnodes es rfl)
        exact ⟨some ns, rfl⟩
    obtain ⟨b, rfl⟩ := hbody
    refine ⟨⟨signature.name, signature.line, signature.params, signature.returns, signature.interop,
      signature.protocol, signature.structured, b⟩, ?_⟩
    have hfilter : signature.protocol.filter (· ≠ "") = signature.protocol := by
      rcases filter_protocol signature.protocol with ⟨hnone, h⟩ | ⟨-, h⟩
      · have hp : signature.protocol = none := by simpa [hprotocol] using hnone
        rw [h, hp]
      · exact h
    simp only [toFunction, FunctionRecord.signature, hfilter]

theorem toFunction_eq_iff {path : String} {f g : FunctionRecord} :
    f.toFunction path = g.toFunction path ↔ f.Alike g := by
  obtain ⟨name, line, params, returns, interop, protocol, structured, body⟩ := f
  obtain ⟨name', line', params', returns', interop', protocol', structured', body'⟩ := g
  have hbody : body.map NodeRecord.toElements = body'.map NodeRecord.toElements ↔ body = body' :=
    (Option.map_injective NodeRecord.toElements_injective).eq_iff
  simp only [toFunction, FunctionRecord.signature, Alike, ParsedFunction.mk.injEq, Signature.mk.injEq,
    mk.injEq, hbody, filter_protocol_eq_iff]
  grind

end FunctionRecord

namespace CallRecord

theorem exists_toCallSite_iff {s : CallSite} :
    (∃ c : CallRecord, c.toCallSite = s) ↔
      (s.target = "" → s.callee = none ∨ s.callee = some "") := by
  constructor
  · rintro ⟨c, rfl⟩ h
    simp only [toCallSite] at h ⊢
    split at h
    · cases hc : c.callee with
      | none => exact Or.inl rfl
      | some callee =>
        rw [hc, Option.getD_some] at h
        exact Or.inr (by rw [h])
    · contradiction
  · intro h
    refine ⟨⟨s.caller, s.callee, s.target, s.line⟩, ?_⟩
    have htarget : (if s.target = "" then s.callee.getD "" else s.target) = s.target := by
      split
      · next hs =>
        rcases h hs with hc | hc <;> rw [hc, hs] <;> rfl
      · rfl
    simp only [toCallSite, htarget]

theorem toCallSite_eq_iff {c d : CallRecord} : c.toCallSite = d.toCallSite ↔ c.Alike d := by
  obtain ⟨caller, callee, target, line⟩ := c
  obtain ⟨caller', callee', target', line'⟩ := d
  simp only [toCallSite, Alike, CallSite.mk.injEq, mk.injEq, List.mem_cons, List.not_mem_nil, or_false]
  grind

end CallRecord

/-! ## Units -/

theorem map_eq_map_iff_forall₂ {α β : Type} {f : α → β} {R : α → α → Prop}
    (h : ∀ {x y}, f x = f y ↔ R x y) {xs ys : List α} : xs.map f = ys.map f ↔ List.Forall₂ R xs ys := by
  rw [← List.forall₂_eq_eq_eq, List.forall₂_map_left_iff, List.forall₂_map_right_iff]
  simp only [h]

/-- A unit comes from a record: its functions do, and a call without a target has no callee either. -/
structure SourceUnit.Recorded (u : SourceUnit) : Prop where
  functions : ∀ f ∈ u.functions, f.Recorded u.path
  targets : ∀ s ∈ u.callSites, s.target = "" → s.callee = none ∨ s.callee = some ""

/-- Two unit records differ at most in how they leave out protocols and targets. -/
structure UnitRecord.Alike (d e : UnitRecord) : Prop where
  path : d.path = e.path
  text : d.text = e.text
  parseError : d.parseError = e.parseError
  functions : List.Forall₂ FunctionRecord.Alike d.functions e.functions
  calls : List.Forall₂ CallRecord.Alike d.calls e.calls

namespace UnitRecord

theorem exists_toUnit_iff {u : SourceUnit} : (∃ d : UnitRecord, d.toUnit = u) ↔ u.Recorded := by
  constructor
  · rintro ⟨d, rfl⟩
    constructor
    · intro f hf
      obtain ⟨r, -, rfl⟩ := List.mem_map.1 hf
      exact FunctionRecord.exists_toFunction_iff.1 ⟨r, rfl⟩
    · intro s hs
      obtain ⟨c, -, rfl⟩ := List.mem_map.1 hs
      exact CallRecord.exists_toCallSite_iff.1 ⟨c, rfl⟩
  · rintro ⟨hfunctions, htargets⟩
    have hf : u.functions ∈ Set.range (List.map (FunctionRecord.toFunction u.path)) := by
      rw [Set.range_list_map]
      intro f hf
      exact FunctionRecord.exists_toFunction_iff.2 (hfunctions f hf)
    have hs : u.callSites ∈ Set.range (List.map CallRecord.toCallSite) := by
      rw [Set.range_list_map]
      intro s hs
      exact CallRecord.exists_toCallSite_iff.2 (htargets s hs)
    obtain ⟨functions, hf⟩ := hf
    obtain ⟨calls, hs⟩ := hs
    exact ⟨⟨u.path, u.text, u.parseError, functions, calls⟩, by rw [toUnit, hf, hs]⟩

theorem toUnit_eq_iff {d e : UnitRecord} : d.toUnit = e.toUnit ↔ d.Alike e := by
  constructor
  · intro h
    simp only [toUnit, SourceUnit.mk.injEq] at h
    obtain ⟨hpath, htext, herror, hfunctions, hcalls⟩ := h
    rw [← hpath] at hfunctions
    exact ⟨hpath, htext, herror, (map_eq_map_iff_forall₂ FunctionRecord.toFunction_eq_iff).1 hfunctions,
      (map_eq_map_iff_forall₂ CallRecord.toCallSite_eq_iff).1 hcalls⟩
  · rintro ⟨hpath, htext, herror, hfunctions, hcalls⟩
    simp only [toUnit, SourceUnit.mk.injEq]
    refine ⟨hpath, htext, herror, ?_, (map_eq_map_iff_forall₂ CallRecord.toCallSite_eq_iff).2 hcalls⟩
    rw [← hpath]
    exact (map_eq_map_iff_forall₂ FunctionRecord.toFunction_eq_iff).2 hfunctions

end UnitRecord

/-! ## Room -/

mutual

/-- How many elements stand inside one another. -/
def BodyElement.height : BodyElement → Nat
  | .stray _ => 1
  | .node _ _ _ _ children => BodyElement.heights children + 1

/-- How many elements stand inside one another in a list. -/
def BodyElement.heights : List BodyElement → Nat
  | [] => 0
  | e :: es => max e.height (BodyElement.heights es)

end

namespace NodeRecord

mutual

/-- A node takes room for itself and for the list of what it holds, and so on for each level. -/
theorem convert_eq_ok_iff {room : Nat} {n : NodeRecord} {e : BodyElement} :
    n.convert room = .ok e ↔ n.toElement = e ∧ 2 * e.height ≤ room := by
  match room, n with
  | 0, .mk kind line checked callee children =>
    rw [convert, toElement]
    constructor
    · intro h
      cases h
    · rintro ⟨rfl, h⟩
      rw [BodyElement.height] at h
      omega
  | room + 1, .mk kind line checked callee children =>
    rw [convert, bind_eq_ok, toElement]
    constructor
    · rintro ⟨es, hes, h⟩
      obtain ⟨rfl, hroom⟩ := convertAll_eq_ok_iff.1 hes
      cases h
      rw [BodyElement.height]
      exact ⟨rfl, by omega⟩
    · rintro ⟨rfl, h⟩
      rw [BodyElement.height] at h
      exact ⟨_, convertAll_eq_ok_iff.2 ⟨rfl, by omega⟩, rfl⟩

theorem convertAll_eq_ok_iff {room : Nat} {ns : List NodeRecord} {es : List BodyElement} :
    convertAll room ns = .ok es ↔ toElements ns = es ∧ 2 * BodyElement.heights es + 1 ≤ room := by
  match room, ns with
  | 0, ns => simp [convertAll]
  | room + 1, [] =>
    rw [convertAll, toElements]
    constructor
    · intro h
      cases h
      exact ⟨rfl, by simp [BodyElement.heights]⟩
    · rintro ⟨rfl, -⟩
      rfl
  | room + 1, n :: ns =>
    rw [convertAll, bind_eq_ok, toElements]
    constructor
    · rintro ⟨e, he, h⟩
      obtain ⟨es', hes, h⟩ := bind_eq_ok.1 h
      obtain ⟨rfl, hroom⟩ := convert_eq_ok_iff.1 he
      obtain ⟨rfl, hrest⟩ := convertAll_eq_ok_iff.1 hes
      cases h
      rw [BodyElement.heights]
      exact ⟨rfl, by omega⟩
    · rintro ⟨rfl, h⟩
      rw [BodyElement.heights] at h
      exact ⟨_, convert_eq_ok_iff.2 ⟨rfl, by omega⟩,
        bind_eq_ok.2 ⟨_, convertAll_eq_ok_iff.2 ⟨rfl, by omega⟩, rfl⟩⟩

end

end NodeRecord

/-- There is room for the calls that convert the body of a function. -/
def ParsedFunction.Fits (room : Nat) (f : ParsedFunction) : Prop :=
  ∀ body, f.body = some body → 2 * BodyElement.heights body + 1 ≤ room

/-- There is room for the calls that convert each body of a unit. -/
def SourceUnit.Fits (room : Nat) (u : SourceUnit) : Prop := ∀ f ∈ u.functions, f.Fits room

theorem FunctionRecord.convert_eq_ok_iff {room : Nat} {path : String} {r : FunctionRecord}
    {f : ParsedFunction} :
    r.convert room path = .ok f ↔ r.toFunction path = f ∧ f.Fits room := by
  unfold convert toFunction
  cases r.body with
  | none =>
    constructor
    · intro h
      cases h
      exact ⟨rfl, fun body hbody => by cases hbody⟩
    · rintro ⟨rfl, -⟩
      rfl
  | some nodes =>
    dsimp only [Option.map_some]
    rw [bind_eq_ok]
    constructor
    · rintro ⟨es, hes, h⟩
      obtain ⟨rfl, hroom⟩ := NodeRecord.convertAll_eq_ok_iff.1 hes
      cases h
      refine ⟨rfl, fun body hbody => ?_⟩
      cases hbody
      exact hroom
    · rintro ⟨rfl, hfits⟩
      exact ⟨_, NodeRecord.convertAll_eq_ok_iff.2 ⟨rfl, hfits _ rfl⟩, rfl⟩

/-- Members of a list are converted one by one; each one that is, is converted into what it stands for. -/
theorem mapM_eq_ok_iff_map {α β ε : Type} {f : α → Except ε β} {g : α → β} {P : β → Prop}
    (h : ∀ {a b}, f a = .ok b ↔ g a = b ∧ P b) {l : List α} {bs : List β} :
    l.mapM f = .ok bs ↔ l.map g = bs ∧ ∀ b ∈ bs, P b := by
  rw [mapM_eq_ok_iff]
  simp only [h]
  constructor
  · intro hbs
    induction hbs with
    | nil => simp
    | cons hb _ ih =>
      obtain ⟨rfl, hP⟩ := hb
      obtain ⟨rfl, hPs⟩ := ih
      exact ⟨rfl, List.forall_mem_cons.2 ⟨hP, hPs⟩⟩
  · rintro ⟨rfl, hP⟩
    rw [List.forall₂_map_right_iff, List.forall₂_same]
    intro a ha
    exact ⟨rfl, hP _ (List.mem_map_of_mem ha)⟩

namespace UnitRecord

/-- A record is converted if there is room, and then into the unit that it stands for. -/
theorem convert_eq_ok_iff {room : Nat} {d : UnitRecord} {u : SourceUnit} :
    d.convert room = .ok u ↔ d.toUnit = u ∧ u.Fits room := by
  rw [convert, bind_eq_ok]
  simp only [mapM_eq_ok_iff_map FunctionRecord.convert_eq_ok_iff]
  constructor
  · rintro ⟨fs, ⟨rfl, hfits⟩, h⟩
    cases h
    exact ⟨rfl, hfits⟩
  · rintro ⟨rfl, hfits⟩
    exact ⟨_, ⟨rfl, hfits⟩, rfl⟩

theorem convert_eq_error_iff {room : Nat} {d : UnitRecord} :
    d.convert room = .error .tooDeep ↔ ¬ d.toUnit.Fits room := by
  cases hd : d.convert room with
  | ok u =>
    obtain ⟨rfl, hfits⟩ := convert_eq_ok_iff.1 hd
    simp [hfits]
  | error fault =>
    cases fault
    have hnot : ¬ d.toUnit.Fits room := by
      intro hfits
      rw [convert_eq_ok_iff.2 ⟨rfl, hfits⟩] at hd
      cases hd
    simp [hnot]

/-- **What conversion gives.** The units that come from records are those whose functions have the path
of the unit, protocols that are not empty and bodies that consist of nodes, and whose calls lack a target
only if they lack a callee; and whose nodes are not nested so deep that there is no room to convert them.
A record is refused if and only if its nodes are. Two records that are converted give the same unit only
if they differ in nothing but how they leave out a protocol or a target. -/
theorem convert_exact (room : Nat) :
    (∀ u : SourceUnit, (∃ d : UnitRecord, d.convert room = .ok u) ↔ u.Recorded ∧ u.Fits room) ∧
    (∀ d : UnitRecord, d.convert room = .error .tooDeep ↔ ¬ d.toUnit.Fits room) ∧
    ∀ d e : UnitRecord, ∀ u, d.convert room = .ok u → (e.convert room = .ok u ↔ d.Alike e) := by
  refine ⟨fun u => ?_, fun d => convert_eq_error_iff, fun d e u hd => ?_⟩
  · simp only [convert_eq_ok_iff, ← exists_toUnit_iff, exists_and_right]
  · obtain ⟨rfl, hfits⟩ := convert_eq_ok_iff.1 hd
    rw [convert_eq_ok_iff, ← toUnit_eq_iff]
    exact ⟨fun h => h.1.symm, fun h => ⟨h.symm, hfits⟩⟩

end UnitRecord

/-! ## Chains -/

/-- A chain of closures, one inside another. -/
def nestedClosures : Nat → List NodeRecord
  | 0 => []
  | n + 1 => [.mk "closure" 1 true none (nestedClosures n)]

theorem heights_nestedClosures (n : Nat) :
    BodyElement.heights (NodeRecord.toElements (nestedClosures n)) = n := by
  induction n with
  | zero => rfl
  | succ n ih =>
    simp [nestedClosures, NodeRecord.toElements, NodeRecord.toElement, BodyElement.heights,
      BodyElement.height, ih]

/-- A unit with one function, in which closures are nested. -/
def deepUnit (n : Nat) : UnitRecord :=
  { path := "a", functions := [{ name := "f", body := some (nestedClosures n) }] }

theorem fits_deepUnit_iff {n room : Nat} : (deepUnit n).toUnit.Fits room ↔ 2 * n + 1 ≤ room := by
  simp [SourceUnit.Fits, ParsedFunction.Fits, deepUnit, UnitRecord.toUnit, FunctionRecord.toFunction,
    heights_nestedClosures]

namespace UnitRecord

/-- Closures nested a few hundred deep are converted, with and without an empty protocol. -/
theorem convert_exact_deep :
    ∃ u, (deepUnit 496).convert conversionRoom = .ok u ∧
      UnitRecord.convert conversionRoom { deepUnit 496 with
        functions := [{ name := "f", protocol := some "", body := some (nestedClosures 496) }] } = .ok u := by
  obtain ⟨-, -, hsame⟩ := convert_exact conversionRoom
  have hconvert : (deepUnit 496).convert conversionRoom = .ok (deepUnit 496).toUnit :=
    convert_eq_ok_iff.2 ⟨rfl, fits_deepUnit_iff.2 (by decide)⟩
  refine ⟨_, hconvert, (hsame _ _ _ hconvert).2 ⟨rfl, rfl, rfl, ?_, .nil⟩⟩
  exact .cons ⟨rfl, Or.inr ⟨by simp, by simp⟩⟩ .nil

/-- Closures nested deeper make a unit that has all that is asked of one that comes from a record, and
yet comes from none. -/
theorem not_convert_deeper :
    (deepUnit 600).toUnit.Recorded ∧ (deepUnit 600).convert conversionRoom = .error .tooDeep ∧
      ¬ ∃ d : UnitRecord, d.convert conversionRoom = .ok (deepUnit 600).toUnit := by
  have hdeep : ¬ (deepUnit 600).toUnit.Fits conversionRoom := by
    rw [fits_deepUnit_iff]
    decide
  refine ⟨exists_toUnit_iff.1 ⟨_, rfl⟩, convert_eq_error_iff.2 hdeep, ?_⟩
  rintro ⟨d, hd⟩
  exact hdeep (convert_eq_ok_iff.1 hd).2

end UnitRecord
end AsyncMigration
