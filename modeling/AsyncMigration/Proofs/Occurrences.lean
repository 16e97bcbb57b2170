import AsyncMigration.Proofs.Scans

/-!
# Patterns in source order

Everything that stands in a body is listed from left to right, each element before what it holds and
each together with the elements that it stands in. A scan that finds no fault gives the patterns that
the elements of this list show one after another; how deep a pattern is can be read off the elements
around it.

* `occurrences` — all elements of a body in source order.
* `Occurrence.patterns` — what an element shows by itself.
* `forestPatterns_eq` — the patterns of a body are those of its elements.
* `closureDepth_deepest` — the closure depth is the greatest number of closures on a way down.
* `scan_source_order` — what a scan of a sound body gives.
-/

namespace AsyncMigration

/-! ## Elements in their places -/

/-- An element in its place: `enclosing` are the elements that it stands in, the innermost first. -/
structure Occurrence where
  element : BodyElement
  enclosing : List BodyElement

mutual

/-- An element and all that it holds, from left to right, each element before what it holds. -/
def elementOccurrences (enclosing : List BodyElement) : BodyElement → List Occurrence
  | .stray v => [⟨.stray v, enclosing⟩]
  | .node kind line checked callee children =>
    ⟨.node kind line checked callee children, enclosing⟩
      :: forestOccurrences (.node kind line checked callee children :: enclosing) children

/-- The elements of a list, each with all that it holds. -/
def forestOccurrences (enclosing : List BodyElement) : List BodyElement → List Occurrence
  | [] => []
  | e :: es => elementOccurrences enclosing e ++ forestOccurrences enclosing es

end

/-- Everything that stands in a body, in source order. -/
def occurrences (body : List BodyElement) : List Occurrence := forestOccurrences [] body

/-! ## What an element shows by itself -/

/-- Whether an element is a node of one of the given kinds. -/
def BodyElement.isOf (kinds : List NodeKind) : BodyElement → Bool
  | .stray _ => false
  | .node kind _ _ _ _ => (NodeKind.ofName? kind).any kinds.contains

/-- The number of nodes of the given kinds in a list. -/
def countOf (kinds : List NodeKind) (es : List BodyElement) : Nat := es.countP (·.isOf kinds)

@[simp] theorem countOf_nil (kinds : List NodeKind) : countOf kinds [] = 0 := rfl

@[simp] theorem countOf_stray (kinds : List NodeKind) (v : Stray) (es : List BodyElement) :
    countOf kinds (.stray v :: es) = countOf kinds es := List.countP_cons

@[simp] theorem countOf_node (kinds : List NodeKind) (kind : String) (line : Int) (checked : Bool)
    (callee : Option String) (children es : List BodyElement) :
    countOf kinds (.node kind line checked callee children :: es)
      = countOf kinds es + if (NodeKind.ofName? kind).any kinds.contains then 1 else 0 :=
  List.countP_cons

namespace Occurrence

/-- The number of closures on the way down to an element, the element included. -/
def closures (o : Occurrence) : Nat := countOf [.closure] (o.element :: o.enclosing)

/-- The patterns that an element shows. A suspension shows how many closures and suspensions are
around it, and if there are suspensions around it also how many these are. An await shows that the
function is natively structured. -/
def patterns (function : String) (o : Occurrence) : List Pattern :=
  match o.element with
  | .stray _ => []
  | .node kind line checked callee _ =>
    match NodeKind.ofName? kind with
    | some .suspension =>
      ⟨if checked then .suspensionChecked else .suspensionUncheckedUnsafe, function, line,
          countOf [.closure, .suspension] o.enclosing, callee⟩
        :: if countOf [.suspension] o.enclosing = 0 then []
          else [⟨.nestedSuspension, function, line, countOf [.suspension] o.enclosing, callee⟩]
    | some .await =>
      [⟨.nativeStructured, function, line, countOf [.closure, .suspension] o.enclosing, callee⟩]
    | _ => []

end Occurrence

/-! ## The patterns of a body -/

theorem suspensionPatterns_eq (function : String) (line : Int) (checked : Bool)
    (callee : Option String) (depth suspensions : Nat) :
    suspensionPatterns function line checked callee depth suspensions =
      ⟨if checked then .suspensionChecked else .suspensionUncheckedUnsafe, function, line, depth, callee⟩
        :: if suspensions = 0 then []
          else [⟨.nestedSuspension, function, line, suspensions, callee⟩] := by
  unfold suspensionPatterns
  by_cases hnone : suspensions = 0 <;> simp [hnone]

-- the two counters of a scan are those of the elements around the place that it has come to
mutual

theorem elementPatterns_eq (function : String) (enclosing : List BodyElement) (e : BodyElement) :
    elementPatterns function (countOf [.closure, .suspension] enclosing)
        (countOf [.suspension] enclosing) e
      = (elementOccurrences enclosing e).flatMap (·.patterns function) := by
  match e with
  | .stray v => simp [elementPatterns, elementOccurrences, Occurrence.patterns]
  | .node kind line checked callee children =>
    have hchildren := forestPatterns_eq function (.node kind line checked callee children :: enclosing)
      children
    unfold elementPatterns elementOccurrences
    rw [List.flatMap_cons, ← hchildren]
    unfold Occurrence.patterns
    cases hkind : NodeKind.ofName? kind with
    | none => simp [hkind]
    | some k => cases k <;> simp [hkind, suspensionPatterns_eq]

/-- The patterns of a body are those that its elements show, in source order. -/
theorem forestPatterns_eq (function : String) (enclosing es : List BodyElement) :
    forestPatterns function (countOf [.closure, .suspension] enclosing)
        (countOf [.suspension] enclosing) es
      = (forestOccurrences enclosing es).flatMap (·.patterns function) := by
  match es with
  | [] => rfl
  | e :: es =>
    unfold forestPatterns forestOccurrences
    rw [forestPatterns_eq function enclosing es, elementPatterns_eq function enclosing e,
      List.flatMap_append]

end

/-! ## The deepest closure -/

/-- `d` closures further down than `above` is the deepest place of a list that closures lead to. -/
structure DeepestBelow (above : Nat) (os : List Occurrence) (d : Nat) : Prop where
  le : ∀ o ∈ os, o.closures ≤ above + d
  attained : d = 0 ∨ ∃ o ∈ os, o.closures = above + d

theorem DeepestBelow.append {above d d' : Nat} {os os' : List Occurrence}
    (h : DeepestBelow above os d) (h' : DeepestBelow above os' d') :
    DeepestBelow above (os ++ os') (max d d') := by
  refine ⟨fun o ho => ?_, ?_⟩
  · rcases List.mem_append.1 ho with ho | ho
    · have := h.le o ho
      omega
    · have := h'.le o ho
      omega
  · rcases Nat.le_total d d' with hle | hle
    · rw [Nat.max_eq_right hle]
      refine h'.attained.imp_right ?_
      rintro ⟨o, ho, hdeep⟩
      exact ⟨o, List.mem_append_right _ ho, hdeep⟩
    · rw [Nat.max_eq_left hle]
      refine h.attained.imp_right ?_
      rintro ⟨o, ho, hdeep⟩
      exact ⟨o, List.mem_append_left _ ho, hdeep⟩

mutual

theorem elementClosureDepth_deepest (enclosing : List BodyElement) (e : BodyElement) :
    DeepestBelow (countOf [.closure] enclosing) (elementOccurrences enclosing e)
      (elementClosureDepth e) := by
  match e with
  | .stray v =>
    refine ⟨?_, Or.inl rfl⟩
    simp [elementOccurrences, Occurrence.closures]
  | .node kind line checked callee children =>
    have hbelow := closureDepth_deepest (.node kind line checked callee children :: enclosing) children
    -- the node counts for itself and for all that it holds
    have hown : countOf [.closure] (.node kind line checked callee children :: enclosing)
        + closureDepth children = countOf [.closure] enclosing
          + elementClosureDepth (.node kind line checked callee children) := by
      unfold elementClosureDepth
      cases hkind : NodeKind.ofName? kind with
      | none => simp [hkind]
      | some k =>
        cases k <;> simp [hkind]
        omega
    unfold elementOccurrences
    refine ⟨fun o ho => ?_, Or.inr ?_⟩
    · rw [← hown]
      rcases List.mem_cons.1 ho with rfl | ho
      · exact Nat.le_add_right _ _
      · exact hbelow.le o ho
    · rw [← hown]
      rcases hbelow.attained with hzero | ⟨o, ho, hdeep⟩
      · rw [hzero]
        exact ⟨_, List.mem_cons_self, rfl⟩
      · exact ⟨o, List.mem_cons_of_mem _ ho, hdeep⟩

/-- The closure depth is the greatest number of closures on a way down from one of the elements. -/
theorem closureDepth_deepest (enclosing es : List BodyElement) :
    DeepestBelow (countOf [.closure] enclosing) (forestOccurrences enclosing es) (closureDepth es) := by
  match es with
  | [] => exact ⟨by simp [forestOccurrences], Or.inl rfl⟩
  | e :: es =>
    exact (elementClosureDepth_deepest enclosing e).append (closureDepth_deepest enclosing es)

end

/-! ## Scans of sound bodies -/

/-- **A scan lists what stands in a body, in source order.** A body in which nothing is malformed is
scanned, whatever its shape. Found are, in this order: that the function is natively structured, if it
is declared so; its callbacks, each one deeper than the deepest closure is; and what the elements of
the body show, from left to right and each element before what it holds. How deep the deepest closure
is can also be asked for by itself. -/
theorem scan_source_order (f : ParsedFunction) (body : List BodyElement) (hbody : f.body = some body)
    (hsound : ∀ x, OccursIn x body → ¬ x.Malformed) :
    ∃ deepest : Nat,
      (∀ o ∈ occurrences body, o.closures ≤ deepest) ∧
      (deepest = 0 ∨ ∃ o ∈ occurrences body, o.closures = deepest) ∧
      closureDepthOf f.body = .ok deepest ∧
      scanFunction f = .ok (
        (if f.signature.structured then
          [⟨.nativeStructured, f.signature.name, f.signature.line, 0, none⟩] else [])
        ++ (f.signature.callbacks.map fun _ =>
          ⟨.callbackParameter, f.signature.name, f.signature.line, 1 + deepest, none⟩)
        ++ (occurrences body).flatMap (·.patterns f.signature.name)) := by
  obtain ⟨hle, hattained⟩ := closureDepth_deepest [] body
  have hfault : firstFault? body = none := (firstFault?_eq_none_iff body).2 hsound
  have hpatterns : forestPatterns f.signature.name 0 0 body
      = (occurrences body).flatMap (·.patterns f.signature.name) :=
    forestPatterns_eq f.signature.name [] body
  refine ⟨closureDepth body, ?_, ?_, ?_, ?_⟩
  · simpa [occurrences] using hle
  · simpa [occurrences] using hattained
  · rw [hbody, closureDepthOf_of_sound hfault]
  · rw [scanFunction_eq, hbody]
    dsimp only
    rw [hfault]
    dsimp only
    rw [hpatterns]
    rfl

/-- A closure with a suspension that holds an await, a closure and another suspension, and an await
after them. -/
def layeredBody : List BodyElement :=
  [.node "closure" 2 true none
    [.node "suspension" 3 true (some "g")
      [.node "await" 4 true none [],
       .node "closure" 5 true none [.node "suspension" 6 false none []]]],
   .node "await" 7 true (some "h") []]

/-- A scan through closures and suspensions in each other. -/
theorem scan_source_order_layered :
    (∀ x, OccursIn x layeredBody → ¬ x.Malformed) ∧
    closureDepthOf (some layeredBody) = .ok 2 ∧
    scanFunction { signature := { name := "f", params := [⟨"k", true⟩], structured := true }
                   body := some layeredBody }
      = .ok [⟨.nativeStructured, "f", 1, 0, none⟩, ⟨.callbackParameter, "f", 1, 3, none⟩,
          ⟨.suspensionChecked, "f", 3, 1, some "g"⟩, ⟨.nativeStructured, "f", 4, 2, none⟩,
          ⟨.suspensionUncheckedUnsafe, "f", 6, 3, none⟩, ⟨.nestedSuspension, "f", 6, 1, none⟩,
          ⟨.nativeStructured, "f", 7, 0, some "h"⟩] := by
  have hsound : ∀ x, OccursIn x layeredBody → ¬ x.Malformed :=
    (firstFault?_eq_none_iff layeredBody).1 rfl
  obtain ⟨deepest, hle, hattained, hcount, hscan⟩ := scan_source_order
    { signature := { name := "f", params := [⟨"k", true⟩], structured := true }
      body := some layeredBody } layeredBody rfl hsound
  have hclosures : (occurrences layeredBody).map (·.closures) = [1, 1, 1, 2, 2, 0] := rfl
  have hdeepest : deepest = 2 := by
    have hmem : ∀ n, n ∈ [1, 1, 1, 2, 2, 0] ↔ ∃ o ∈ occurrences layeredBody, o.closures = n := by
      intro n
      rw [← hclosures, List.mem_map]
    have htwo : 2 ≤ deepest := by
      obtain ⟨o, ho, hdeep⟩ := (hmem 2).1 (by decide)
      exact hdeep ▸ hle o ho
    rcases hattained with hzero | hattained
    · omega
    · have hlisted := (hmem deepest).2 hattained
      simp only [List.mem_cons, List.not_mem_nil, or_false] at hlisted
      omega
  exact ⟨hsound, hdeepest ▸ hcount, by rw [hscan, hdeepest]; rfl⟩

end AsyncMigration
