import AsyncMigration.Proofs.Scans

/-!
# Nodes that only group

Blocks and calls hold other nodes and show nothing by themselves. Any of them, at any depth, can give
way to what it holds, in place and in order, and a scan finds the same patterns at the same depths.

* `Spliced` — a body in which some blocks and calls have given way.
* `Spliced.closureDepth_eq`, `Spliced.forestPatterns_eq` — neither depths nor patterns change.
* `grouping_transparent` — what a scan says of such a body.
-/

namespace AsyncMigration

/-- A body, and the body after some blocks and calls have given way to what they hold. Each node stays
or gives way by itself, whatever becomes of the nodes around it, below it and after it. -/
inductive Spliced : List BodyElement → List BodyElement → Prop
  | nil : Spliced [] []
  | keep {kind : String} {line : Int} {checked : Bool} {callee : Option String}
      {children children' es es' : List BodyElement} (hchildren : Spliced children children')
      (hrest : Spliced es es') :
      Spliced (.node kind line checked callee children :: es)
        (.node kind line checked callee children' :: es')
  | giveWay {kind : String} {line : Int} {checked : Bool} {callee : Option String}
      {children children' es es' : List BodyElement} (hkind : kind = "block" ∨ kind = "call")
      (hchildren : Spliced children children') (hrest : Spliced es es') :
      Spliced (.node kind line checked callee children :: es) (children' ++ es')

/-! ## Bodies one after another -/

theorem firstFault?_node_eq_none_iff {kind : String} {line : Int} {checked : Bool}
    {callee : Option String} {children es : List BodyElement} :
    firstFault? (.node kind line checked callee children :: es) = none ↔
      NodeKind.ofName? kind ≠ none ∧ 1 ≤ line ∧ firstFault? children = none ∧ firstFault? es = none := by
  rw [firstFault?, elementFault?]
  by_cases hkind : NodeKind.ofName? kind = none
  · simp [hkind]
  · by_cases hline : line < 1
    · have hinvalid : ¬ 1 ≤ line := by omega
      simp [hkind, hline, hinvalid]
    · have hvalid : 1 ≤ line := by omega
      cases firstFault? children <;> simp [hkind, hline, hvalid]

theorem firstFault?_append (es fs : List BodyElement) :
    firstFault? (es ++ fs) = (firstFault? es).or (firstFault? fs) := by
  induction es with
  | nil => simp [firstFault?]
  | cons e es ih =>
    simp only [List.cons_append, firstFault?, ih]
    cases elementFault? e <;> simp

theorem closureDepth_append (es fs : List BodyElement) :
    closureDepth (es ++ fs) = max (closureDepth es) (closureDepth fs) := by
  induction es with
  | nil => simp [closureDepth]
  | cons e es ih => simp only [List.cons_append, closureDepth, ih, Nat.max_assoc]

theorem forestPatterns_append (function : String) (depth suspensions : Nat)
    (es fs : List BodyElement) :
    forestPatterns function depth suspensions (es ++ fs)
      = forestPatterns function depth suspensions es
          ++ forestPatterns function depth suspensions fs := by
  induction es with
  | nil => simp [forestPatterns]
  | cons e es ih => simp only [List.cons_append, forestPatterns, ih, List.append_assoc]

/-! ## One node that groups -/

section

variable {kind : String} (hkind : kind = "block" ∨ kind = "call") (line : Int) (checked : Bool)
  (callee : Option String) (children : List BodyElement)
include hkind

theorem elementClosureDepth_of_groups :
    elementClosureDepth (.node kind line checked callee children) = closureDepth children := by
  rcases hkind with rfl | rfl <;> simp [elementClosureDepth, NodeKind.ofName?]

theorem elementPatterns_of_groups (function : String) (depth suspensions : Nat) :
    elementPatterns function depth suspensions (.node kind line checked callee children)
      = forestPatterns function depth suspensions children := by
  rcases hkind with rfl | rfl <;> simp [elementPatterns, NodeKind.ofName?]

end

/-! ## Bodies in which nodes have given way -/

namespace Spliced

variable {es es' : List BodyElement}

/-- A node that is sound has sound children, and they are all that is left of it if it gives way. -/
theorem firstFault?_eq_none (h : Spliced es es') (hsound : firstFault? es = none) :
    firstFault? es' = none := by
  induction h with
  | nil => exact hsound
  | keep _ _ ihchildren ihrest =>
    obtain ⟨hkind, hline, hchildren, hrest⟩ := firstFault?_node_eq_none_iff.1 hsound
    exact firstFault?_node_eq_none_iff.2 ⟨hkind, hline, ihchildren hchildren, ihrest hrest⟩
  | giveWay _ _ _ ihchildren ihrest =>
    obtain ⟨-, -, hchildren, hrest⟩ := firstFault?_node_eq_none_iff.1 hsound
    rw [firstFault?_append, ihchildren hchildren, ihrest hrest]
    rfl

theorem closureDepth_eq (h : Spliced es es') : closureDepth es' = closureDepth es := by
  induction h with
  | nil => rfl
  | keep _ _ ihchildren ihrest =>
    simp only [closureDepth, elementClosureDepth, ihchildren, ihrest]
  | giveWay hkind _ _ ihchildren ihrest =>
    rw [closureDepth_append, ihchildren, ihrest]
    simp only [closureDepth, elementClosureDepth_of_groups hkind]

/-- The counters of a scan are the same below a node that groups as they are around it. -/
theorem forestPatterns_eq (h : Spliced es es') (function : String) (depth suspensions : Nat) :
    forestPatterns function depth suspensions es' = forestPatterns function depth suspensions es := by
  induction h generalizing depth suspensions with
  | nil => rfl
  | keep _ _ ihchildren ihrest =>
    simp only [forestPatterns, elementPatterns, ihchildren, ihrest]
  | giveWay hkind _ _ ihchildren ihrest =>
    rw [forestPatterns_append, ihchildren, ihrest]
    simp only [forestPatterns, elementPatterns_of_groups hkind]

end Spliced

/-- **Blocks and calls are transparent.** Whatever blocks and calls of a sound body give way to what
they hold, a scan of the function finds the same patterns, and the closures of the body are as deep as
before. -/
theorem grouping_transparent (f : ParsedFunction) (body body' : List BodyElement)
    (hbody : f.body = some body) (hsound : ∀ x, OccursIn x body → ¬ x.Malformed)
    (hspliced : Spliced body body') :
    (∃ patterns, scanFunction f = .ok patterns ∧
      scanFunction { f with body := some body' } = .ok patterns) ∧
    ∃ depth, closureDepthOf (some body) = .ok depth ∧ closureDepthOf (some body') = .ok depth := by
  have hfault : firstFault? body = none := (firstFault?_eq_none_iff body).2 hsound
  have hfault' : firstFault? body' = none := hspliced.firstFault?_eq_none hfault
  constructor
  · refine ⟨declarationPatterns f.signature (closureDepth body)
      ++ forestPatterns f.signature.name 0 0 body, ?_, ?_⟩
    · simp [scanFunction_eq, hbody, hfault]
    · simp [scanFunction_eq, hfault', hspliced.closureDepth_eq, hspliced.forestPatterns_eq]
  · refine ⟨closureDepth body, closureDepthOf_of_sound hfault, ?_⟩
    rw [closureDepthOf_of_sound hfault', hspliced.closureDepth_eq]

/-- A block around a closure and a call; in the closure a block that holds a call, in that call two
suspensions, the second in a block inside the first. -/
def groupedBody : List BodyElement :=
  [.node "block" 1 true none
    [.node "closure" 2 true none
      [.node "block" 3 true none
        [.node "call" 4 true (some "h")
          [.node "suspension" 5 true (some "g")
            [.node "block" 6 true none [.node "suspension" 7 false none []]],
           .node "await" 8 true none []]]],
     .node "call" 9 true none []],
   .node "await" 10 true (some "h") []]

/-- The same body without the outermost block, the call in the closure, the block between the
suspensions and the call that holds nothing; the block in the closure is still there. -/
def lessGroupedBody : List BodyElement :=
  [.node "closure" 2 true none
    [.node "block" 3 true none
      [.node "suspension" 5 true (some "g") [.node "suspension" 7 false none []],
       .node "await" 8 true none []]],
   .node "await" 10 true (some "h") []]

/-- Four nodes at several depths give way and one stays. -/
theorem grouping_transparent_partly :
    Spliced groupedBody lessGroupedBody ∧
    ∃ patterns,
      scanFunction { signature := { name := "f", params := [⟨"k", true⟩] }, body := some groupedBody }
        = .ok patterns ∧
      scanFunction { signature := { name := "f", params := [⟨"k", true⟩] }
                     body := some lessGroupedBody } = .ok patterns ∧
      patterns = [⟨.callbackParameter, "f", 1, 2, none⟩, ⟨.suspensionChecked, "f", 5, 1, some "g"⟩,
        ⟨.suspensionUncheckedUnsafe, "f", 7, 2, none⟩, ⟨.nestedSuspension, "f", 7, 1, none⟩,
        ⟨.nativeStructured, "f", 8, 1, none⟩, ⟨.nativeStructured, "f", 10, 0, some "h"⟩] := by
  have hspliced : Spliced groupedBody lessGroupedBody := by
    refine .giveWay (Or.inl rfl) (.keep (.keep ?_ .nil) (.giveWay (Or.inr rfl) .nil .nil)) (.keep .nil .nil)
    exact .giveWay (Or.inr rfl)
      (.keep (.giveWay (Or.inl rfl) (.keep .nil .nil) .nil) (.keep .nil .nil)) .nil
  have hsound : ∀ x, OccursIn x groupedBody → ¬ x.Malformed :=
    (firstFault?_eq_none_iff groupedBody).1 rfl
  obtain ⟨⟨patterns, hscan, hscan'⟩, -⟩ := grouping_transparent
    { signature := { name := "f", params := [⟨"k", true⟩] }, body := some groupedBody }
    groupedBody lessGroupedBody rfl hsound hspliced
  refine ⟨hspliced, patterns, hscan, hscan', ?_⟩
  rw [scanFunction_eq] at hscan
  exact Except.ok.inj (hscan.symm.trans rfl)

end AsyncMigration
