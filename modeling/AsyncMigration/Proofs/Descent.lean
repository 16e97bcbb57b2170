import AsyncMigration.Scan

/-!
# Scans by descent

The loops of a scan keep a stack. What they find can be said without one, by descending into the tree:
the first fault of a body, its closure depth and its patterns are defined here by recursion, and each
loop gives just that. The invariant is the same for all three: the entries of a list of elements are
done with as the recursion does the list, whatever lies below them on the stack.

* `checkBody_eq` — a check fails with the first fault.
* `closureDepthOf_of_sound` — the count gives the closure depth of a body without faults.
* `walkBody_of_sound` — the walk gives the patterns of a body without faults.
* `scanFunction_eq` — a scan by descent.
-/

namespace AsyncMigration

/-! ## The first fault -/

mutual

/-- The first fault of an element: its own, or else the first one below it. -/
def elementFault? : BodyElement → Option BodyFault
  | .stray v => some (.stray v)
  | .node kind line _ _ children =>
    if (NodeKind.ofName? kind).isNone then some (.unknownKind kind line)
    else if line < 1 then some (.invalidLine kind line)
    else firstFault? children

/-- The first fault in a list of elements. -/
def firstFault? : List BodyElement → Option BodyFault
  | [] => none
  | e :: es =>
    match elementFault? e with
    | some fault => some fault
    | none => firstFault? es

end

/-- A check that comes to a given end. -/
def verdict : Option BodyFault → Except BodyFault Unit
  | some fault => .error fault
  | none => .ok ()

/-- One turn of a check. -/
theorem visit_bodyCheck (e : BodyElement) :
    bodyCheck.visit () e = (checkElement e).map fun next => ((), next) := by
  simp only [bodyCheck]
  cases checkElement e <;> rfl

mutual

theorem run_bodyCheck_singleton (e : BodyElement) :
    bodyCheck.run ⟨(), [e].toArray⟩ = verdict (elementFault? e) := by
  rw [StackLoop.run_singleton, visit_bodyCheck]
  match e with
  | .stray v => rfl
  | .node kind line checked callee children =>
    simp only [checkElement, elementFault?]
    split
    · rfl
    split
    · rfl
    · exact run_bodyCheck children

/-- The elements are checked one after another, from left to right. -/
theorem run_bodyCheck (es : List BodyElement) :
    bodyCheck.run ⟨(), es.reverse.toArray⟩ = verdict (firstFault? es) := by
  match es with
  | [] => exact StackLoop.run_empty ()
  | e :: es =>
    rw [List.reverse_cons, StackLoop.run_toArray_append, run_bodyCheck_singleton e, firstFault?]
    cases elementFault? e with
    | some fault => rfl
    | none => exact run_bodyCheck es

end

/-- A check fails with the first fault. -/
theorem checkBody_eq (body : List BodyElement) : checkBody body = verdict (firstFault? body) :=
  run_bodyCheck body

theorem firstFault?_of_elementFault? {kind : String} {line : Int} {checked : Bool}
    {callee : Option String} {children : List BodyElement}
    (h : elementFault? (.node kind line checked callee children) = none) :
    firstFault? children = none := by
  unfold elementFault? at h
  split at h
  · cases h
  split at h
  · cases h
  · exact h

theorem firstFault?_cons_eq_none_iff {e : BodyElement} {es : List BodyElement} :
    firstFault? (e :: es) = none ↔ elementFault? e = none ∧ firstFault? es = none := by
  rw [firstFault?]
  cases elementFault? e <;> simp

/-! ## The closure depth -/

mutual

/-- The greatest number of closures on a way down from an element. -/
def elementClosureDepth : BodyElement → Nat
  | .stray _ => 0
  | .node kind _ _ _ children =>
    if NodeKind.ofName? kind = some .closure then closureDepth children + 1
    else closureDepth children

/-- The greatest number of closures on a way down from one of the elements. -/
def closureDepth : List BodyElement → Nat
  | [] => 0
  | e :: es => max (elementClosureDepth e) (closureDepth es)

end

-- what has been found is never less deep than the place that the count has come to
mutual

theorem run_closureCount_singleton {above deepest : Nat} (habove : above ≤ deepest) (e : BodyElement)
    (hsound : elementFault? e = none) :
    closureCount.run ⟨deepest, [(e, above)].toArray⟩
      = .ok (max deepest (above + elementClosureDepth e)) := by
  rw [StackLoop.run_singleton]
  match e with
  | .stray v => simp [elementFault?] at hsound
  | .node kind line checked callee children =>
    have hchildren := firstFault?_of_elementFault? hsound
    simp only [closureCount, countClosures, elementClosureDepth]
    split
    · refine (run_closureCount (Nat.le_max_right deepest (above + 1)) children hchildren).trans ?_
      congr 1
      omega
    · refine (run_closureCount (Nat.le_max_right deepest above) children hchildren).trans ?_
      congr 1
      omega

/-- The elements are looked at one after another, from right to left, and the deepest one counts. -/
theorem run_closureCount {above deepest : Nat} (habove : above ≤ deepest) (es : List BodyElement)
    (hsound : firstFault? es = none) :
    closureCount.run ⟨deepest, (es.map (·, above)).toArray⟩
      = .ok (max deepest (above + closureDepth es)) := by
  match es with
  | [] =>
    refine (StackLoop.run_empty deepest).trans ?_
    rw [closureDepth, Nat.add_zero, Nat.max_eq_left habove]
  | e :: es =>
    obtain ⟨he, hes⟩ := firstFault?_cons_eq_none_iff.1 hsound
    have hrest : above ≤ max deepest (above + closureDepth es) := by omega
    rw [List.map_cons, ← List.singleton_append, StackLoop.run_toArray_append,
      run_closureCount habove es hes]
    refine (run_closureCount_singleton hrest e he).trans ?_
    rw [closureDepth]
    congr 1
    omega

end

/-- The count gives the closure depth of a body without faults. -/
theorem closureDepthOf_of_sound {body : List BodyElement} (hsound : firstFault? body = none) :
    closureDepthOf (some body) = .ok (closureDepth body) := by
  rw [closureDepthOf, run_closureCount (Nat.le_refl 0) body hsound, Nat.zero_add, Nat.zero_max]
  rfl

/-! ## The patterns -/

mutual

/-- The patterns of an element that stands below `depth` closures and suspensions, of which
`suspensions` are suspensions. -/
def elementPatterns (function : String) (depth suspensions : Nat) : BodyElement → List Pattern
  | .stray _ => []
  | .node kind line checked callee children =>
    match NodeKind.ofName? kind with
    | some .suspension =>
      suspensionPatterns function line checked callee depth suspensions
        ++ forestPatterns function (depth + 1) (suspensions + 1) children
    | some .await =>
      ⟨.nativeStructured, function, line, depth, callee⟩
        :: forestPatterns function depth suspensions children
    | some .closure => forestPatterns function (depth + 1) suspensions children
    | _ => forestPatterns function depth suspensions children

/-- The patterns of a list of elements, in order. -/
def forestPatterns (function : String) (depth suspensions : Nat) : List BodyElement → List Pattern
  | [] => []
  | e :: es =>
    elementPatterns function depth suspensions e ++ forestPatterns function depth suspensions es

end

theorem appendList_append {α : Type} (found : Array α) (ps qs : List α) :
    found ++ ps ++ qs = found ++ (ps ++ qs) := by
  apply Array.toList_inj.1
  simp

mutual

theorem run_patternWalk_singleton (function : String) (depth suspensions : Nat)
    (found : Array Pattern) (e : BodyElement) (hsound : elementFault? e = none) :
    (patternWalk function).run ⟨found, [⟨e, depth, suspensions⟩].toArray⟩
      = .ok (found ++ elementPatterns function depth suspensions e) := by
  rw [StackLoop.run_singleton]
  match e with
  | .stray v => simp [elementFault?] at hsound
  | .node kind line checked callee children =>
    have hchildren := firstFault?_of_elementFault? hsound
    have hbelow := fun depth suspensions found =>
      run_patternWalk function depth suspensions found children hchildren
    show (patternWalk function).run
      ⟨found ++ nodePatterns function kind line checked callee depth suspensions,
        (children.reverse.map (placeBelow kind depth suspensions)).toArray⟩ = _
    unfold nodePatterns placeBelow elementPatterns
    cases hkind : NodeKind.ofName? kind with
    | none => simp only [hbelow, Array.appendList_nil]
    | some k =>
      cases k <;>
        simp only [hbelow, Array.appendList_nil, appendList_append, List.singleton_append]

/-- The elements are walked one after another, from left to right, each with the counters of its own
place. -/
theorem run_patternWalk (function : String) (depth suspensions : Nat) (found : Array Pattern)
    (es : List BodyElement) (hsound : firstFault? es = none) :
    (patternWalk function).run ⟨found, (es.reverse.map (⟨·, depth, suspensions⟩)).toArray⟩
      = .ok (found ++ forestPatterns function depth suspensions es) := by
  match es with
  | [] =>
    refine (StackLoop.run_empty found).trans ?_
    simp [forestPatterns]
  | e :: es =>
    obtain ⟨he, hes⟩ := firstFault?_cons_eq_none_iff.1 hsound
    rw [List.reverse_cons, List.map_append, List.map_singleton, StackLoop.run_toArray_append,
      run_patternWalk_singleton function depth suspensions found e he]
    refine (run_patternWalk function depth suspensions _ es hes).trans ?_
    rw [forestPatterns, appendList_append]

end

/-- The walk gives the patterns of a body without faults. -/
theorem walkBody_of_sound (function : String) {body : List BodyElement}
    (hsound : firstFault? body = none) :
    walkBody function body = .ok (forestPatterns function 0 0 body) := by
  rw [walkBody, run_patternWalk function 0 0 #[] body hsound]
  simp [Except.map]

/-! ## Scans -/

/-- A scan by descent. -/
theorem scanFunction_eq (f : ParsedFunction) :
    scanFunction f = match f.body with
      | none => .error .unavailable
      | some body =>
        match firstFault? body with
        | some fault => .error fault
        | none => .ok (declarationPatterns f.signature (closureDepth body)
            ++ forestPatterns f.signature.name 0 0 body) := by
  unfold scanFunction
  cases f.body with
  | none => rfl
  | some body =>
    simp only [checkBody_eq]
    cases hfault : firstFault? body with
    | some fault => rfl
    | none =>
      rw [closureDepthOf_of_sound hfault, walkBody_of_sound f.signature.name hfault]
      rfl

end AsyncMigration
