import AsyncMigration.Number.Numeral
import AsyncMigration.Pattern
import AsyncMigration.SourceUnit
import AsyncMigration.StackLoop

/-!
# Scanning function bodies

A scan reads the body tree of a function and lists its asynchronous patterns in source order. A
body is scanned only if it is sound throughout: it is checked first, up to the first fault. Bodies can
be deeper than calls can be nested, so all of this is done by loops over a stack.

| here | in `riprap.analysis.patterns` |
| --- | --- |
| `bodyCheck`, `checkBody` | `_validate` |
| `closureCount`, `closureDepthOf` | `closure_depth` |
| `patternWalk`, `walkBody` | `_walk` |
| `scanFunction`, `ParsedFunction.scan` | `scan_function` |
| `SourceUnit.scanOf`, `SourceUnit.scan`, `SourceUnit.tryScan` | `scan_unit` |
-/

namespace AsyncMigration

/-- Why a body cannot be scanned. -/
inductive BodyFault where
  | unavailable
  | stray (value : Stray)
  | unknownKind (kind : String) (line : Int)
  | invalidLine (kind : String) (line : Int)
deriving DecidableEq, Repr

/-- The fault in words, its numbers in full. -/
def BodyFault.message : BodyFault → String
  | unavailable => "function body unavailable"
  | stray v => "unexpected body element " ++ v.shown
  | unknownKind kind line =>
    "unknown node kind " ++ Text.quoted kind ++ " at line " ++ toString line
  | invalidLine kind line => kind ++ " node has invalid line " ++ toString line

/-- The integers that are printed where the fault is put in words. -/
def BodyFault.printed : BodyFault → List Int
  | unavailable => []
  | stray v => v.printed
  | unknownKind _ line | invalidLine _ line => [line]

mutual

/-- The number of elements of which an element consists. -/
def BodyElement.weight : BodyElement → Nat
  | .stray _ => 1
  | .node _ _ _ _ children => BodyElement.weights children + 1

/-- The number of elements of which a list of elements consists. -/
def BodyElement.weights : List BodyElement → Nat
  | [] => 0
  | e :: es => e.weight + BodyElement.weights es

end

theorem loadOf_weight (es : List BodyElement) :
    loadOf BodyElement.weight es = BodyElement.weights es := by
  induction es with
  | nil => simp [loadOf, BodyElement.weights]
  | cons e es ih => simp only [loadOf, BodyElement.weights, ih]

/-! ## Checks -/

/-- Looks at an element and goes on to those that it holds, from left to right. -/
def checkElement : BodyElement → Except BodyFault (List BodyElement)
  | .stray v => .error (.stray v)
  | .node kind line _ _ children =>
    if (NodeKind.ofName? kind).isNone then .error (.unknownKind kind line)
    else if line < 1 then .error (.invalidLine kind line)
    else .ok children.reverse

theorem load_checkElement {e : BodyElement} {next : List BodyElement} (h : checkElement e = .ok next) :
    loadOf BodyElement.weight next < e.weight := by
  cases e with
  | stray v => cases h
  | node kind line checked callee children =>
    simp only [checkElement] at h
    split at h
    · cases h
    split at h
    · cases h
    · cases h
      rw [loadOf_reverse, loadOf_weight, BodyElement.weight]
      exact Nat.lt_succ_self _

/-- The loop that looks for a fault. -/
def bodyCheck : StackLoop BodyElement Unit BodyFault where
  visit _ e :=
    match checkElement e with
    | .error fault => .error fault
    | .ok next => .ok ((), next)
  weight := BodyElement.weight
  outweighs := by
    intro _ _ e next h
    split at h
    · cases h
    · next hnext =>
      cases h
      exact load_checkElement hnext

/-- Checks a body; the first element is looked at first. -/
def checkBody (body : List BodyElement) : Except BodyFault Unit :=
  bodyCheck.run ⟨(), body.reverse.toArray⟩

/-! ## Closures -/

/-- Why closures cannot be counted. -/
inductive DepthFault where
  | unavailable
  | stray (value : Stray)
deriving DecidableEq, Repr

/-- The fault in words. -/
def DepthFault.message : DepthFault → String
  | unavailable => "'" ++ Stray.nothing.typeName ++ "' object is not iterable"
  | stray v => "'" ++ v.typeName ++ "' object has no attribute 'kind'"

/-- Counts the closures down to an element that stands below `above` of them. The greatest number is
kept; what the element holds is looked at from right to left. -/
def countClosures (deepest : Nat) : BodyElement × Nat → Except Stray (Nat × List (BodyElement × Nat))
  | (.stray v, _) => .error v
  | (.node kind _ _ _ children, above) =>
    let depth := if NodeKind.ofName? kind = some .closure then above + 1 else above
    .ok (max deepest depth, children.map (·, depth))

/-- The loop that looks for the deepest closure. -/
def closureCount : StackLoop (BodyElement × Nat) Nat Stray where
  visit := countClosures
  weight x := x.1.weight
  outweighs := by
    intro deepest _ x next h
    obtain ⟨e, above⟩ := x
    cases e with
    | stray v => cases h
    | node kind line checked callee children =>
      cases h
      rw [loadOf_map, loadOf_weight, BodyElement.weight]
      exact Nat.lt_succ_self _

/-- The closure depth of a body that has not been checked; its last element is looked at first. -/
def closureDepthOf : Option (List BodyElement) → Except DepthFault Nat
  | none => .error .unavailable
  | some body => (closureCount.run ⟨0, (body.map (·, 0)).toArray⟩).mapError .stray

/-! ## Patterns -/

/-- An element that stands below `depth` closures and suspensions, of which `suspensions` are
suspensions. -/
structure Place where
  element : BodyElement
  depth : Nat
  suspensions : Nat

/-- A suspension at `depth` closures and suspensions, below `suspensions` suspensions. -/
def suspensionPatterns (function : String) (line : Int) (checked : Bool) (callee : Option String)
    (depth suspensions : Nat) : List Pattern :=
  let kind : PatternKind := if checked then .suspensionChecked else .suspensionUncheckedUnsafe
  let here : Pattern := ⟨kind, function, line, depth, callee⟩
  if suspensions = 0 then [here]
  else [here, ⟨.nestedSuspension, function, line, suspensions, callee⟩]

/-- The patterns that a node shows at `depth` closures and suspensions, below `suspensions`
suspensions. -/
def nodePatterns (function kind : String) (line : Int) (checked : Bool) (callee : Option String)
    (depth suspensions : Nat) : List Pattern :=
  match NodeKind.ofName? kind with
  | some .suspension => suspensionPatterns function line checked callee depth suspensions
  | some .await => [⟨.nativeStructured, function, line, depth, callee⟩]
  | _ => []

/-- The place of what a node holds that stands at `depth` closures and suspensions, below `suspensions`
suspensions. A suspension counts twice, as one of both and as a suspension, and a closure once. -/
def placeBelow (kind : String) (depth suspensions : Nat) (child : BodyElement) : Place :=
  match NodeKind.ofName? kind with
  | some .suspension => ⟨child, depth + 1, suspensions + 1⟩
  | some .closure => ⟨child, depth + 1, suspensions⟩
  | _ => ⟨child, depth, suspensions⟩

@[simp] theorem element_placeBelow (kind : String) (depth suspensions : Nat) (child : BodyElement) :
    (placeBelow kind depth suspensions child).element = child := by
  unfold placeBelow
  split <;> rfl

/-- Adds the patterns of an element and goes on to those that it holds, from left to right. -/
def walkElement (function : String) (found : Array Pattern) :
    Place → Except Stray (Array Pattern × List Place)
  | ⟨.stray v, _, _⟩ => .error v
  | ⟨.node kind line checked callee children, depth, suspensions⟩ =>
    .ok (found ++ nodePatterns function kind line checked callee depth suspensions,
      children.reverse.map (placeBelow kind depth suspensions))

/-- The loop that lists patterns. -/
def patternWalk (function : String) : StackLoop Place (Array Pattern) Stray where
  visit := walkElement function
  weight p := p.element.weight
  outweighs := by
    intro found _ p next h
    obtain ⟨e, depth, suspensions⟩ := p
    cases e with
    | stray v => cases h
    | node kind line checked callee children =>
      cases h
      simp only [loadOf_map, element_placeBelow, loadOf_reverse]
      rw [loadOf_weight, BodyElement.weight]
      exact Nat.lt_succ_self _

/-- The patterns of a body in source order. -/
def walkBody (function : String) (body : List BodyElement) : Except Stray (List Pattern) :=
  ((patternWalk function).run ⟨#[], (body.reverse.map (⟨·, 0, 0⟩)).toArray⟩).map Array.toList

/-- The patterns that the declaration of a function shows, given the closure depth of its body. -/
def declarationPatterns (s : Signature) (closureDepth : Nat) : List Pattern :=
  (if s.structured then [⟨.nativeStructured, s.name, s.line, 0, none⟩] else [])
    ++ s.callbacks.map fun _ => ⟨.callbackParameter, s.name, s.line, 1 + closureDepth, none⟩

/-- The fault of a body whose closures cannot be counted. -/
def DepthFault.toBodyFault : DepthFault → BodyFault
  | unavailable => .unavailable
  | stray v => .stray v

/-- The patterns of a function in source order, or the first fault of its body. After the check neither
of the other two loops meets anything that is no node. -/
def scanFunction (f : ParsedFunction) : Except BodyFault (List Pattern) := do
  match f.body with
  | none => throw .unavailable
  | some body =>
    checkBody body
    let closureDepth ← (closureDepthOf (some body)).mapError DepthFault.toBodyFault
    let patterns ← (walkBody f.signature.name body).mapError BodyFault.stray
    return declarationPatterns f.signature closureDepth ++ patterns

/-! ## Reports -/

/-- What is said of every function of a unit that did not parse, and of the unit itself. -/
def unparsedReason (error : String) : String := "unit failed to parse: " ++ error

/-- The report on one function of a unit. -/
def SourceUnit.scanOf (u : SourceUnit) (f : ParsedFunction) : ScanReport :=
  match u.parseError with
  | some error => { function := f.signature.name, failure := some (unparsedReason error) }
  | none =>
    match scanFunction f with
    | .error fault => { function := f.signature.name, failure := some fault.message }
    | .ok patterns => { function := f.signature.name, patterns }

/-- The reports on the functions of a unit, in order. A fault stays with its function. -/
def SourceUnit.scan (u : SourceUnit) : List ScanReport := u.functions.map u.scanOf

/-! ## Faults that cannot be told

A fault is told as soon as it is found, and a number in it may be too long for that. Then there is no
report, and none on the other functions of the unit either. -/

/-- Why a function has no patterns. -/
inductive ScanError where
  /-- Its body is missing or malformed, for this reason. -/
  | malformed (reason : String)
  /-- The reason cannot be put in words. -/
  | unprintable (fault : Numeral.PrintFault)
deriving DecidableEq, Repr

/-- The fault as an error. -/
def BodyFault.toError (fault : BodyFault) : ScanError :=
  match Numeral.printing fault.printed fault.message with
  | .ok reason => .malformed reason
  | .error e => .unprintable e

/-- The patterns of a function in source order. -/
def ParsedFunction.scan (f : ParsedFunction) : Except ScanError (List Pattern) :=
  (scanFunction f).mapError BodyFault.toError

/-- The report on one function of a unit, if there is one. -/
def SourceUnit.tryScanOf (u : SourceUnit) (f : ParsedFunction) :
    Except Numeral.PrintFault ScanReport :=
  match u.parseError with
  | some error => .ok { function := f.signature.name, failure := some (unparsedReason error) }
  | none =>
    match f.scan with
    | .error (.malformed reason) => .ok { function := f.signature.name, failure := some reason }
    | .error (.unprintable e) => .error e
    | .ok patterns => .ok { function := f.signature.name, patterns }

/-- The reports on the functions of a unit, if there are any. -/
def SourceUnit.tryScan (u : SourceUnit) : Except Numeral.PrintFault (List ScanReport) :=
  u.functions.mapM u.tryScanOf

end AsyncMigration
