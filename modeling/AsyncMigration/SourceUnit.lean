import AsyncMigration.Constraint
import AsyncMigration.Text.Quoted

/-!
# Source units

What a front end hands over: units of source, each with its function definitions and call sites. A
function body is a tree of nodes. Front ends are not trusted: a body may be missing, a node may be
of an unknown kind or have no line, and something that is no node at all may stand in its place.

| here | in `riprap.analysis.model` |
| --- | --- |
| `Parameter`, `Signature` | `Parameter`, `FunctionSignature` |
| `Signature.callbacks` | `FunctionSignature.callback_params` |
| `NodeKind`, `BodyElement.node` | `NodeKind`, `BodyNode` |
| `BodyElement.stray` | anything else in the place of a `BodyNode` |
| `ParsedFunction`, `CallSite`, `SourceUnit` | `ParsedFunction`, `CallSite`, `SourceUnit` |
| `CallSite.sinkName`, `SourceUnit.parsed` | `CallSite.sink_name`, `SourceUnit.parsed` |
-/

namespace AsyncMigration

/-- A parameter of a function. -/
structure Parameter where
  name : String
  callback : Bool := false
deriving DecidableEq, Repr

/-- What is known of a function without its body. -/
structure Signature where
  name : String
  path : String := ""
  line : Int := 1
  params : List Parameter := []
  returns : String := "void"
  interop : Bool := false
  protocol : Option String := none
  structured : Bool := false
deriving DecidableEq, Repr

namespace Signature

/-- The parameters that are callbacks. -/
def callbacks (s : Signature) : List Parameter := s.params.filter (·.callback)

/-- The constraints that the declaration itself brings along. -/
def constraints (s : Signature) : ConstraintSet :=
  { interopExposure := s.interop, protocolRequirement := s.protocol.any (· ≠ "") }

end Signature

/-- The kinds of body nodes that a scan understands. -/
inductive NodeKind where
  | closure
  | suspension
  | await
  | call
  | block
deriving DecidableEq, Repr

/-- The node kind of a given name. -/
def NodeKind.ofName? : String → Option NodeKind
  | "closure" => some closure
  | "suspension" => some suspension
  | "await" => some await
  | "call" => some call
  | "block" => some block
  | _ => none

/-- Something in a body that is no node. It can be anything; what counts is the name of what it is, and
how a message shows it. -/
structure Stray where
  typeName : String
  shown : String
  /-- The integers that are printed where it is shown. -/
  printed : List Int := []
deriving DecidableEq, Repr

namespace Stray

/-- A text in the place of a node. -/
def text (s : String) : Stray := { typeName := "str", shown := Text.quoted s }

/-- An integer in the place of a node. -/
def integer (i : Int) : Stray := { typeName := "int", shown := toString i, printed := [i] }

/-- A truth value in the place of a node. -/
def truth (b : Bool) : Stray := { typeName := "bool", shown := if b then "True" else "False" }

/-- Nothing in the place of a node. -/
def nothing : Stray := { typeName := "NoneType", shown := "None" }

end Stray

/-- An element of a body. `checked` matters for suspensions only; `callee` is the function that a
suspension wraps or that a call calls. -/
inductive BodyElement where
  | node (kind : String) (line : Int) (checked : Bool) (callee : Option String)
      (children : List BodyElement)
  | stray (value : Stray)
deriving Repr, Inhabited

/-- A function as a front end hands it over; `body` is none if the front end has none. -/
structure ParsedFunction where
  signature : Signature
  body : Option (List BodyElement) := some []
deriving Repr

/-- A call in the source. `callee` is the name the front end resolved it to, `target` its text. -/
structure CallSite where
  caller : String
  callee : Option String := none
  target : String := ""
  line : Int := 0
deriving DecidableEq, Repr

/-- The name under which a call that leads out of the analysed code is known. -/
def CallSite.sinkName (s : CallSite) : String :=
  match s.callee with
  | some "" => s.target
  | some callee => callee
  | none => s.target

/-- A unit of source. `parseError` says why the front end could not parse it. -/
structure SourceUnit where
  path : String := ""
  text : String := ""
  parseError : Option String := none
  functions : List ParsedFunction := []
  callSites : List CallSite := []
deriving Repr

/-- Whether the front end could parse the unit. -/
def SourceUnit.parsed (u : SourceUnit) : Bool := u.parseError.isNone

end AsyncMigration
