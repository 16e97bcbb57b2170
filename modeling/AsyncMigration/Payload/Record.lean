import AsyncMigration.SourceUnit

/-!
# Payload records

What a payload holds, record by record, and the source units it stands for. Records spell things as
a payload does; units leave out what does not matter, such as an empty protocol.

A body is converted by calls within calls, as deep as its nodes are nested, and calls can be nested only
so deep. `UnitRecord.toUnit` is the unit that a record stands for; `UnitRecord.convert` finds it if there
is room for the calls.

| here | in `riprap` |
| --- | --- |
| `NodeRecord`, `FunctionRecord`, `CallRecord` | `schema.BodyNodeDTO`, `schema.FunctionDTO`, `schema.CallSiteDTO` |
| `UnitRecord`, `Payload` | `schema.SourceUnitDTO`, `schema.FrontEndPayload` |
| `NodeRecord.convert`, `NodeRecord.toElement` | `ingest.json_frontend._body_node` |
| `FunctionRecord.convert`, `FunctionRecord.toFunction` | `ingest.json_frontend._function` |
| `UnitRecord.convert`, `UnitRecord.toUnit` | `ingest.json_frontend.source_unit` |
-/

namespace AsyncMigration

/-- A node of a function body. -/
inductive NodeRecord where
  | mk (kind : String) (line : Int) (checked : Bool) (callee : Option String)
      (children : List NodeRecord)
deriving Repr, Inhabited

/-- A function. -/
structure FunctionRecord where
  name : String
  line : Int := 1
  params : List Parameter := []
  returns : String := "void"
  interop : Bool := false
  protocol : Option String := none
  structured : Bool := false
  body : Option (List NodeRecord) := some []
deriving Repr

/-- A call site. -/
structure CallRecord where
  caller : String
  callee : Option String := none
  target : String := ""
  line : Int := 0
deriving DecidableEq, Repr

/-- A unit of source. -/
structure UnitRecord where
  path : String
  text : String := ""
  parseError : Option String := none
  functions : List FunctionRecord := []
  calls : List CallRecord := []
deriving Repr

/-- A payload: units, and the roots to analyse. -/
structure Payload where
  units : List UnitRecord := []
  roots : List String := []
deriving Repr

/-- The version of the format. -/
def Payload.version : Int := 1

mutual

/-- The body element that a node stands for. -/
def NodeRecord.toElement : NodeRecord → BodyElement
  | .mk kind line checked callee children =>
    .node kind line checked callee (NodeRecord.toElements children)

/-- The body elements that nodes stand for. -/
def NodeRecord.toElements : List NodeRecord → List BodyElement
  | [] => []
  | n :: ns => n.toElement :: NodeRecord.toElements ns

end

/-- The signature that a record in a unit at `path` stands for. -/
def FunctionRecord.signature (path : String) (f : FunctionRecord) : Signature :=
  { name := f.name, path, line := f.line, params := f.params, returns := f.returns,
    interop := f.interop, protocol := f.protocol.filter (· ≠ ""), structured := f.structured }

/-- The function that a record in a unit at `path` stands for. -/
def FunctionRecord.toFunction (path : String) (f : FunctionRecord) : ParsedFunction :=
  { signature := f.signature path, body := f.body.map NodeRecord.toElements }

/-- The call site that a record stands for. A call without a target text has its callee as one. -/
def CallRecord.toCallSite (c : CallRecord) : CallSite :=
  { caller := c.caller
    callee := c.callee
    target := if c.target = "" then c.callee.getD "" else c.target
    line := c.line }

/-- The source unit that a record stands for. -/
def UnitRecord.toUnit (u : UnitRecord) : SourceUnit :=
  { path := u.path
    text := u.text
    parseError := u.parseError
    functions := u.functions.map (·.toFunction u.path)
    callSites := u.calls.map (·.toCallSite) }

/-- The source units of a payload. -/
def Payload.sourceUnits (p : Payload) : List SourceUnit := p.units.map (·.toUnit)

/-! ## Conversion -/

/-- Why a record cannot be converted. -/
inductive ConversionFault where
  /-- Its nodes are nested deeper than calls can be. -/
  | tooDeep
deriving DecidableEq, Repr

mutual

/-- Converts a node, with room for `room` calls within one another. There is one for the node itself and
one for the list of what it holds. -/
def NodeRecord.convert : Nat → NodeRecord → Except ConversionFault BodyElement
  | 0, _ => .error .tooDeep
  | room + 1, .mk kind line checked callee children => do
    let elements ← NodeRecord.convertAll room children
    return .node kind line checked callee elements

/-- Converts nodes one after another, with room for `room` calls within one another. -/
def NodeRecord.convertAll : Nat → List NodeRecord → Except ConversionFault (List BodyElement)
  | 0, _ => .error .tooDeep
  | _ + 1, [] => return []
  | room + 1, n :: ns => do
    let element ← n.convert room
    let elements ← NodeRecord.convertAll (room + 1) ns
    return element :: elements

end

/-- The room that there is for the nodes of a body, if its unit is converted by no function within
another. -/
def conversionRoom : Nat := 994

/-- Converts a function in a unit at `path`. -/
def FunctionRecord.convert (room : Nat) (path : String) (f : FunctionRecord) :
    Except ConversionFault ParsedFunction :=
  match f.body with
  | none => return { signature := f.signature path, body := none }
  | some nodes => do
    let elements ← NodeRecord.convertAll room nodes
    return { signature := f.signature path, body := some elements }

/-- Converts a unit. -/
def UnitRecord.convert (room : Nat) (u : UnitRecord) : Except ConversionFault SourceUnit := do
  let functions ← u.functions.mapM (FunctionRecord.convert room u.path)
  return { path := u.path, text := u.text, parseError := u.parseError, functions,
           callSites := u.calls.map (·.toCallSite) }

/-- Converts the units of a payload. -/
def Payload.convert (room : Nat) (p : Payload) : Except ConversionFault (List SourceUnit) :=
  p.units.mapM (UnitRecord.convert room)

end AsyncMigration
