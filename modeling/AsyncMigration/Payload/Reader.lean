import AsyncMigration.Json.Reader
import AsyncMigration.Number.IntegerText
import AsyncMigration.Payload.Problem
import AsyncMigration.Payload.Record

/-!
# Reading payloads

A payload is a JSON text. Objects may have members that are not known; of members of one name the
last counts. Integers and truth values may also be written in a few other ways, texts may not.

| here | in `riprap` |
| --- | --- |
| `Payload.checkParameter`, `Payload.checkNode` | `schema.ParameterDTO`, `schema.BodyNodeDTO` |
| `Payload.checkFunction`, `Payload.checkCall` | `schema.FunctionDTO`, `schema.CallSiteDTO` |
| `Payload.checkUnit`, `Payload.check` | `schema.SourceUnitDTO`, `schema.FrontEndPayload` |
| `Payload.ofText`, `Payload.ofBytes` | `ingest.json_frontend.parse_payload` |
-/

namespace AsyncMigration.Payload

open Checked

/-! ## Scalars -/

/-- A text. -/
def checkText : Json → Checked String
  | .text s => .ok s
  | _ => problem .textExpected

/-- A text, or null for none. -/
def checkText? : Json → Checked (Option String)
  | .null => .ok none
  | v => (checkText v).map some

/-- A number that is whole and strictly between -2⁶³ and 2⁶³. -/
def integerOfReal (x : Binary64) : Checked Int :=
  match x.truncate? with
  | none => problem .finiteExpected
  | some i =>
    if !x.isWhole then problem .integerFraction
    else if i.natAbs < Nat.pow 2 63 then .ok i
    else problem .integerSize

/-- An integer: as such, as a truth value, as a whole number, or in figures. -/
def checkInteger : Json → Checked Int
  | .integer i => .ok i
  | .bool b => .ok (if b then 1 else 0)
  | .real x => integerOfReal x
  | .text s =>
    match IntegerText.read s with
    | .ok i => .ok i
    | .error .malformed => problem .integerText
    | .error .tooLong => problem .integerSize
  | _ => problem .integerExpected

/-- A truth value in words, in any case. -/
def truthOfText? (s : String) : Option Bool :=
  match String.ofList (s.toList.map Char.toLower) with
  | "0" | "off" | "f" | "false" | "n" | "no" => some false
  | "1" | "on" | "t" | "true" | "y" | "yes" => some true
  | _ => none

/-- Whether an integer is a signed word of 64 bits. -/
def fitsWord (i : Int) : Bool := -Int.pow 2 63 ≤ i && i < Int.pow 2 63

/-- A truth value as zero or one. An integer that is no word is not even considered. -/
def truthOfInteger (i : Int) : Checked Bool :=
  if i = 0 then .ok false
  else if i = 1 then .ok true
  else if fitsWord i then problem .truthText
  else problem .truthExpected

/-- A truth value: as such, as zero or one, or in words. -/
def checkTruth : Json → Checked Bool
  | .bool b => .ok b
  | .integer i => truthOfInteger i
  | .real x =>
    match integerOfReal x with
    | .ok i => truthOfInteger i
    | .error _ => problem .truthExpected
  | .text s =>
    match truthOfText? s with
    | some b => .ok b
    | none => problem .truthText
  | _ => problem .truthExpected

/-- The only version there is. -/
def checkVersion : Json → Checked Unit
  | .integer i =>
    if i = 1 then .ok () else problem (if fitsWord i then .versionExpected else .integerSize)
  | .bool true => .ok ()
  | .real x => if x.sameValue (.ofSmall 1) then .ok () else problem .versionExpected
  | _ => problem .versionExpected

/-! ## Lists and members -/

/-- A list of what `check` accepts. -/
def checkList {α : Type} (check : Json → Checked α) : Json → Checked (List α)
  | .list items => Checked.items check 0 items
  | _ => problem .listExpected

/-- A member that has to be present. -/
def required {α : Type} (ms : List (String × Json)) (name : String) (check : Json → Checked α) :
    Checked α :=
  below (.name name) (match Json.member? name ms with
    | some v => check v
    | none => problem .missing)

/-- A member that may be left out. -/
def optional {α : Type} (ms : List (String × Json)) (name : String) (check : Json → Checked α)
    (default : α) : Checked α :=
  match Json.member? name ms with
  | some v => below (.name name) (check v)
  | none => .ok default

/-! ## Records -/

/-- A parameter. -/
def checkParameter : Json → Checked Parameter
  | .object ms =>
    ap (Parameter.mk <$> required ms "name" checkText) (optional ms "callback" checkTruth false)
  | _ => problem .objectExpected

mutual

/-- A node of a body. -/
def checkNode : Json → Checked NodeRecord
  | .object ms =>
    ap (ap (ap (ap (NodeRecord.mk <$> required ms "kind" checkText)
      (required ms "line" checkInteger))
      (optional ms "checked" checkTruth true))
      (optional ms "callee" checkText? none))
      ((checkChildren ms).getD (.ok []))
  | _ => problem .objectExpected

/-- The children of a node among its members. -/
def checkChildren : List (String × Json) → Option (Checked (List NodeRecord))
  | [] => none
  | (name, v) :: ms =>
    match checkChildren ms with
    | some children => some children
    | none => if name = "children" then some (below (.name "children") (checkNodes v)) else none

/-- A list of nodes. -/
def checkNodes : Json → Checked (List NodeRecord)
  | .list items => checkNodesFrom 0 items
  | _ => problem .listExpected

/-- The nodes of a list from position `i` on. -/
def checkNodesFrom (i : Nat) : List Json → Checked (List NodeRecord)
  | [] => .ok []
  | v :: vs =>
    ap ((below (.index i) (checkNode v)).map List.cons) (checkNodesFrom (i + 1) vs)

end

/-- A body, or null for none. -/
def checkBody : Json → Checked (Option (List NodeRecord))
  | .null => .ok none
  | v => (checkNodes v).map some

/-- A function. -/
def checkFunction : Json → Checked FunctionRecord
  | .object ms =>
    ap (ap (ap (ap (ap (ap (ap (FunctionRecord.mk <$> required ms "name" checkText)
      (optional ms "line" checkInteger 1))
      (optional ms "params" (checkList checkParameter) []))
      (optional ms "returns" checkText "void"))
      (optional ms "interop" checkTruth false))
      (optional ms "protocol" checkText? none))
      (optional ms "structured" checkTruth false))
      (optional ms "body" checkBody (some []))
  | _ => problem .objectExpected

/-- A call site. -/
def checkCall : Json → Checked CallRecord
  | .object ms =>
    ap (ap (ap (CallRecord.mk <$> required ms "caller" checkText)
      (optional ms "callee" checkText? none))
      (optional ms "target" checkText ""))
      (optional ms "line" checkInteger 0)
  | _ => problem .objectExpected

/-- A unit of source. -/
def checkUnit : Json → Checked UnitRecord
  | .object ms =>
    ap (ap (ap (ap (UnitRecord.mk <$> required ms "path" checkText)
      (optional ms "text" checkText ""))
      (optional ms "parse_error" checkText? none))
      (optional ms "functions" (checkList checkFunction) []))
      (optional ms "calls" (checkList checkCall) [])
  | _ => problem .objectExpected

/-- A payload. -/
def check : Json → Checked Payload
  | .object ms =>
    ap (ap ((fun _ => Payload.mk) <$> optional ms "version" checkVersion ())
      (optional ms "units" (checkList checkUnit) []))
      (optional ms "roots" (checkList checkText) [])
  | _ => problem .objectExpected

/-- The payload that a text spells. -/
def ofText (s : String) : Checked Payload :=
  match Json.parse? s with
  | some v => check v
  | none => problem .jsonInvalid

/-- The payload that bytes spell. -/
def ofBytes (bytes : ByteArray) : Checked Payload :=
  match String.fromUTF8? bytes with
  | some s => ofText s
  | none => problem .jsonInvalid

end AsyncMigration.Payload
