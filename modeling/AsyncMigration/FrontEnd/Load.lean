import AsyncMigration.Event
import AsyncMigration.Files.Access
import AsyncMigration.FrontEnd.Registry
import AsyncMigration.Payload.Reader
import AsyncMigration.Text.Newline

/-!
# Loading payloads

The units and roots of several payload files are put together in the order of the files. The first
file that cannot be used ends it.

| here | in `riprap` |
| --- | --- |
| `jsonFrontEnd`, `frontEnds` | `ingest.json_frontend.JsonFrontEnd`, `ingest.registry.FRONT_ENDS` |
| `Bundle` | `ingest.adapter_contract.IngestBundle` |
| `LoadError` | `exceptions.PayloadError` |
| `PayloadFrontEnd.loadFile`, `PayloadFrontEnd.load` | `ingest.json_frontend.JsonFrontEnd.load` |
-/

namespace AsyncMigration

/-- A front end that reads the text of a payload. -/
abbrev PayloadFrontEnd := FrontEnd (String → Checked Payload)

/-- The front end for payloads in JSON. -/
def jsonFrontEnd : PayloadFrontEnd :=
  { language := "json", extensions := [".json"], reader := Payload.ofText }

/-- The front ends of the program. -/
def frontEnds : Registry (String → Checked Payload) := .ofDefault jsonFrontEnd

/-- Why a payload file cannot be used. -/
inductive LoadError where
  | unreadable (e : FileError)
  /-- The file is not UTF-8. -/
  | undecodable (path : PathName)
  | invalid (path : PathName) (problems : List Problem)

/-- The path of the payload file. -/
def LoadError.path : LoadError → PathName
  | unreadable e => e.path
  | undecodable path | invalid path _ => path

/-- The error in words, if problems do not say it better. -/
def LoadError.message? : LoadError → Option String
  | unreadable (.nullCharacter path) => some (FileError.nullCharacter path).message
  | unreadable e => some (e.path.text ++ ": cannot read payload: " ++ e.message)
  | undecodable _ | invalid .. => none

/-- What was loaded. -/
structure Bundle where
  units : List SourceUnit := []
  roots : List String := []

namespace Bundle

/-- The units and roots of a payload. -/
def ofPayload (p : Payload) : Bundle := ⟨p.sourceUnits, p.roots⟩

/-- Puts what was loaded together. -/
def append (a b : Bundle) : Bundle := ⟨a.units ++ b.units, a.roots ++ b.roots⟩

end Bundle

variable {m : Type → Type} [Monad m]

/-- The payload in a file. -/
def PayloadFrontEnd.loadFile (f : PayloadFrontEnd) (fs : FileAccess m) (p : PathName) :
    m (Except LoadError Payload) := do
  match ← fs.load p with
  | .error e => return .error (.unreadable e)
  | .ok bytes =>
    match Text.ofBytes? bytes with
    | none => return .error (.undecodable p)
    | some text => return (f.reader text).mapError (.invalid p)

/-- The payloads of files, put together, and what happened on the way. -/
def PayloadFrontEnd.load (f : PayloadFrontEnd) (fs : FileAccess m) :
    List PathName → m (Except LoadError Bundle × List Event)
  | [] => return (.ok {}, [])
  | p :: ps => do
    match ← f.loadFile fs p with
    | .error e => return (.error e, [])
    | .ok payload =>
      let (rest, events) ← f.load fs ps
      return (rest.map (Bundle.ofPayload payload).append,
        .payloadLoaded payload.units.length p.text :: events)

end AsyncMigration
