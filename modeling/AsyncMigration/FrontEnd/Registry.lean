import AsyncMigration.Files.PathName
import AsyncMigration.NameSet
import AsyncMigration.Table
import AsyncMigration.Text.Lowercase
import AsyncMigration.Text.Quoted

/-!
# Front ends

A front end reads the payloads of a language. A registry finds one by the id of its language or by
the suffix of a payload file; case does not matter, and what was registered last counts.

| here | in `riprap` |
| --- | --- |
| `FrontEnd` | `ingest.adapter_contract.FrontEnd` |
| `UnknownFrontEnd` | `exceptions.UnknownFrontEnd` |
| `Registry.ofDefault` | `ingest.registry.FrontEndRegistry.__init__` |
| `Registry.register`, `Registry.languages` | `FrontEndRegistry.register`, `FrontEndRegistry.languages` |
| `Registry.select` | `FrontEndRegistry.select` |
-/

namespace AsyncMigration

/-- A front end, with what it reads payloads by. -/
structure FrontEnd (α : Type) where
  language : String
  extensions : List String
  reader : α

/-- No front end is known for a language. -/
structure UnknownFrontEnd where
  language : String
  known : List String
deriving DecidableEq, Repr

/-- The error in words. -/
def UnknownFrontEnd.message (e : UnknownFrontEnd) : String :=
  let known := ", ".intercalate e.known
  "no front end for " ++ Text.quoted e.language ++ " (known: "
    ++ (if known = "" then "none" else known) ++ ")"

/-- The front ends that are known. -/
structure Registry (α : Type) where
  default : FrontEnd α
  byLanguage : Table String (FrontEnd α) := {}
  bySuffix : Table String (FrontEnd α) := {}

namespace Registry

variable {α : Type}

/-- Adds a front end. -/
def register (r : Registry α) (f : FrontEnd α) : Registry α :=
  { r with
    byLanguage := r.byLanguage.insert (Text.lower f.language) f
    bySuffix := f.extensions.foldl (fun t suffix => t.insert (Text.lower suffix) f) r.bySuffix }

/-- A front end that is registered takes its language over. -/
theorem byLanguage_register (r : Registry α) (f : FrontEnd α) (id : String) :
    (r.register f).byLanguage.get? id =
      if Text.lower f.language = id then some f else r.byLanguage.get? id :=
  Table.get?_insert r.byLanguage _ id f

/-- The registry that knows its default only. -/
def ofDefault (f : FrontEnd α) : Registry α := register { default := f } f

/-- The ids of the languages, in order. -/
def languages (r : Registry α) : List String := (NameSet.ofList r.byLanguage.keys).names

/-- The front end of a language. -/
def forLanguage (r : Registry α) (language : String) : Except UnknownFrontEnd (FrontEnd α) :=
  match r.byLanguage.get? (Text.lower language) with
  | some f => .ok f
  | none => .error ⟨language, r.languages⟩

/-- The front end of the first path whose suffix is known, or else the default. -/
def forPaths (r : Registry α) (paths : List PathName) : FrontEnd α :=
  (paths.findSome? fun p => r.bySuffix.get? (Text.lower p.suffix)).getD r.default

/-- The front end of the language, if one is given, or else of the paths. -/
def select (r : Registry α) (paths : List PathName) (language : Option String) :
    Except UnknownFrontEnd (FrontEnd α) :=
  match language with
  | some l => r.forLanguage l
  | none => .ok (r.forPaths paths)

end Registry
end AsyncMigration
