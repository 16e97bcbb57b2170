import AsyncMigration.Event
import AsyncMigration.Scan

/-!
# The function catalogue

The catalogue holds the functions of all units, in the order of their definitions; of several
definitions of one name the first counts. What goes wrong on the way is kept as a list of failures,
each with its cause. A failure is put in words as soon as it is noted; where a number in it is too long
for that, building the catalogue ends there.

| here | in `riprap.analysis.catalog` |
| --- | --- |
| `Signature.constraints` | `declared_constraints` |
| `Catalog.get?`, `Catalog.contains` | `SignatureCatalog.get`, `__contains__` |
| `Catalog.add`, `Catalog.tryAdd` | `SignatureCatalog.add` |
| `Catalog.build`, `Catalog.tryBuild` | `build_catalog` |
-/

namespace AsyncMigration

/-- Something that went wrong without stopping the analysis. -/
inductive Failure where
  /-- A unit did not parse. -/
  | unitUnparsed (path error : String)
  /-- A function could not be scanned. -/
  | bodyUnscannable (function reason path : String)
  /-- A name was defined again; the first definition is at `firstPath`, `firstLine`. -/
  | duplicateDefinition (function firstPath : String) (firstLine : Int) (path : String)
  /-- A call to `callee` was made from a function that is not catalogued. -/
  | unknownCaller (caller callee : String) (line : Int)
  /-- A root was asked for that is not catalogued. -/
  | unknownRoot (root : String)
deriving DecidableEq, Repr

namespace Failure

/-- The kind of failure as reports show it. -/
def kind : Failure → String
  | unitUnparsed .. | bodyUnscannable .. => "ParseFailure"
  | duplicateDefinition .. => "DuplicateDefinition"
  | unknownCaller .. => "UnknownCaller"
  | unknownRoot .. => "UnknownRoot"

/-- What the failure is about. -/
def subject : Failure → String
  | unitUnparsed path _ => path
  | bodyUnscannable function _ _ => function
  | duplicateDefinition function _ _ _ => function
  | unknownCaller caller _ _ => caller
  | unknownRoot root => root

/-- The failure in words, its numbers in full. -/
def reason : Failure → String
  | unitUnparsed _ error => unparsedReason error
  | bodyUnscannable _ reason _ => reason
  | duplicateDefinition _ path line _ => "already defined at " ++ path ++ ":" ++ toString line
  | unknownCaller _ callee line =>
    "call to " ++ callee ++ " at line " ++ toString line ++ " has no catalogued caller"
  | unknownRoot _ => "root not found in catalog"

/-- The integers that are printed where the failure is put in words. What is said of a body that cannot
be scanned has been printed by the scan. -/
def printed : Failure → List Int
  | duplicateDefinition _ _ line _ | unknownCaller _ _ line => [line]
  | unitUnparsed .. | bodyUnscannable .. | unknownRoot .. => []

/-- Where the failure happened, if that is known. -/
def path : Failure → String
  | unitUnparsed path _ => path
  | bodyUnscannable _ _ path => path
  | duplicateDefinition _ _ _ path => path
  | unknownCaller .. | unknownRoot .. => ""

/-- What the log says when the failure is recorded. A body that cannot be scanned is told of by the
scan. -/
def event? : Failure → Option Event
  | unitUnparsed path error => some (.unitUnparsed path error)
  | bodyUnscannable .. => none
  | duplicateDefinition function _ _ _ => some (.duplicateIgnored function)
  | unknownCaller caller _ _ => some (.callDropped caller)
  | unknownRoot root => some (.unknownRoot root)

end Failure

/-- A catalogued function. -/
structure CatalogEntry where
  signature : Signature
  scan : ScanReport
deriving DecidableEq, Repr

namespace CatalogEntry

def name (e : CatalogEntry) : String := e.signature.name

/-- Whether the function could be scanned. -/
def analyzable (e : CatalogEntry) : Bool := e.scan.analyzable

/-- The constraints of the function itself. -/
def constraints (e : CatalogEntry) : ConstraintSet := e.signature.constraints

end CatalogEntry

/-- The functions of a session in the order of their first definitions. -/
structure Catalog where
  entries : List CatalogEntry := []
  failures : List Failure := []
deriving DecidableEq, Repr

namespace Catalog

/-- The entry of a name. -/
def get? (c : Catalog) (name : String) : Option CatalogEntry := c.entries.find? (·.name = name)

/-- Whether a name is catalogued. -/
def contains (c : Catalog) (name : String) : Bool := (c.get? name).isSome

/-- Notes a failure. -/
def fail (c : Catalog) (f : Failure) : Catalog := { c with failures := c.failures ++ [f] }

/-- Enters a function, and says whether it is new. A name that is present keeps its entry. -/
def add (c : Catalog) (s : Signature) (scan : ScanReport) : Catalog × Bool :=
  match c.get? s.name with
  | some first =>
    (c.fail (.duplicateDefinition s.name first.signature.path first.signature.line s.path), false)
  | none =>
    let c := { c with entries := c.entries ++ [⟨s, scan⟩] }
    match scan.failure with
    | some reason => (c.fail (.bodyUnscannable s.name reason s.path), true)
    | none => (c, true)

/-- The failure that entering a function notes if its name is present. -/
def duplicate? (c : Catalog) (s : Signature) : Option Failure :=
  (c.get? s.name).map fun first =>
    .duplicateDefinition s.name first.signature.path first.signature.line s.path

/-- Enters a function, and says whether it is new, if what is to be said of it can be printed. -/
def tryAdd (c : Catalog) (s : Signature) (scan : ScanReport) :
    Except Numeral.PrintFault (Catalog × Bool) :=
  Numeral.printing ((c.duplicate? s).toList.flatMap Failure.printed) (c.add s scan)

/-- Two lists that should go together have different lengths. -/
inductive LengthMismatch where
  | shorter
  | longer
deriving DecidableEq, Repr

/-- The mismatch in words. -/
def LengthMismatch.message : LengthMismatch → String
  | shorter => "zip() argument 2 is shorter than argument 1"
  | longer => "zip() argument 2 is longer than argument 1"

/-- Enters the functions of a unit with their reports. -/
def addFunctions (c : Catalog) :
    List ParsedFunction → List ScanReport → Except LengthMismatch Catalog
  | [], [] => .ok c
  | [], _ :: _ => .error .longer
  | _ :: _, [] => .error .shorter
  | f :: fs, r :: rs => addFunctions (c.add f.signature r).1 fs rs

/-- Notes a unit that did not parse. -/
def noteUnit (c : Catalog) (u : SourceUnit) : Catalog :=
  match u.parseError with
  | some error => c.fail (.unitUnparsed u.path error)
  | none => c

/-- Enters units with the reports on their functions. -/
def addUnits (c : Catalog) :
    List SourceUnit → List (List ScanReport) → Except LengthMismatch Catalog
  | [], [] => .ok c
  | [], _ :: _ => .error .longer
  | _ :: _, [] => .error .shorter
  | u :: us, rs :: rss => do
    let c ← (c.noteUnit u).addFunctions u.functions rs
    addUnits c us rss

/-- The catalogue of units with the reports on their functions, list by list. -/
def build (units : List SourceUnit) (reports : List (List ScanReport)) :
    Except LengthMismatch Catalog := addUnits {} units reports

/-- Why there is no catalogue. -/
inductive BuildError where
  /-- Functions and reports do not go together. -/
  | mismatch (m : LengthMismatch)
  /-- What is to be said of a function cannot be printed. -/
  | unprintable (fault : Numeral.PrintFault)
deriving DecidableEq, Repr

/-- The error in words. -/
def BuildError.message : BuildError → String
  | mismatch m => m.message
  | unprintable fault => fault.message

/-- Enters the functions of a unit with their reports, as far as what is said of them can be printed. -/
def tryAddFunctions (c : Catalog) :
    List ParsedFunction → List ScanReport → Except BuildError Catalog
  | [], [] => .ok c
  | [], _ :: _ => .error (.mismatch .longer)
  | _ :: _, [] => .error (.mismatch .shorter)
  | f :: fs, r :: rs => do
    let (c, _) ← (c.tryAdd f.signature r).mapError .unprintable
    tryAddFunctions c fs rs

/-- Enters units with the reports on their functions, as far as what is said of them can be printed. -/
def tryAddUnits (c : Catalog) :
    List SourceUnit → List (List ScanReport) → Except BuildError Catalog
  | [], [] => .ok c
  | [], _ :: _ => .error (.mismatch .longer)
  | _ :: _, [] => .error (.mismatch .shorter)
  | u :: us, rs :: rss => do
    let c ← (c.noteUnit u).tryAddFunctions u.functions rs
    tryAddUnits c us rss

/-- The catalogue of units with the reports on their functions, list by list, if what is said of them
can be printed. -/
def tryBuild (units : List SourceUnit) (reports : List (List ScanReport)) :
    Except BuildError Catalog := tryAddUnits {} units reports

/-- The catalogue of units, each scanned. -/
def ofUnits (units : List SourceUnit) : Catalog :=
  units.foldl (fun c u => u.functions.foldl (fun c f => (c.add f.signature (u.scanOf f)).1)
    (c.noteUnit u)) {}

theorem addFunctions_scan (u : SourceUnit) (fs : List ParsedFunction) (c : Catalog) :
    c.addFunctions fs (fs.map u.scanOf)
      = .ok (fs.foldl (fun c f => (c.add f.signature (u.scanOf f)).1) c) := by
  induction fs generalizing c with
  | nil => rfl
  | cons f fs ih => exact ih _

theorem addUnits_scan (units : List SourceUnit) (c : Catalog) :
    c.addUnits units (units.map SourceUnit.scan)
      = .ok (units.foldl (fun c u => u.functions.foldl
          (fun c f => (c.add f.signature (u.scanOf f)).1) (c.noteUnit u)) c) := by
  induction units generalizing c with
  | nil => rfl
  | cons u us ih =>
    simp only [List.map_cons, addUnits, SourceUnit.scan, addFunctions_scan, List.foldl_cons]
    exact ih _

/-- Scanning units and then entering them never meets lists of different lengths. -/
theorem build_scan (units : List SourceUnit) :
    build units (units.map SourceUnit.scan) = .ok (ofUnits units) := addUnits_scan units {}

end Catalog
end AsyncMigration
