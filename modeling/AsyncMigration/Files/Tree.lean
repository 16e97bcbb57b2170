import AsyncMigration.Files.Access
import AsyncMigration.Table

/-!
# File trees

A file system in memory: the files and directories below a working directory. Of what is outside,
only the directories that every system has at its root are known, and the null device; of the
directories above the working directory nothing is known but that there are some.
-/

namespace AsyncMigration

/-- What stands at a path. -/
inductive FileEntry where
  | directory
  | file (bytes : ByteArray)
  /-- The device that holds nothing and takes everything. -/
  | nullDevice

/-- The kind of an entry. -/
def FileEntry.kind : FileEntry → FileKind
  | directory => .directory
  | file _ => .file
  | nullDevice => .special

/-- Where the way to a place starts. -/
inductive FileBase where
  | working
  /-- A directory above the working directory, the nearest one at level zero. -/
  | above (level : Nat)
  /-- The root of the system. -/
  | system
deriving DecidableEq, Repr

/-- A place that a path name leads to. -/
structure FilePlace where
  base : FileBase := .working
  parts : List String := []
deriving DecidableEq, Repr

namespace FilePlace

/-- The place above a place; the root of the system is above itself. -/
def up (p : FilePlace) : FilePlace :=
  match p.base, p.parts with
  | .working, [] => ⟨.above 0, []⟩
  | .above n, [] => ⟨.above (n + 1), []⟩
  | base, parts => ⟨base, parts.dropLast⟩

/-- The place of a name in a place. -/
def down (p : FilePlace) (name : String) : FilePlace := { p with parts := p.parts ++ [name] }

end FilePlace

/-- What is known to stand at places. -/
structure FileTree where
  entries : Table FilePlace FileEntry := {}

namespace FileTree

/-- The directories that every system has at its root. -/
def systemDirectories : List String :=
  ["bin", "boot", "dev", "etc", "home", "lib", "media", "mnt", "opt", "proc", "root", "run", "sbin",
    "srv", "sys", "tmp", "usr", "var"]

/-- What stands at a place on every system. -/
def standing? (p : FilePlace) : Option FileEntry :=
  match p.base, p.parts with
  | _, [] => some .directory
  | .system, [name] => if systemDirectories.contains name then some .directory else none
  | .system, ["dev", "null"] => some .nullDevice
  | _, _ => none

/-- What stands at a place. -/
def entry? (t : FileTree) (p : FilePlace) : Option FileEntry :=
  match standing? p with
  | some e => some e
  | none => t.entries.get? p

/-- The greatest number of bytes in a part of a path. -/
def partLimit : Nat := 255

/-- The greatest number of bytes in a path, without the byte that ends it. -/
def pathLimit : Nat := 4095

/-- One step from a directory. -/
def step (part : String) (place : FilePlace) : Except FileFault FilePlace :=
  if part = ".." then .ok place.up
  else if partLimit < part.utf8ByteSize then .error .nameTooLong
  else .ok (place.down part)

/-- Follows parts; each but the last has to be a directory. -/
def follow (t : FileTree) : FilePlace → List String → Except FileFault FilePlace
  | place, [] => .ok place
  | place, part :: parts =>
    match t.entry? place with
    | none => .error .missing
    | some .directory => do t.follow (← step part place) parts
    | some _ => .error .notDirectory

/-- The place of a path name. -/
def resolve (t : FileTree) (p : PathName) : Except FileFault FilePlace :=
  if pathLimit < p.text.utf8ByteSize then .error .nameTooLong
  else t.follow { base := if p.anchor = .here then .working else .system } p.parts

/-- Puts an entry at a place. -/
def put (t : FileTree) (e : FileEntry) (p : FilePlace) : FileTree := ⟨t.entries.insert p e⟩

/-- What stands at a path. -/
def find (t : FileTree) (p : PathName) : Except FileFault FileEntry := do
  match t.entry? (← t.resolve p) with
  | some e => .ok e
  | none => .error .missing

/-- What a file holds. -/
def read (t : FileTree) (p : PathName) : Except FileFault ByteArray := do
  match ← t.find p with
  | .directory => .error .isDirectory
  | .file bytes => .ok bytes
  | .nullDevice => .ok .empty

/-- Makes one directory. -/
def makeDirectory (t : FileTree) (p : PathName) : Except FileFault FileTree := do
  let place ← t.resolve p
  if (t.entry? place).isSome then .error .occupied else return t.put .directory place

/-- Makes a file, or writes over one. -/
def write (t : FileTree) (p : PathName) (text : String) : Except FileFault FileTree := do
  let place ← t.resolve p
  match t.entry? place with
  | some .directory => .error .isDirectory
  | _ => return t.put (.file text.toUTF8) place

/-- Keeps the tree if something fails. -/
def change (f : FileTree → Except FileFault FileTree) : StateM FileTree (Except FileFault Unit) :=
  fun t =>
    match f t with
    | .ok t => (.ok (), t)
    | .error fault => (.error fault, t)

/-- Access to a file tree. -/
def access : FileAccess (StateM FileTree) where
  read p := return (← get).read p
  kind p := return ((← get).find p).map FileEntry.kind
  makeDirectory p := change (·.makeDirectory p)
  write p text := change (·.write p text)

/-- Adds an entry below the working directory, and the directories that it needs. -/
def add (t : FileTree) (parts : List String) (e : FileEntry) : FileTree :=
  let above := (List.range (parts.length - 1)).map fun i => parts.take (i + 1)
  let t := above.foldl (fun t parts => t.put .directory { parts }) t
  t.put e { parts }

/-- The files below the working directory that are new or different since an earlier state. -/
def changesSince (t earlier : FileTree) : List (String × ByteArray) :=
  t.entries.entries.filterMap fun (place, e) =>
    match place.base, e, earlier.entries.get? place with
    | .working, .file new, some (.file old) =>
      if new == old then none else some ("/".intercalate place.parts, new)
    | .working, .file new, _ => some ("/".intercalate place.parts, new)
    | _, _, _ => none

end FileTree
end AsyncMigration
