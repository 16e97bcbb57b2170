import AsyncMigration.Files.PathName
import AsyncMigration.Text.Quoted

/-!
# Access to files

What the program needs from a file system, in any monad, and what can be built from that.
-/

namespace AsyncMigration

/-- Why a file cannot be used. -/
inductive FileFault where
  | missing
  | occupied
  | notDirectory
  | isDirectory
  | nameTooLong
  | other (code : Nat) (text : String)
deriving DecidableEq, Repr

namespace FileFault

/-- The number of a fault. -/
def code : FileFault → Nat
  | missing => 2
  | occupied => 17
  | notDirectory => 20
  | isDirectory => 21
  | nameTooLong => 36
  | other code _ => code

/-- A fault in words. -/
def text : FileFault → String
  | missing => "No such file or directory"
  | occupied => "File exists"
  | notDirectory => "Not a directory"
  | isDirectory => "Is a directory"
  | nameTooLong => "File name too long"
  | other _ text => text

end FileFault

/-- Why the file at a path cannot be used. -/
inductive FileError where
  | fault (f : FileFault) (path : PathName)
  /-- There is a null character in the path, which no file system is asked for. -/
  | nullCharacter (path : PathName)
deriving DecidableEq, Repr

namespace FileError

/-- The path that cannot be used. -/
def path : FileError → PathName
  | fault _ path | nullCharacter path => path

/-- The error in words. -/
def message : FileError → String
  | fault f path =>
    "[Errno " ++ toString f.code ++ "] " ++ f.text ++ ": " ++ Text.quoted path.text
  | nullCharacter _ => "embedded null byte"

end FileError

/-- What can stand at a path. -/
inductive FileKind where
  | file
  | directory
  /-- A device, or the like. -/
  | special
deriving DecidableEq, Repr

/-- A file system. -/
structure FileAccess (m : Type → Type) where
  /-- What a file holds. -/
  read : PathName → m (Except FileFault ByteArray)
  /-- What stands at a path. -/
  kind : PathName → m (Except FileFault FileKind)
  /-- Makes one directory, in a directory that exists. -/
  makeDirectory : PathName → m (Except FileFault Unit)
  /-- Makes a file, or writes over one. -/
  write : PathName → String → m (Except FileFault Unit)

namespace FileAccess

variable {m : Type → Type} [Monad m]

/-- Uses a path, unless there is a null character in it. -/
def attempt {α : Type} (p : PathName) (act : PathName → m (Except FileFault α)) :
    m (Except FileError α) := do
  if p.hasNull then return .error (.nullCharacter p)
  else return (← act p).mapError (.fault · p)

/-- Whether something of a given kind stands at a path. Nothing does if the path leads nowhere. -/
def isKind (fs : FileAccess m) (kind : FileKind) (p : PathName) : m (Except FileError Bool) := do
  match ← attempt p fs.kind with
  | .ok k => return .ok (k = kind)
  | .error (.fault .missing _) | .error (.fault .notDirectory _) => return .ok false
  | .error e => return .error e

/-- An error that does not matter if the directory is there. -/
def unlessDirectory (fs : FileAccess m) (p : PathName) (e : FileError) :
    m (Except FileError Unit) := do
  return (← fs.isKind .directory p).bind fun there => if there then .ok () else .error e

/-- Makes a directory whose parent has just been made. -/
def makeLast (fs : FileAccess m) (p : PathName) : m (Except FileError Unit) := do
  match ← attempt p fs.makeDirectory with
  | .ok () => return .ok ()
  | .error (.fault .missing _) => return .error (.fault .missing p)
  | .error e => fs.unlessDirectory p e

/-- Makes the directory with the given parts, the last one first, and all those above it that are
missing. -/
def makeBelow (fs : FileAccess m) (anchor : Anchor) : List String → m (Except FileError Unit)
  | [] => fs.makeLast { anchor }
  | part :: above => do
    let p : PathName := ⟨anchor, (part :: above).reverse⟩
    match ← attempt p fs.makeDirectory with
    | .ok () => return .ok ()
    | .error (.fault .missing _) =>
      match ← fs.makeBelow anchor above with
      | .ok () => fs.makeLast p
      | .error e => return .error e
    | .error e => fs.unlessDirectory p e

/-- Makes a directory, and all those above it that are missing. -/
def makeDirectories (fs : FileAccess m) (p : PathName) : m (Except FileError Unit) :=
  fs.makeBelow p.anchor p.parts.reverse

/-- What the file at a path holds. -/
def load (fs : FileAccess m) (p : PathName) : m (Except FileError ByteArray) := attempt p fs.read

/-- Writes a file, and makes the directories that it needs. -/
def save (fs : FileAccess m) (p : PathName) (text : String) : m (Except FileError Unit) := do
  match ← fs.makeDirectories p.parent with
  | .error e => return .error e
  | .ok () => attempt p (fs.write · text)

end FileAccess
end AsyncMigration
