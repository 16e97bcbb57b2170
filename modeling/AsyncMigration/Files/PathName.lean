import AsyncMigration.Text.Blank

/-!
# Path names

A path name is where it starts and the parts from there on. Empty parts and single points say
nothing and are left out, so a path name has one spelling; two points stay, because a part before
them may not be a directory.
-/

namespace AsyncMigration

/-- Where a path name starts. -/
inductive Anchor where
  /-- The working directory. -/
  | here
  /-- The root directory. -/
  | root
  /-- A root of its own kind, written with exactly two slashes. -/
  | doubleRoot
deriving DecidableEq, Repr

/-- A path name. -/
structure PathName where
  anchor : Anchor := .here
  parts : List String := []
deriving DecidableEq, Repr

namespace PathName

/-- Where a path name with this spelling starts. -/
def anchorOf : List Char → Anchor
  | '/' :: '/' :: '/' :: _ => .root
  | '/' :: '/' :: _ => .doubleRoot
  | '/' :: _ => .root
  | _ => .here

/-- The path name with a given spelling. -/
def ofText (s : String) : PathName :=
  { anchor := anchorOf s.toList
    parts := ((Text.cut '/' s.toList).map String.ofList).filter fun p => p ≠ "" && p ≠ "." }

/-- How a path name is spelled. -/
def text (p : PathName) : String :=
  let below := "/".intercalate p.parts
  match p.anchor with
  | .here => if p.parts.isEmpty then "." else below
  | .root => "/" ++ below
  | .doubleRoot => "//" ++ below

/-- The path name of something in a directory. -/
def child (p : PathName) (name : String) : PathName := { p with parts := p.parts ++ [name] }

/-- The path name of the directory that something is in. -/
def parent (p : PathName) : PathName := { p with parts := p.parts.dropLast }

/-- Whether there is a null character in a path name; no file has such a name. -/
def hasNull (p : PathName) : Bool := p.parts.any fun part => part.toList.contains (Char.ofNat 0)

/-- The suffix of a file name: its last point and what follows. A point at the start or at the end
of the name begins no suffix. -/
def suffixOf (name : List Char) : List Char :=
  let tail := (name.reverse.takeWhile (· ≠ '.')).reverse
  if tail.isEmpty || name.length ≤ tail.length + 1 then [] else '.' :: tail

/-- The suffix of the last part. -/
def suffix (p : PathName) : String := String.ofList (suffixOf (p.parts.getLastD "").toList)

end PathName
end AsyncMigration
