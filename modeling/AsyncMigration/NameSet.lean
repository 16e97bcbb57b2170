/-!
# Sets of names

A set of names is kept as a list in rising order of code points, without repeats, so that equal sets
are equal lists and the order in which reports show them is the order in which they are held.
-/

namespace AsyncMigration

/-- Puts a name into its place; a name that is present is not repeated. -/
def insertName (s : String) : List String → List String
  | [] => [s]
  | t :: ts => if s < t then s :: t :: ts else if s = t then t :: ts else t :: insertName s ts

theorem mem_insertName {s x : String} {ts : List String} :
    x ∈ insertName s ts ↔ x = s ∨ x ∈ ts := by
  induction ts with
  | nil => simp [insertName]
  | cons t ts ih => grind [insertName]

/-- A finite set of names. -/
structure NameSet where
  names : List String := []
deriving DecidableEq, Repr

namespace NameSet

/-- The set without names. -/
def empty : NameSet := {}

/-- Adds a name. -/
def insert (a : NameSet) (s : String) : NameSet := ⟨insertName s a.names⟩

/-- The set of the names of a list. -/
def ofList (ss : List String) : NameSet := ⟨ss.foldr insertName []⟩

/-- The names of either set. -/
def union (a b : NameSet) : NameSet := ⟨a.names.foldr insertName b.names⟩

/-- Whether a name is in the set. -/
def contains (a : NameSet) (s : String) : Bool := a.names.contains s

@[simp] theorem mem_insert {a : NameSet} {s x : String} :
    x ∈ (a.insert s).names ↔ x = s ∨ x ∈ a.names := mem_insertName

@[simp] theorem mem_union {a b : NameSet} {x : String} :
    x ∈ (a.union b).names ↔ x ∈ a.names ∨ x ∈ b.names := by
  show x ∈ a.names.foldr insertName b.names ↔ _
  induction a.names with
  | nil => simp
  | cons s ss ih => simp [mem_insertName, ih, or_assoc]

@[simp] theorem mem_ofList {ss : List String} {x : String} :
    x ∈ (ofList ss).names ↔ x ∈ ss := by
  show x ∈ ss.foldr insertName [] ↔ _
  induction ss with
  | nil => simp
  | cons s ss ih => simp [mem_insertName, ih]

end NameSet
end AsyncMigration
