/-!
# Tables

A table holds at most one value per key, its keys in the order of their first insertion. Inserting
under a key that is present replaces the value and keeps the place.
-/

namespace AsyncMigration

/-- A finite map that remembers the order of its keys. -/
structure Table (κ : Type) (α : Type) where
  entries : List (κ × α) := []
deriving Repr

namespace Table

variable {κ α : Type} [DecidableEq κ]

/-- The value found under `k` in a list of entries. -/
def find (k : κ) : List (κ × α) → Option α
  | [] => none
  | (k', a) :: es => if k' = k then some a else find k es

/-- Puts `a` under `k` in a list of entries. -/
def put (k : κ) (a : α) : List (κ × α) → List (κ × α)
  | [] => [(k, a)]
  | (k', a') :: es => if k' = k then (k, a) :: es else (k', a') :: put k a es

/-- The value under a key. -/
def get? (t : Table κ α) (k : κ) : Option α := find k t.entries

/-- Whether a key is present. -/
def contains (t : Table κ α) (k : κ) : Bool := (t.get? k).isSome

/-- Puts a value under a key. -/
def insert (t : Table κ α) (k : κ) (a : α) : Table κ α := ⟨put k a t.entries⟩

/-- The keys in the order of their first insertion. -/
def keys (t : Table κ α) : List κ := t.entries.map (·.1)

/-- The values in the order of their keys. -/
def values (t : Table κ α) : List α := t.entries.map (·.2)

/-- The number of keys. -/
def size (t : Table κ α) : Nat := t.entries.length

theorem find_put (k k' : κ) (a : α) (es : List (κ × α)) :
    find k' (put k a es) = if k = k' then some a else find k' es := by
  induction es with
  | nil => simp [put, find]
  | cons e es ih => grind [put, find]

@[simp] theorem get?_insert (t : Table κ α) (k k' : κ) (a : α) :
    (t.insert k a).get? k' = if k = k' then some a else t.get? k' := find_put k k' a t.entries

@[simp] theorem contains_insert (t : Table κ α) (k k' : κ) (a : α) :
    (t.insert k a).contains k' = (decide (k = k') || t.contains k') := by
  by_cases h : k = k' <;> simp [contains, h]

theorem mem_of_find {k : κ} {a : α} {es : List (κ × α)} (h : find k es = some a) :
    (k, a) ∈ es := by
  induction es with
  | nil => simp [find] at h
  | cons e es ih => grind [find]

theorem isSome_find {k : κ} {es : List (κ × α)} : (find k es).isSome = true ↔ k ∈ es.map (·.1) := by
  induction es with
  | nil => simp [find]
  | cons e es ih => grind [find]

theorem mem_keys {t : Table κ α} {k : κ} : k ∈ t.keys ↔ t.contains k = true := isSome_find.symm

theorem put_of_not_mem {k : κ} {es : List (κ × α)} (a : α) (h : k ∉ es.map (·.1)) :
    put k a es = es ++ [(k, a)] := by
  induction es with
  | nil => rfl
  | cons e es ih => grind [put]

theorem map_put_of_mem {k : κ} {es : List (κ × α)} (a : α) (h : k ∈ es.map (·.1)) :
    (put k a es).map (·.1) = es.map (·.1) := by
  induction es with
  | nil => simp at h
  | cons e es ih => grind [put]

/-- What is put under a new key comes last. -/
theorem entries_insert_of_not_mem {t : Table κ α} {k : κ} (a : α) (h : k ∉ t.keys) :
    (t.insert k a).entries = t.entries ++ [(k, a)] := put_of_not_mem a h

theorem keys_insert_of_not_mem {t : Table κ α} {k : κ} (a : α) (h : k ∉ t.keys) :
    (t.insert k a).keys = t.keys ++ [k] := by
  rw [keys, entries_insert_of_not_mem a h]
  simp [keys]

theorem keys_insert_of_mem {t : Table κ α} {k : κ} (a : α) (h : k ∈ t.keys) :
    (t.insert k a).keys = t.keys := map_put_of_mem a h

end Table
end AsyncMigration
