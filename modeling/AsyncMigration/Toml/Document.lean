import AsyncMigration.Config.Value

/-!
# TOML documents

A document is built statement by statement. A table can be opened by a header once; a table that was
made by a dotted key cannot be opened at all; and lists and tables written in one piece cannot be
added to.
-/

namespace AsyncMigration.Toml

/-- A key, part by part. -/
abbrev Key := List String

/-- A statement of a document. -/
inductive Statement where
  /-- A key with its value. -/
  | entry (key : Key) (value : ConfigValue)
  /-- The header of a table. -/
  | tableHeader (key : Key)
  /-- The header of a further table in a list of tables. -/
  | listHeader (key : Key)

/-- Puts a value under a name; a name that is present keeps its place. -/
def put (name : String) (v : ConfigValue) : ConfigTable → ConfigTable
  | [] => [(name, v)]
  | (k, w) :: t => if k = name then (k, v) :: t else (k, w) :: put name v t

/-- Changes the table at a key. Tables on the way are made if they are missing; a list of tables is
entered at its last one if `lists` says so. -/
def within (lists : Bool) (f : ConfigTable → Option ConfigTable) :
    Key → ConfigTable → Option ConfigTable
  | [], t => f t
  | k :: ks, t => do
    let changed ← match (t.lookup k).getD (.table []) with
      | .table inner => (within lists f ks inner).map .table
      | .list items =>
        match lists, items.reverse with
        | true, .table inner :: earlier =>
          (within lists f ks inner).map fun t => .list (earlier.reverse ++ [.table t])
        | _, _ => none
      | _ => none
    return put k changed t

/-- Adds an entry under a new name. -/
def addNew (name : String) (v : ConfigValue) (t : ConfigTable) : Option ConfigTable :=
  if (t.lookup name).isSome then none else some (put name v t)

/-- Adds a table to a list of tables. -/
def addToList (name : String) (t : ConfigTable) : Option ConfigTable :=
  match t.lookup name with
  | none => some (put name (.list [.table []]) t)
  | some (.list items) => some (put name (.list (items ++ [.table []])) t)
  | some _ => none

/-- Whether a value was written in one piece and cannot be added to. -/
def isInline : ConfigValue → Bool
  | .list _ | .table _ => true
  | _ => false

/-- Whether a key is one of `keys` or below one. -/
def isAtOrBelow (keys : List Key) (k : Key) : Bool := keys.any (·.isPrefixOf k)

/-- A table written in one piece, under construction. -/
structure InlineTable where
  table : ConfigTable := []
  /-- What cannot be added to. -/
  closed : List Key := []

/-- Adds an entry to a table written in one piece. -/
def InlineTable.add (t : InlineTable) (k : Key) (v : ConfigValue) : Option InlineTable :=
  if isAtOrBelow t.closed k then none
  else do
    let table ← within false (addNew (k.getLastD "") v) k.dropLast t.table
    return { table, closed := if isInline v then k :: t.closed else t.closed }

/-- A document under construction. -/
structure Document where
  table : ConfigTable := []
  /-- The table that entries are put into. -/
  header : Key := []
  /-- The tables that cannot be opened again. -/
  declared : List Key := []
  /-- Those that dotted keys have made since the last header. -/
  pending : List Key := []
  /-- What cannot be added to. -/
  closed : List Key := []

namespace Document

/-- Adds an entry to the table of the last header. -/
def addEntry (d : Document) (k : Key) (v : ConfigValue) : Option Document :=
  let made := (List.range (k.length - 1)).map fun i => d.header ++ k.take (i + 1)
  let parent := d.header ++ k.dropLast
  if made.any d.declared.contains || isAtOrBelow d.closed parent then none
  else do
    let table ← within true (addNew (k.getLastD "") v) parent d.table
    return { d with
      table
      pending := d.pending ++ made
      closed := if isInline v then (d.header ++ k) :: d.closed else d.closed }

/-- What dotted keys have made cannot be opened from here on. -/
def settle (d : Document) : Document :=
  { d with declared := d.declared ++ d.pending, pending := [] }

/-- Opens a table. -/
def openTable (d : Document) (k : Key) : Option Document :=
  if d.declared.contains k || isAtOrBelow d.closed k then none
  else do
    let table ← within true some k d.table
    return { d with table, header := k, declared := k :: d.declared }

/-- Opens a further table in a list of tables; nothing in it has been declared yet. -/
def openListTable (d : Document) (k : Key) : Option Document :=
  if isAtOrBelow d.closed k then none
  else do
    let table ← within true (addToList (k.getLastD "")) k.dropLast d.table
    let outside (x : Key) : Bool := !k.isPrefixOf x
    return { d with
      table
      header := k
      declared := k :: d.declared.filter outside
      closed := d.closed.filter outside }

/-- Takes a statement. -/
def add (d : Document) : Statement → Option Document
  | .entry k v => d.addEntry k v
  | .tableHeader k => d.settle.openTable k
  | .listHeader k => d.settle.openListTable k

end Document
end AsyncMigration.Toml
