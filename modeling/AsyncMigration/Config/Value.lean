import AsyncMigration.Number.Binary64

/-!
# Configuration values

A configuration is a table of values, some of which are tables again.

| here | in `riprap.config` |
| --- | --- |
| `ConfigValue`, `ConfigTable` | `TomlValue`, `TomlTable` |
| `ConfigTable.inner` | `_section` |
-/

namespace AsyncMigration

/-- A value in a configuration. -/
inductive ConfigValue where
  | nothing
  | truth (b : Bool)
  | integer (i : Int)
  | real (x : Binary64)
  | text (s : String)
  /-- A date, a time or both, as written. -/
  | moment (s : String)
  | list (items : List ConfigValue)
  | table (entries : List (String × ConfigValue))
deriving Repr, Inhabited

/-- A table of values; no key occurs twice. -/
abbrev ConfigTable := List (String × ConfigValue)

/-- A table inside a table; empty if there is none of that name. -/
def ConfigTable.inner (t : ConfigTable) (name : String) : ConfigTable :=
  match t.lookup name with
  | some (.table entries) => entries
  | _ => []

end AsyncMigration
