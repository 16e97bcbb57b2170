import AsyncMigration.Config.Settings
import AsyncMigration.Files.Access
import AsyncMigration.Text.Newline
import AsyncMigration.Toml.Reader

/-!
# Configuration files

A configuration file that is missing, or is no TOML, says nothing.

| here | in `riprap.config` |
| --- | --- |
| `configFileName`, `configPath` | `DEFAULT_CONFIG_NAME`, and where `load_config` looks for it |
| `loadConfig` | `_load_toml` |
| `loadSettings` | `engine_config` |
-/

namespace AsyncMigration

/-- The name of the configuration file of a directory. -/
def configFileName : String := "riprap.toml"

/-- Why a configuration cannot be used. -/
inductive ConfigError where
  /-- The file cannot even be looked for. -/
  | unreachable (e : FileError)
  /-- The file is not UTF-8. -/
  | undecodable (path : PathName)
  | excess (e : Toml.Excess)
  | outOfRange (e : Binary64.ConversionError)

/-- The error in words, if there are any. -/
def ConfigError.message? : ConfigError → Option String
  | unreachable e => some e.message
  | undecodable _ => none
  | excess e => some e.message
  | outOfRange e => some e.message

variable {m : Type → Type} [Monad m]

/-- The configuration in a file. -/
def loadConfig (fs : FileAccess m) (p : PathName) : m (Except ConfigError ConfigTable) := do
  match ← fs.load p with
  | .error (.fault ..) => return .ok []
  | .error (.nullCharacter p) => return .error (.unreachable (.nullCharacter p))
  | .ok bytes =>
    match Text.ofBytes? bytes with
    | none => return .error (.undecodable p)
    | some text =>
      match Toml.parse text with
      | .ok t => return .ok t
      | .error .malformed => return .ok []
      | .error (.excess e) => return .error (.excess e)

/-- The path of the configuration: the file that is given, or else the one in a directory. -/
def configPath (file directory : Option PathName) : PathName :=
  file.getD ((directory.getD {}).child configFileName)

/-- The settings of a configuration. -/
def ConfigTable.settings (t : ConfigTable) : Except ConfigError Settings :=
  (Settings.ofTable t).mapError .outOfRange

/-- The settings in a file. -/
def loadSettings (fs : FileAccess m) (p : PathName) : m (Except ConfigError Settings) := do
  return (← loadConfig fs p).bind ConfigTable.settings

/-- The names at the top of a configuration, in order. -/
def ConfigTable.sections (t : ConfigTable) : List String := (NameSet.ofList (t.map (·.1))).names

end AsyncMigration
