import AsyncMigration.Command.Arguments
import AsyncMigration.Config.File
import AsyncMigration.FrontEnd.Load
import AsyncMigration.Json.Writer
import AsyncMigration.Report.Json
import AsyncMigration.Session
import AsyncMigration.Text.Terminal

/-!
# Running a command

A command is checked in order: its log level, its language, its payloads, its configuration. Then
the roots are analysed and the result is written. What is printed is printed as `Text.shown`.

| here | in `riprap.cli` |
| --- | --- |
| `Level.ofThreshold?`, `logText` | `_configure_logging`, `_EchoHandler.emit` |
| `Command.settings` | `_resolve_config` |
| `Command.result` | `run`, `_load_bundle` |
| `Command.deliver` | `_write_text_to_target`, and what `analyze` and `summary` write |
| `Command.run` | `analyze`, `summary` |
-/

namespace AsyncMigration

/-- Why a command failed. -/
inductive CommandError where
  | usage (e : UsageError)
  | unknownLevel (name : String)
  | unknownFrontEnd (e : UnknownFrontEnd)
  | load (e : LoadError)
  | configMissing (path : PathName)
  | config (e : ConfigError)
  | analysis (e : AnalysisError)
  | output (e : FileError)

namespace CommandError

/-- A value that an option or argument cannot have. -/
def invalidValue (place text : String) : String := "Invalid value for " ++ place ++ ": " ++ text

/-- The error in words, if there are any. -/
def message? : CommandError → Option String
  | usage _ => none
  | unknownLevel name => some (invalidValue "--log-level" ("unknown log level " ++ Text.quoted name))
  | unknownFrontEnd e => some (invalidValue "--language" e.message)
  | load (.unreadable (.nullCharacter p)) => some (FileError.nullCharacter p).message
  | load e => e.message?.map (invalidValue "PATHS")
  | configMissing path => some (invalidValue "--config" ("config file not found: " ++ path.text))
  | config e => e.message?
  | analysis e => some e.message
  | output e => some e.message

/-- The exit code: two if the arguments are to blame, else one. -/
def exitCode : CommandError → Nat
  | usage _ | unknownLevel _ | unknownFrontEnd _ | configMissing _ => 2
  | load (.unreadable (.fault ..)) | load (.invalid ..) => 2
  | load _ | config _ | analysis _ | output _ => 1

end CommandError

/-- What a command leaves behind. -/
structure Outcome where
  output : String := ""
  log : String := ""
  error : Option CommandError := none
  exitCode : Nat := 0

/-- The outcome of a failure. -/
def Outcome.failed (e : CommandError) (log : String) : Outcome :=
  { log, error := some e, exitCode := e.exitCode }

/-- A root in a summary. -/
def RootReport.summaryLine (r : RootReport) : String :=
  let f := r.function
  f.name ++ ": " ++ f.decision.category.name ++ "/" ++ f.priority.tier.name ++ " "
    ++ f.priority.score.briefText ++ "\n"

/-- A failure in a summary. -/
def Failure.summaryLine (f : Failure) : String :=
  f.kind ++ ": " ++ f.subject ++ ": " ++ f.reason ++ "\n"

/-- A result in a few lines. -/
def Result.summary (r : Result) : String :=
  (if r.roots.isEmpty then "No roots analyzed.\n" else "")
    ++ String.join (r.roots.map RootReport.summaryLine)
    ++ String.join (r.failures.map Failure.summaryLine)

/-- A result as a document. -/
def Result.document (r : Result) : String := r.toJson.pretty ++ "\n"

namespace Command

/-- What both commands take. -/
def options : Command → CommandOptions
  | analyze options .. => options
  | summary options => options

/-- The number of workers that the command asks for. -/
def workers? : Command → Option Int
  | analyze _ _ workers _ => workers
  | summary _ => none

variable {m : Type → Type} [Monad m]

/-- The settings for a command. A configuration file that is named has to be there. -/
def settings (fs : FileAccess m) (c : Command) : m (Except CommandError Settings) := do
  if let some p := c.options.config then
    match ← fs.isKind .file p with
    | .ok true => pure ()
    | .ok false => return .error (.configMissing p)
    | .error e => return .error (.config (.unreachable e))
  let loaded ← loadSettings fs (configPath c.options.config none)
  return (loaded.map fun s => { s with workers := c.workers?.getD s.workers }).mapError .config

/-- The result of a command, and what happened on the way. -/
def result (fs : FileAccess m) (c : Command) : m (Except CommandError Result × List Event) := do
  let o := c.options
  match frontEnds.select o.paths o.language with
  | .error e => return (.error (.unknownFrontEnd e), [])
  | .ok frontEnd =>
    let (loaded, events) ← PayloadFrontEnd.load frontEnd fs o.paths
    match loaded with
    | .error e => return (.error (.load e), events)
    | .ok bundle =>
      match ← c.settings fs with
      | .error e => return (.error e, events)
      | .ok settings =>
        let roots := if o.roots.isEmpty then bundle.roots else o.roots
        let (result, more) := AsyncMigration.analyze bundle.units roots settings
        return (result.mapError .analysis, events ++ more)

/-- Writes the result of a command. -/
def deliver (fs : FileAccess m) (r : Result) (log : String) : Command → m Outcome
  | analyze _ output _ failOnHigh => do
    let exitCode := if failOnHigh && r.requiresAttention .high then 1 else 0
    match output with
    | none => return { output := r.document, log, exitCode }
    | some p =>
      match ← fs.save p r.document with
      | .ok () => return { log, exitCode }
      | .error e => return .failed (.output e) log
  | summary _ => return { output := Text.shown r.summary, log }

/-- Runs a command. -/
def run (fs : FileAccess m) (c : Command) : m Outcome := do
  let level := c.options.logLevel
  match Level.ofThreshold? (level.map Text.upperAscii) with
  | none => return .failed (.unknownLevel level) ""
  | some threshold =>
    let (result, events) ← c.result fs
    let log := Text.shown (logText threshold events)
    match result with
    | .error e => return .failed e log
    | .ok r => c.deliver fs r log

/-- Runs the command that arguments spell. -/
def runArguments (fs : FileAccess m) (args : List String) : m Outcome :=
  match ofArguments args with
  | .error e => return .failed (.usage e) ""
  | .ok c => c.run fs

end Command
end AsyncMigration
