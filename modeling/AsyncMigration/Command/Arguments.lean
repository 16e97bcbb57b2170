import AsyncMigration.Files.PathName
import AsyncMigration.Number.IntegerText

/-!
# Command-line arguments

A command is its name, then paths and options in any order. The value of an option follows it or an
equals sign; two dashes end the options. Where an option is repeated the last one counts, but roots
add up.

| here | in `riprap.cli` |
| --- | --- |
| `Command.ofArguments` | the commands and their options |
| `Command.analyzeForm`, `Command.sharedForm` | the options of `analyze`, and those of `summary` |
-/

namespace AsyncMigration

/-- What is wrong with the arguments. -/
inductive UsageError where
  | noCommand
  | unknownOption
  /-- A value is missing, or is given to a flag. -/
  | badOption
  | badWorkers
  /-- There is a null character in a path. -/
  | badPath
  | noPaths
deriving DecidableEq, Repr

/-- What an option takes. -/
inductive OptionForm where
  | flag
  | value
deriving DecidableEq, Repr

/-- An argument as understood. -/
inductive Argument where
  | path (text : String)
  | flag (name : String)
  | option (name value : String)
deriving DecidableEq, Repr

/-- Whether an argument is an option; a single dash is none. -/
def isOption : List Char → Bool
  | '-' :: _ :: _ => true
  | _ => false

/-- Parts the name of an option from the value after an equals sign. -/
def splitOption (arg : String) : String × Option String :=
  let cs := arg.toList
  let name := String.ofList (cs.takeWhile (· ≠ '='))
  match cs.dropWhile (· ≠ '=') with
  | _ :: value => (name, some (String.ofList value))
  | [] => (name, none)

/-- Reads arguments; `form` says which options there are. -/
def readArguments (form : String → Option OptionForm) :
    List String → Except UsageError (List Argument)
  | [] => .ok []
  | arg :: rest =>
    if arg = "--" then .ok (rest.map .path)
    else if isOption arg.toList then
      match form (splitOption arg).1, (splitOption arg).2, rest with
      | none, _, _ => .error .unknownOption
      | some .flag, some _, _ => .error .badOption
      | some .flag, none, rest => (readArguments form rest).map (.flag arg :: ·)
      | some .value, some v, rest =>
        (readArguments form rest).map (.option (splitOption arg).1 v :: ·)
      | some .value, none, [] => .error .badOption
      | some .value, none, v :: rest => (readArguments form rest).map (.option arg v :: ·)
    else (readArguments form rest).map (.path arg :: ·)

/-- The paths among arguments, as written. -/
def pathsIn (args : List Argument) : List String :=
  args.filterMap fun
    | .path s => some s
    | _ => none

/-- The values of an option. -/
def valuesOf (name : String) (args : List Argument) : List String :=
  args.filterMap fun
    | .option n v => if n = name then some v else none
    | _ => none

/-- The value of an option that counts. -/
def valueOf? (name : String) (args : List Argument) : Option String := (valuesOf name args).getLast?

/-- Whether a flag is set: the last of the flag and its opposite counts. -/
def isSet (name opposite : String) (args : List Argument) : Bool :=
  (args.filterMap fun
    | .flag n => if n = name then some true else if n = opposite then some false else none
    | _ => none).getLastD false

/-- A number of workers, which is at least one. -/
def workersOf (s : String) : Except UsageError Int :=
  match IntegerText.read s with
  | .ok n => if 1 ≤ n then .ok n else .error .badWorkers
  | .error _ => .error .badWorkers

/-- A path without null characters. -/
def pathOf (s : String) : Except UsageError PathName :=
  if (PathName.ofText s).hasNull then .error .badPath else .ok (.ofText s)

/-- What both commands take. -/
structure CommandOptions where
  paths : List PathName
  /-- The functions to analyse in place of the roots of the payloads. -/
  roots : List String := []
  config : Option PathName := none
  language : Option String := none
  logLevel : String := "WARNING"
deriving DecidableEq, Repr

/-- A command. -/
inductive Command where
  /-- Writes the whole result to standard output or to a file. -/
  | analyze (options : CommandOptions) (output : Option PathName) (workers : Option Int)
      (failOnHigh : Bool)
  /-- Prints a line for each root. -/
  | summary (options : CommandOptions)
deriving DecidableEq, Repr

namespace Command

/-- The options of both commands. -/
def sharedForm (name : String) : Option OptionForm :=
  if ["--root", "--config", "--language", "--log-level"].contains name then some .value else none

/-- The options of the analysis. -/
def analyzeForm (name : String) : Option OptionForm :=
  if ["--output", "--workers"].contains name then some .value
  else if ["--fail-on-high", "--no-fail-on-high"].contains name then some .flag
  else sharedForm name

/-- What both commands take, from arguments; there has to be a path. -/
def optionsOf (args : List Argument) : Except UsageError CommandOptions := do
  let config ← (valueOf? "--config" args).mapM pathOf
  if (pathsIn args).isEmpty then .error .noPaths
  else return {
    paths := ← (pathsIn args).mapM pathOf
    roots := valuesOf "--root" args
    config
    language := valueOf? "--language" args
    logLevel := (valueOf? "--log-level" args).getD "WARNING" }

/-- The file to write to; a dash stands for standard output. -/
def outputOf (args : List Argument) : Option PathName :=
  match valueOf? "--output" args with
  | none | some "-" => none
  | some s => some (.ofText s)

/-- A command from its name and the arguments after it. -/
def named? (name : String) (rest : List String) : Option (Except UsageError Command) :=
  match name with
  | "analyze" => some do
    let args ← readArguments analyzeForm rest
    let workers ← (valueOf? "--workers" args).mapM workersOf
    return .analyze (← optionsOf args) (outputOf args) workers
      (isSet "--fail-on-high" "--no-fail-on-high" args)
  | "summary" => some do
    let args ← readArguments sharedForm rest
    return .summary (← optionsOf args)
  | _ => none

/-- The arguments without two dashes at the start. -/
def dropMark : List String → List String
  | "--" :: rest => rest
  | args => args

/-- A command from all arguments. There are no options before its name. -/
def ofArguments (args : List String) : Except UsageError Command :=
  match dropMark args with
  | [] => .error .noCommand
  | name :: rest =>
    match named? name rest with
    | some command => command
    | none =>
      .error (if isOption name.toList && name ≠ "--" then .unknownOption else .noCommand)

end Command
end AsyncMigration
