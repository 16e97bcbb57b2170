import AsyncMigration.Command.Run

/-!
# The program

Connects the commands to the file system and the standard streams.
-/

namespace AsyncMigration

/-- The number of an error of the system; some calls give its negative. -/
def systemCode (code : UInt32) : Nat := code.toInt32.toInt.natAbs

/-- The fault that an error of the system stands for. -/
def FileFault.ofSystem : IO.Error → FileFault
  | .noFileOrDirectory .. => .missing
  | .alreadyExists .. => .occupied
  | .inappropriateType _ code text =>
    match systemCode code with
    | 20 => .notDirectory
    | 21 => .isDirectory
    | n => .other n text
  | .invalidArgument _ code text =>
    match systemCode code with
    | 36 => .nameTooLong
    | n => .other n text
  | .permissionDenied _ code text => .other (systemCode code) text
  | .resourceExhausted _ code text => .other (systemCode code) text
  | .otherError code text => .other (systemCode code) text
  | e => .other 5 (toString e)

/-- What a system call gives, or its fault. -/
def FileFault.catching {α : Type} (act : IO α) : IO (Except FileFault α) := do
  try return .ok (← act)
  catch e => return .error (.ofSystem e)

/-- Access to the files of the system. -/
def systemFiles : FileAccess IO where
  read p := FileFault.catching (IO.FS.readBinFile p.text)
  kind p := FileFault.catching do
    let path := (← IO.currentDir) / p.text
    match (← path.metadata).type with
    | .file => return .file
    | .dir => return .directory
    | _ => return .special
  makeDirectory p := FileFault.catching (IO.FS.createDir p.text)
  write p text := FileFault.catching (IO.FS.writeFile p.text text)

/-- A step to a place in a payload, as a notice shows it. -/
def PlaceStep.text : PlaceStep → String
  | .name s => s
  | .index i => toString i

/-- A problem of a payload, as a notice shows it. -/
def Problem.text (p : Problem) : String :=
  ".".intercalate (p.place.map PlaceStep.text) ++ ": " ++ p.kind.code

/-- What to tell about arguments that are wrong. -/
def UsageError.text : UsageError → String
  | .noCommand => "the command is analyze or summary"
  | .unknownOption => "no such option"
  | .badOption => "an option has no value, or a flag has one"
  | .badWorkers => "--workers takes a whole number from 1 on"
  | .badPath => "a path cannot contain a null character"
  | .noPaths => "a payload file is needed"

/-- What to tell about a failure. -/
def CommandError.notice (e : CommandError) : String :=
  match e with
  | .usage u => u.text
  | .load (.invalid p problems) =>
    p.text ++ ": " ++ ", ".intercalate (problems.map Problem.text)
  | .load (.undecodable p) | .config (.undecodable p) => p.text ++ ": not UTF-8"
  | e => e.message?.getD ""

end AsyncMigration

open AsyncMigration in
/-- Runs a command and gives its exit code. -/
def main (args : List String) : IO UInt32 := do
  let outcome ← Command.runArguments systemFiles args
  IO.eprint outcome.log
  IO.print outcome.output
  match outcome.error with
  | some e => IO.eprintln ("Error: " ++ e.notice)
  | none => pure ()
  return outcome.exitCode.toUInt32
