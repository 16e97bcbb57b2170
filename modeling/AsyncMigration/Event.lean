import AsyncMigration.Text.Quoted

/-!
# Log events

What happens on the way is told as events. Each has a level, the part of the program it comes from,
and a text.
-/

namespace AsyncMigration

/-- How much an event matters. -/
inductive Level where
  | debug
  | info
  | warning
  | error
  | critical
deriving DecidableEq, Repr

namespace Level

/-- The level as a log line shows it. -/
def name : Level → String
  | debug => "DEBUG"
  | info => "INFO"
  | warning => "WARNING"
  | error => "ERROR"
  | critical => "CRITICAL"

/-- The position of the level. -/
def rank : Level → Nat
  | debug => 10
  | info => 20
  | warning => 30
  | error => 40
  | critical => 50

/-- The level that a threshold of a given name, in upper case, stands for. Without a threshold of
its own a log shows warnings. -/
def ofThreshold? : String → Option Level
  | "DEBUG" => some debug
  | "INFO" => some info
  | "WARN" => some warning
  | "WARNING" => some warning
  | "ERROR" => some error
  | "CRITICAL" => some critical
  | "FATAL" => some critical
  | "NOTSET" => some warning
  | _ => none

end Level

/-- Something worth telling. -/
inductive Event where
  | bodyUnscannable (function path reason : String)
  | unitUnparsed (path error : String)
  | duplicateIgnored (function : String)
  | callDropped (caller : String)
  | graphBuilt (functions sinks calls : Nat)
  | cycleFound (members : List String)
  | backEdgesFound (root : String) (edges : List (String × String))
  | decided (function category : String) (rationale : List String)
  | unknownRoot (root : String)
  | payloadLoaded (units : Nat) (path : String)
deriving DecidableEq, Repr

namespace Event

/-- How much the event matters. -/
def level : Event → Level
  | graphBuilt .. | cycleFound .. | backEdgesFound .. | decided .. | payloadLoaded .. => .debug
  | _ => .warning

/-- The part of the program that the event comes from. -/
def source : Event → String
  | bodyUnscannable .. => "riprap.analysis.patterns"
  | unitUnparsed .. | duplicateIgnored .. => "riprap.analysis.catalog"
  | callDropped .. | graphBuilt .. => "riprap.analysis.call_graph"
  | cycleFound .. | backEdgesFound .. => "riprap.analysis.dependency"
  | decided .. => "riprap.analysis.decision"
  | unknownRoot .. => "riprap.analysis.session"
  | payloadLoaded .. => "riprap.ingest.json_frontend"

/-- A pair of names, quoted. -/
def quotedPair (p : String × String) : String :=
  "(" ++ Text.quoted p.1 ++ ", " ++ Text.quoted p.2 ++ ")"

/-- The event in words. -/
def text : Event → String
  | bodyUnscannable function path reason => "cannot scan " ++ function ++ " in " ++ path ++ ": " ++ reason
  | unitUnparsed path error => path ++ " failed to parse: " ++ error
  | duplicateIgnored function => "duplicate definition of " ++ function ++ " ignored"
  | callDropped caller => "dropping call site from unknown caller " ++ caller
  | graphBuilt functions sinks calls =>
    "call graph: " ++ toString functions ++ " functions, " ++ toString sinks ++ " sinks, "
      ++ toString calls ++ " call sites"
  | cycleFound members => "cycle component " ++ ", ".intercalate members
  | backEdgesFound root edges =>
    root ++ ": back edges [" ++ ", ".intercalate (edges.map quotedPair) ++ "]"
  | decided function category rationale =>
    function ++ " -> " ++ category ++ " " ++ Text.quotedList rationale
  | unknownRoot root => "root " ++ root ++ " is not a catalogued function"
  | payloadLoaded units path => "loaded " ++ toString units ++ " units from " ++ path

/-- The line that a log shows for the event. -/
def line (e : Event) : String := e.level.name ++ " " ++ e.source ++ ": " ++ e.text ++ "\n"

end Event

/-- The lines that a log with a given threshold shows. -/
def logText (threshold : Level) (events : List Event) : String :=
  String.join ((events.filter fun e => threshold.rank ≤ e.level.rank).map Event.line)

end AsyncMigration
