import RequestAccess.Codec
import RequestAccess.Text.Pieces

/-!
# Log entries

An entry carries the request it belongs to, and any fields beside its message. It is written as one
line of JSON or as a line for a reader.
-/

namespace RequestAccess

inductive LogLevel where
  | trace
  | debug
  | info
  | warn
  | error
deriving DecidableEq

namespace LogLevel

def all : List LogLevel := [trace, debug, info, warn, error]

def name : LogLevel → String
  | trace => "trace"
  | debug => "debug"
  | info => "info"
  | warn => "warn"
  | error => "error"

/-- As shown to a reader. -/
def title : LogLevel → String
  | trace => "TRACE"
  | debug => "DEBUG"
  | info => "INFO"
  | warn => "WARN"
  | error => "ERROR"

/-- How much a level matters. -/
def weight : LogLevel → Nat
  | trace => 0
  | debug => 1
  | info => 2
  | warn => 3
  | error => 4

end LogLevel

/-- One thing that is logged, with its fields. -/
structure LogEntry where
  level : LogLevel
  message : String
  requestId : String
  route : Option String := none
  phase : Option String := none
  fields : NameMap Json := .empty
  /-- Microseconds since the logger was made. -/
  elapsed : Nat := 0

namespace LogEntry

/-- A field that repeats a fixed name stands beside it. -/
def toJson (e : LogEntry) : Json :=
  .object (
    [("level", .text e.level.name), ("message", .text e.message),
      ("request_id", .text e.requestId)] ++
    Json.optional "route" (e.route.map .text) ++
    Json.optional "phase" (e.phase.map .text) ++
    e.fields.entries ++
    [("elapsed_us", .int e.elapsed)])

section Text

variable [Codec]

/-- One line of JSON, or else the message alone. -/
def line (e : LogEntry) : String := (Codec.compact? e.toJson).getD e.message

/-- The fields as `key=value`, with a bar before the first. -/
def readableFields (fields : NameMap Json) : String :=
  match fields.entries with
  | [] => ""
  | entries => " | " ++ Text.join " " (entries.map fun f => f.1 ++ "=" ++ Codec.shown f.2)

/-- A line for a reader, without the request and the time. -/
def readable (e : LogEntry) : String :=
  "[" ++ e.level.title ++ "]" ++
    (match e.route with | some route => " " ++ route | none => "") ++
    (match e.phase with | some phase => " (" ++ phase ++ ")" | none => "") ++
    " " ++ e.message ++ readableFields e.fields

end Text

end LogEntry

/-! ## Loggers -/

inductive LogFormat where
  | json
  | readable
  /-- Entries go to whoever observes the program. -/
  | observed
deriving DecidableEq

/-- Which entries are written, and in which format. -/
structure Logger where
  requestId : String
  route : Option String := none
  phase : Option String := none
  minLevel : LogLevel := .info
  format : LogFormat := .json

namespace Logger

/-- The entry for a message, unless its level is below the logger's. -/
def entry? (l : Logger) (level : LogLevel) (message : String) (fields : NameMap Json)
    (elapsed : Nat) : Option LogEntry :=
  if level.weight < l.minLevel.weight then none
  else some
    { level, message, fields, elapsed
      requestId := l.requestId, route := l.route, phase := l.phase }

end Logger

end RequestAccess
