import RequestAccess.Diagnostic
import RequestAccess.Log
import RequestAccess.UsageError

/-!
# Events

What an observer of the program sees happen. An event never changes what the program answers.
-/

namespace RequestAccess

inductive Event where
  /-- Dynamic data was read or draft mode switched in a cache scope. -/
  | cacheUse (use : CacheUse) (route expression : String) (scope : CacheScope)
  /-- Dynamic data was used on a route that is to fail on it. -/
  | staticBailout (route expression : String)
  /-- Static generation gave up on a route. -/
  | legacyBailout (route expression : String)
  /-- A dry run was ended by a change made at once. -/
  | dryRunAborted (route expression : String)
  /-- A branch of a partial prerender was left for later. -/
  | postponed (route expression : String)
  /-- A dry run was ended by the use of a value that was not awaited. -/
  | dryRunEscalated (route expression : String)
  | diagnosed (diagnostic : Diagnostic)
  /-- An entry was written to the error output, unless its format leaves it to the observer. -/
  | logged (entry : LogEntry) (format : LogFormat)

namespace Event

/-- What is said about an event, how loudly, and with which fields. -/
structure Record where
  level : LogLevel
  fields : List (String × Json)

def recordOf (level : LogLevel) (message route expression : String)
    (more : List (String × Json)) : Record :=
  { level
    fields := [("message", .text message), ("route", .text route),
      ("expression", .text expression)] ++ more }

def cacheMessage : CacheUse → String
  | .read => "dynamic access inside cache scope"
  | .mutation => "draft mode mutated inside cache scope"

section Shown

variable [Codec]

/-- An entry that was written has no record. -/
def record? : Event → Option Record
  | cacheUse use route expression scope =>
    some (recordOf .debug (cacheMessage use) route expression [("scope", .text scope.title)])
  | staticBailout route expression =>
    some (recordOf .debug "dynamic access with dynamic = \"error\"" route expression [])
  | legacyBailout route expression =>
    some (recordOf .debug "legacy prerender bailing out to dynamic" route expression [])
  | dryRunAborted route expression =>
    some (recordOf .debug "aborted dry-run prerender" route expression [])
  | postponed route expression =>
    some (recordOf .debug "postponing prerender branch" route expression [])
  | dryRunEscalated route expression =>
    some (recordOf .info "sync access ended development dry run, rendering dynamically" route
      expression [])
  | diagnosed d =>
    some (recordOf .warn d.message (d.route.getD "") d.expression
      [("api", .text d.api), ("escalated", .bool d.escalated)])
  | logged e .observed =>
    some {
      level := e.level
      fields := [("message", .text e.message), ("request_id", .text e.requestId),
        ("route", .text (e.route.getD "")), ("phase", .text (e.phase.getD "")),
        ("fields", .text (Codec.shown (.ofNameMap e.fields)))] }
  | logged _ _ => none

def line? : Event → Option String
  | logged e .json => some e.line
  | logged e .readable => some e.readable
  | _ => none

/-- What is written has no record, and nothing else is written. -/
theorem line?_isSome (e : Event) : e.line?.isSome = e.record?.isNone := by
  cases e with
  | logged e format => cases format <;> rfl
  | _ => rfl

end Shown

end Event

/-! ## What a logger makes of an entry -/

def Logger.log (l : Logger) (level : LogLevel) (message : String) (fields : NameMap Json) :
    List Event :=
  ((l.entry? level message fields 0).map (.logged · l.format)).toList

end RequestAccess
