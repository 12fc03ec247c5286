import RequestAccess.Event

/-!
# Reporters

A reporter tells each call site once, for as long as it lives.
-/

namespace RequestAccess

/-- Where diagnostics go. -/
inductive Sink where
  /-- To whoever observes the program. -/
  | observed
  /-- Into the reporter's own list. -/
  | collected
  | logger (logger : Logger)

namespace Sink

def fields (d : Diagnostic) : NameMap Json :=
  .ofList [("expression", .text d.expression), ("api", .text d.api),
    ("escalated", .bool d.escalated)]

def events : Sink → Diagnostic → List Event
  | observed, d => [.diagnosed d]
  | collected, _ => []
  | logger l, d => l.log .warn d.message (fields d)

end Sink

/-- Where diagnostics go, and of which call sites it was told. -/
structure Reporter where
  sink : Sink := .collected
  /-- The call sites that were told. -/
  told : Callsites := .empty
  collected : List Diagnostic := []
deriving Inhabited

namespace Reporter

/-- Hands a diagnostic to the sink. -/
def deliver (r : Reporter) (d : Diagnostic) : Reporter :=
  match r.sink with
  | .collected => { r with collected := r.collected ++ [d] }
  | _ => r

/-- Tells the use of a value, if its call site is new. -/
def report (r : Reporter) (d : Diagnostic) : Reporter × List Event :=
  let (told, isNew) := r.told.visit d.callsite
  if isNew then ({ r with told }.deliver d, r.sink.events d) else (r, [])

/-- How many call sites were told. -/
def reported (r : Reporter) : Nat := r.told.size

end Reporter

end RequestAccess
