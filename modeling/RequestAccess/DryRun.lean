/-!
# Development dry runs

A live request can start as a dry run. Unawaited use of its data ends the dry run, once.
-/

namespace RequestAccess

/-- Whether a request is still one that only tries what it would do. -/
inductive DryRun where
  | inactive
  | active
  /-- Ended by unawaited use. -/
  | escalated
deriving DecidableEq

namespace DryRun

def ofActive (active : Bool) : DryRun := if active then .active else .inactive

def isActive (d : DryRun) : Bool := d == .active

def isEscalated (d : DryRun) : Bool := d == .escalated

/-- Ends the dry run, and tells whether there was one to end. -/
def escalate : DryRun → DryRun × Bool
  | active => (escalated, true)
  | d => (d, false)

def describe (d : DryRun) : String :=
  "PrerenderPhase \x7b active: " ++ (if d.isActive then "true" else "false") ++
    ", escalated: " ++ (if d.isEscalated then "true" else "false") ++ " \x7d"

end DryRun

end RequestAccess
