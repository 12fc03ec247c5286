/-!
# Call sites

A call site is an expression on a route, or on no known route. A set of them remembers which were
met before.
-/

namespace RequestAccess

/-- Where something was used: an expression on a route. -/
structure Callsite where
  route : Option String
  expression : String
deriving DecidableEq

/-- The call sites met so far, the latest first. -/
structure Callsites where
  met : List Callsite := []

namespace Callsites

def empty : Callsites := {}

def contains (s : Callsites) (c : Callsite) : Bool := s.met.contains c

/-- Remembers a call site, and tells whether it was new. -/
def visit (s : Callsites) (c : Callsite) : Callsites × Bool :=
  if s.contains c then (s, false) else (⟨c :: s.met⟩, true)

def size (s : Callsites) : Nat := s.met.length

end Callsites

end RequestAccess
