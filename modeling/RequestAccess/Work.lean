import RequestAccess.Route
import RequestAccess.UsageError

/-!
# Works

A work is one attempt at rendering or building a route.
-/

namespace RequestAccess

/-- The render of a route, with what its units leave with it. -/
structure Work where
  route : String
  /-- Dynamic data reads as empty. -/
  forceStatic : Bool := false
  /-- The attempt fails if dynamic data is used. -/
  dynamicShouldError : Bool := false
  prefetch : Bool := false
  /-- The first use of dynamic data in a cache scope. -/
  latch : Option UsageError := none
  /-- How many such errors were built. -/
  errorsBuilt : Nat := 0
  /-- The use that made static generation give up last. -/
  dynamicUsage : Option String := none
  /-- How many handles were given that nothing remembers. -/
  detached : Nat := 0
  /-- Whether its caller still has it. -/
  alive : Bool := true

instance : Inhabited Work := ⟨{ route := "", alive := false }⟩

namespace Work

def ofRoute (r : RouteConfig) (prefetch : Bool) : Work :=
  { route := r.path, forceStatic := r.forceStatic, dynamicShouldError := r.dynamicShouldError,
    prefetch }

/-- The work without what a render does to it. -/
def asMade (work : Work) : Work :=
  { work with latch := none, errorsBuilt := 0, dynamicUsage := none, detached := 0, alive := true }

end Work

end RequestAccess
