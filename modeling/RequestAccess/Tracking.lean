/-!
# Tracking logs

A prerender can keep a log of the dynamic data it used. The log only grows.
-/

namespace RequestAccess

structure DynamicUse where
  expression : String
  /-- Where it happened, if that was captured. -/
  stack : Option String := none
deriving DecidableEq

/-- The uses of dynamic data in the order they happened. -/
structure Tracking where
  uses : List DynamicUse := []
deriving Inhabited, DecidableEq

namespace Tracking

def record (t : Tracking) (u : DynamicUse) : Tracking := ⟨t.uses ++ [u]⟩

def size (t : Tracking) : Nat := t.uses.length

def expressions (t : Tracking) : List String := t.uses.map (·.expression)

end Tracking

/-! ## Postponement -/

/-- Handed to the renderer when a branch of a partial prerender is left for later. -/
structure Postponement where
  route : String
  expression : String
  reason : String
deriving DecidableEq

namespace Postponement

def standardReason (route expression : String) : String :=
  "Route " ++ route ++
    " needs to bail out of prerendering at this point because it used " ++ expression ++ "."

def standard (route expression : String) : Postponement :=
  { route, expression, reason := standardReason route expression }

end Postponement

/-- Notes a use and leaves its branch for later. -/
def Tracking.suspend (t : Tracking) (route expression : String) : Tracking × Postponement :=
  (t.record { expression }, .standard route expression)

/-- A host that leaves branches for later in its own way. It is given the tracking log of the
prerender, which it can only add to, and tells what was left for later. -/
structure Host where
  suspend (route expression : String) (t : Tracking) : Tracking × Postponement
  grows (route expression : String) (t : Tracking) :
    t.uses <+: (suspend route expression t).1.uses
  names (route expression : String) (t : Tracking) :
    (suspend route expression t).2.route = route ∧
      (suspend route expression t).2.expression = expression

/-- How a branch is left for later. -/
inductive Postponer where
  /-- The use goes into the tracking log, and the reason is the standard one. -/
  | tracking
  | byHost (host : Host)

/-- A host that gives a reason of its own and leaves the log alone. -/
def Postponer.host (reason : String → String → String) : Postponer :=
  .byHost {
    suspend route expression t := (t, { route, expression, reason := reason route expression })
    grows _ _ _ := List.prefix_refl _
    names _ _ _ := ⟨rfl, rfl⟩ }

end RequestAccess
