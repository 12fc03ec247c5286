import RequestAccess.Call
import RequestAccess.Draft
import RequestAccess.Registry
import RequestAccess.Table

/-!
# Handles

A handle stands for a resource that may not be there yet. It has the resource, or it waits for the
signal of a dry run, which rejects it.
-/

namespace RequestAccess

/-! ## Values -/

/-- What a value reads from. -/
inductive Source (kind : Kind) where
  /-- Something of its own, empty and closed to change. -/
  | blank
  | shared (key : Key kind)
deriving DecidableEq

/-- Where the switching of draft mode is decided. -/
structure Binding where
  coordinator : Key .coordinator
  work : Key .work
  unit : Key .unit
deriving DecidableEq

/-- What awaiting a handle gives. -/
inductive Value where
  | cookies (source : Source .jar)
  | headers (source : Source .headers)
  | draft (source : Source .draft) (binding : Binding)
deriving DecidableEq

def Value.resource : Value → Resource
  | cookies _ => .cookies
  | headers _ => .headers
  | draft .. => .draftMode

/-! ## Identity -/

/-- Two handles are one if they have one identity. -/
inductive HandleId where
  /-- A handle that a unit remembers, by its number among those that it made. -/
  | made (unit : Key .unit) (serial : Nat)
  /-- A handle that nothing remembers, by its number among those of the work. -/
  | detached (work : Key .work) (serial : Nat)
deriving DecidableEq

/-! ## Handles -/

/-- A handle has its value or waits for it. -/
inductive HandleState where
  | resolved (value : Value)
  /-- Waits for a signal, on behalf of a route. -/
  | pending (resource : Resource) (signal : Key .signal) (route : String)
deriving DecidableEq

/-- Tells the use of a handle that was not awaited. -/
structure Guard where
  reporter : Key .reporter
  route : String
  /-- The unit whose dry run the use ends. -/
  unit : Key .unit
deriving DecidableEq

/-- A wait for a signal, on behalf of a route. -/
structure Hanging where
  resource : Resource
  signal : Key .signal
  route : String
deriving DecidableEq

/-- What a fetch gives: a value or the wait for one, and who watches its use. -/
structure Handle where
  id : HandleId
  state : HandleState
  guard? : Option Guard := none
deriving DecidableEq

namespace Handle

def resource (h : Handle) : Resource :=
  match h.state with
  | .resolved value => value.resource
  | .pending resource .. => resource

def isResolved (h : Handle) : Bool :=
  match h.state with
  | .resolved _ => true
  | .pending .. => false

/-- What the handle waits for, whether or not the signal has fired. -/
def hanging? (h : Handle) : Option Hanging :=
  match h.state with
  | .resolved _ => none
  | .pending resource signal route => some { resource, signal, route }

def isGuarded (h : Handle) : Bool := h.guard?.isSome

def describe (h : Handle) : String :=
  "DynamicHandle \x7b api: \"" ++ h.resource.api ++ "\", state: \"" ++
    (if h.isResolved then "resolved" else "hanging") ++ "\", guarded: " ++
    (if h.isGuarded then "true" else "false") ++ " \x7d"

end Handle

/-- Someone awaits a handle. -/
structure Future where
  handle : Handle
  waker : Nat
  /-- The listener with which it waits for the handle's signal, after it has asked once. -/
  listener : Option Nat := none

end RequestAccess
