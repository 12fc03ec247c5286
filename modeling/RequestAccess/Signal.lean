/-!
# Render signals

A signal fires at most once. Who listens to it and has asked whether it fired is woken when it
does; a listener has at most one waker, the one it asked with last.
-/

namespace RequestAccess

abbrev Waker := Nat

/-- A signal that fires once, and those who wait for it. -/
structure Signal where
  aborted : Bool := false
  /-- The number of the next listener. -/
  nextListener : Nat := 0
  /-- The waiting listeners with their wakers. -/
  waiting : List (Nat × Waker) := []
  /-- The wakers that were woken. -/
  woken : List Waker := []
deriving Inhabited

namespace Signal

def waiters (s : Signal) : Nat := s.waiting.length

/-- A new listener. It does not wait until it asks. -/
def listen (s : Signal) : Signal × Nat :=
  ({ s with nextListener := s.nextListener + 1 }, s.nextListener)

/-- Puts a listener among the waiting ones, or gives it another waker. -/
def await (listener : Nat) (waker : Waker) : List (Nat × Waker) → List (Nat × Waker)
  | [] => [(listener, waker)]
  | (l, w) :: rest =>
    if l = listener then (l, waker) :: rest else (l, w) :: await listener waker rest

/-- Asks whether the signal has fired. If it has not, the listener waits for it. -/
def poll (s : Signal) (listener : Nat) (waker : Waker) : Signal × Bool :=
  if s.aborted then (s, true)
  else ({ s with waiting := await listener waker s.waiting }, false)

/-- Forgets a listener without waking it. -/
def drop (s : Signal) (listener : Nat) : Signal :=
  { s with waiting := s.waiting.filter fun w => w.1 ≠ listener }

/-- Fires the signal and wakes the waiting listeners, and tells whether it had not fired before. -/
def abort (s : Signal) : Signal × Bool :=
  if s.aborted then (s, false)
  else
    ({ s with aborted := true, waiting := [], woken := s.woken ++ s.waiting.map (·.2) }, true)

def describe (s : Signal) : String :=
  "RenderSignal \x7b aborted: " ++ (if s.aborted then "true" else "false") ++
    ", waiters: " ++ toString s.waiters ++ " \x7d"

end Signal

end RequestAccess
