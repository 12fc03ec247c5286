import RequestAccess.World

/-!
# Awaiting a handle

A handle that has its resource is answered at once. One that waits for a signal is rejected when
the signal has fired, and never answered otherwise.
-/

namespace RequestAccess.World

/-- Notes that a guarded handle was awaited. -/
def markAwaited (w : World) (h : Handle) : World :=
  if h.isGuarded && !w.awaited.contains h.id then { w with awaited := h.id :: w.awaited } else w

/-- Asks a future for its value. The first time that there is none, it listens to the signal. -/
def poll (w : World) (f : Future) : World × Future × Option (Except AccessError Value) :=
  let w := w.markAwaited f.handle
  match f.handle.state with
  | .resolved v => (w, f, some (.ok v))
  | .pending r key route =>
    let (signal, listener) := match f.listener with
      | some listener => (w.signals.get key, listener)
      | none => (w.signals.get key).listen
    let (signal, fired) := signal.poll listener f.waker
    ({ w with signals := w.signals.set key signal },
      { f with listener := some listener },
      if fired then some (.error (.hangingPromiseRejection route r.quotedCall)) else none)

/-- Gives up a future. It is not woken any more. -/
def dropFuture (w : World) (f : Future) : World :=
  match f.handle.state, f.listener with
  | .pending _ key _, some listener =>
    { w with signals := w.signals.modify key fun s => s.drop listener }
  | _, _ => w

/-- Asks once for the value of a handle. -/
def pollOnce (w : World) (h : Handle) (waker : Waker) :
    World × Option (Except AccessError Value) :=
  let (w, f, result) := w.poll { handle := h, waker }
  (w.dropFuture f, result)

/-- Asks once whether a wait has ended. A wait ends with its rejection when its own signal fires. -/
def pollHanging (w : World) (x : Hanging) (waker : Waker) : World × Option AccessError :=
  let (signal, listener) := (w.signals.get x.signal).listen
  let (signal, fired) := signal.poll listener waker
  ({ w with signals := w.signals.set x.signal (signal.drop listener) },
    if fired then some (.hangingPromiseRejection x.route x.resource.quotedCall) else none)

/-- How often a future was woken. -/
def wakes (w : World) (f : Future) : Nat :=
  match f.handle.state with
  | .pending _ key _ => (w.signals.get key).woken.count f.waker
  | .resolved _ => 0

end RequestAccess.World
