import RequestAccess.World.Await
import RequestAccess.World.Fetch
import RequestAccess.World.Use

/-!
# Sessions

A session is a world in which handles, values and futures are kept under names. A step does one
thing to it, and a script is a list of steps.
-/

namespace RequestAccess

/-- A world, and what callers have kept under names. -/
structure Session where
  world : World
  handles : NameMap Handle := .empty
  values : NameMap Value := .empty
  futures : NameMap Future := .empty
  /-- The waker of the next future. -/
  nextWaker : Waker := 0

/-- What a caller or a host may do. -/
inductive Step where
  | fetch (r : Resource) (coordinator : Key .coordinator) (work : Option (Key .work))
      (unit : Option (Key .unit)) (saveAs : Option String)
  | callHandle (handle : String) (call : Call)
  | callValue (value : String) (call : Call)
  /-- Asks once for the value of a handle. -/
  | now (handle : String) (saveAs : Option String)
  | start (handle future : String)
  | poll (future : String) (saveAs : Option String)
  | abort (signal : Key .signal)
  | clone (handle saveAs : String)
  | dropWork (work : Key .work)
  | dropUnit (unit : Key .unit)
  | dropHandle (handle : String)
  | dropValue (value : String)
  | dropFuture (future : String)
  | callJar (jar : Key .jar) (call : CookieCall)
  | callHeaders (headers : Key .headers) (call : HeaderCall)
  | callDraft (draft : Key .draft) (call : DraftCall)

/-- What a step answers. -/
inductive Reply where
  /-- A handle, with the names under which it was kept before. -/
  | handle (handle : Handle) (same : List String)
  | answer (answer : Answer)
  | failed (error : AccessError)
  | refused (error : StoreError)
  | started
  | pending
  | value (r : Resource)
  | fired (fired : Bool)
  | existed (existed : Bool)
  /-- There is nothing of the name. -/
  | unknown

namespace Session

/-! ## Names -/

/-- The names under which a handle is kept. -/
def namesOf (s : Session) (h : Handle) : List String :=
  (s.handles.entries.filter fun e => e.2.id = h.id).map (·.1)

def keepHandle (s : Session) (name : Option String) (h : Handle) : Session :=
  match name with
  | some name => { s with handles := s.handles.insert name h }
  | none => s

def keepValue (s : Session) (name : Option String) (v : Value) : Session :=
  match name with
  | some name => { s with values := s.values.insert name v }
  | none => s

/-- Whether a work is still there and answers with this error. -/
def isLatchedIn (s : Session) (e : UsageError) (work : Key .work) : Bool :=
  let work := s.world.works.get work
  work.alive && work.latch == some e

/-! ## Steps -/

/-- What is left of a session after a step, and what the step shows. -/
structure After where
  session : Session
  events : List Event := []
  reply : Reply

def unknown (s : Session) : After := { session := s, reply := .unknown }

def answered (s : Session) (o : Outcome (Except AccessError Answer)) : After :=
  { session := { s with world := o.world }
    events := o.events
    reply := match o.result with
      | .ok a => .answer a
      | .error e => .failed e }

def stored (s : Session) (p : World × Except StoreError Answer) : After :=
  { session := { s with world := p.1 }
    reply := match p.2 with
      | .ok a => .answer a
      | .error e => .refused e }

def fetch (s : Session) (r : Resource) (c : Key .coordinator) (work : Option (Key .work))
    (unit : Option (Key .unit)) (saveAs : Option String) : After :=
  let o := s.world.fetch c (s.world.scope? work unit) r
  let after := { s with world := o.world }
  match o.result with
  | .ok h =>
    { session := after.keepHandle saveAs h, events := o.events, reply := .handle h (s.namesOf h) }
  | .error e => { session := after, events := o.events, reply := .failed e }

/-- What a future that was asked answers. -/
def asked (s : Session) (saveAs : Option String) (result : Option (Except AccessError Value)) :
    After :=
  match result with
  | none => { session := s, reply := .pending }
  | some (.ok v) => { session := s.keepValue saveAs v, reply := .value v.resource }
  | some (.error e) => { session := s, reply := .failed e }

def now (s : Session) (h : Handle) (saveAs : Option String) : After :=
  let (world, result) := s.world.pollOnce h s.nextWaker
  { s with world, nextWaker := s.nextWaker + 1 }.asked saveAs result

/-- Gives up the future of a name, if there is one. -/
def forget (s : Session) (future : String) : Session :=
  match s.futures.get? future with
  | some f => { s with world := s.world.dropFuture f, futures := s.futures.erase future }
  | none => s

def start (s : Session) (h : Handle) (future : String) : After :=
  let s := s.forget future
  { session := { s with
      futures := s.futures.insert future { handle := h, waker := s.nextWaker }
      nextWaker := s.nextWaker + 1 }
    reply := .started }

/-- Asks a future. Once it has answered it is gone. -/
def poll (s : Session) (name : String) (f : Future) (saveAs : Option String) : After :=
  let (world, f, result) := s.world.poll f
  let s := { s with world, futures := s.futures.insert name f }
  (if result.isSome then s.forget name else s).asked saveAs result

def withHandle (s : Session) (name : String) (f : Handle → After) : After :=
  match s.handles.get? name with
  | some h => f h
  | none => s.unknown

/-- The session after a step, with the events that were seen and the reply. -/
def step (s : Session) : Step → After
  | .fetch r c work unit saveAs => s.fetch r c work unit saveAs
  | .callHandle name call => s.withHandle name fun h => s.answered (s.world.callHandle h call)
  | .callValue name call =>
    match s.values.get? name with
    | some v => s.answered (s.world.callValue v call)
    | none => s.unknown
  | .now name saveAs => s.withHandle name fun h => s.now h saveAs
  | .start name future => s.withHandle name fun h => s.start h future
  | .poll name saveAs =>
    match s.futures.get? name with
    | some f => s.poll name f saveAs
    | none => s.unknown
  | .abort key =>
    let (world, fired) := s.world.abortSignal key
    { session := { s with world }, reply := .fired fired }
  | .clone name saveAs =>
    s.withHandle name fun h =>
      { session := s.keepHandle (some saveAs) h, reply := .handle h (s.namesOf h) }
  | .dropWork key =>
    { session := { s with world := s.world.dropWork key }
      reply := .existed (s.world.works.get key).alive }
  | .dropUnit key =>
    { session := { s with world := s.world.dropUnit key }
      reply := .existed (s.world.units.get key).alive }
  | .dropHandle name =>
    { session := { s with handles := s.handles.erase name }
      reply := .existed (s.handles.contains name) }
  | .dropValue name =>
    { session := { s with values := s.values.erase name }
      reply := .existed (s.values.contains name) }
  | .dropFuture name =>
    { session := s.forget name, reply := .existed (s.futures.contains name) }
  | .callJar key call => s.stored (s.world.callJar (.shared key) call)
  | .callHeaders key call => s.stored (s.world.callHeaders (.shared key) call)
  | .callDraft key call =>
    let (world, a) := s.world.callDraft (.shared key) call
    { session := { s with world }, reply := .answer a }

/-- Does the steps of a script in turn. -/
def run (s : Session) : List Step → Session × List (List Event × Reply)
  | [] => (s, [])
  | step :: rest =>
    let after := s.step step
    let (last, replies) := after.session.run rest
    (last, (after.events, after.reply) :: replies)

end Session

end RequestAccess
