import RequestAccess.World.Refusal

/-!
# Using a resource

A call is made on an awaited value, or at once on a handle. The switching of draft mode is decided
in the scope that the value was fetched in.
-/

namespace RequestAccess.World

/-! ## Switching draft mode -/

/-- Decides in a phase whether draft mode may be switched. -/
def decideIn (w : World) (b : Binding) (expression : String) : Outcome (Except AccessError Unit) :=
  match (w.units.get b.unit).variant with
  | .cache _ => w.refuseInCache b.work .mutation expression .useCache
  | .privateCache .. => w.refuseInCache b.work .mutation expression .privateCache
  | .unstableCache => w.refuseInCache b.work .mutation expression .unstableCache
  | .prerender p | .prerenderRuntime p =>
    w.unlessStatic b.work expression (w.interrupt b.work p ("`" ++ expression ++ "`"))
  | .prerenderClient _ =>
    w.unlessStatic b.work expression (w.refuse (.inClientComponent Resource.draftMode.api))
  | .prerenderPartial log =>
    w.unlessStatic b.work expression (w.postpone b.coordinator b.work log expression)
  | .prerenderLegacy _ => w.unlessStatic b.work expression (w.giveUp b.work b.unit expression)
  | .request _ =>
    w.unlessStatic b.work expression { world := w.markDynamic b.unit, result := .ok () }

/-- Decides whether draft mode may be switched. -/
def decideSwitch (w : World) (b : Binding) (expression : String) :
    Outcome (Except AccessError Unit) :=
  let work := w.works.get b.work
  let unit := w.units.get b.unit
  if !(work.alive && unit.alive) then w.refuse (.missingStore expression)
  else if unit.variant.isAfter then w.refuse (.afterNotSupported work.route expression)
  else if work.forceStatic then { world := w, result := .ok () }
  else w.decideIn b expression

/-- Decides whether a call may be made. Only the switching of draft mode can be refused. -/
def decide (w : World) (v : Value) (call : Call) : Outcome (Except AccessError Unit) :=
  match v, call with
  | .draft _ b, .draft .enable => w.decideSwitch b DraftCall.enabling
  | .draft _ b, .draft .disable => w.decideSwitch b DraftCall.disabling
  | _, _ => { world := w, result := .ok () }

/-! ## Carrying out a call -/

def callJar (w : World) (source : Source .jar) (call : CookieCall) :
    World × Except StoreError Answer :=
  match (w.jarOf source).run call, source with
  | .answer a, _ => (w, .ok a)
  | .change (.error e), _ => (w, .error e)
  | .change (.ok jar), .shared key => ({ w with jars := w.jars.set key jar }, .ok .done)
  | .change (.ok _), .blank => (w, .ok .done)

def callHeaders (w : World) (source : Source .headers) (call : HeaderCall) :
    World × Except StoreError Answer :=
  match (w.headersOf source).run call, source with
  | .answer a, _ => (w, .ok a)
  | .change (.error e), _ => (w, .error e)
  | .change (.ok headers), .shared key =>
    ({ w with headers := w.headers.set key headers }, .ok .done)
  | .change (.ok _), .blank => (w, .ok .done)

def callDraft (w : World) (source : Source .draft) (call : DraftCall) : World × Answer :=
  match call, source with
  | .isEnabled, _ => (w, .flag (w.draftOf source).isEnabled)
  | .enable, .shared key => (w.switchDraft key true, .done)
  | .disable, .shared key => (w.switchDraft key false, .done)
  | .enable, .blank | .disable, .blank => (w, .done)

/-- Carries out a call on what a value reads from. -/
def perform (w : World) (v : Value) (call : Call) : World × Except StoreError Answer :=
  match v, call with
  | .cookies source, .cookies call => w.callJar source call
  | .headers source, .headers call => w.callHeaders source call
  | .draft source _, .draft call => let (w, a) := w.callDraft source call; (w, .ok a)
  | _, _ => (w, .ok .unanswered)

def performed (w : World) (v : Value) (call : Call) : Outcome (Except AccessError Answer) :=
  let (w, result) := w.perform v call
  { world := w, result := result.mapError .store }

/-! ## The guard -/

/-- Ends the dry run of a live request, and tells whether there was one to end. -/
def escalate (w : World) (unit : Key .unit) : World × Bool :=
  let u := w.units.get unit
  match u.variant with
  | .request r =>
    let (dryRun, ended) := r.dryRun.escalate
    if ended then
      ({ w with units := w.units.set unit { u with variant := .request { r with dryRun } } }, true)
    else (w, false)
  | _ => (w, false)

/-- Tells a use that a guard has seen. -/
def tell (w : World) (g : Guard) (expression api : String) : World × List Event :=
  let (w, escalated) := w.escalate g.unit
  let (reporter, told) :=
    (w.reporters.get g.reporter).report (.ofUse (some g.route) expression api escalated)
  ({ w with reporters := w.reporters.set g.reporter reporter },
    (if escalated then [.dryRunEscalated g.route expression] else []) ++ told)

/-- Sees a call on a handle. One on a guarded handle that was not awaited is told. -/
def observe (w : World) (h : Handle) (expression : String) : World × List Event :=
  match h.guard? with
  | some g => if w.awaited.contains h.id then (w, []) else w.tell g expression h.resource.api
  | none => (w, [])

/-! ## Calls -/

/-- A call on an awaited value. -/
def callValue (w : World) (v : Value) (call : Call) : Outcome (Except AccessError Answer) :=
  (w.decide v call).next fun w _ => w.performed v call

/-- A call on a handle, before or after it was awaited. -/
def callHandle (w : World) (h : Handle) (call : Call) : Outcome (Except AccessError Answer) :=
  match h.state with
  | .pending r _ route => w.refuse (.syncAccessUnavailable route call.expression r.api)
  | .resolved v =>
    (w.decide v call).next fun w _ =>
      let (w, events) := w.observe h call.observed
      let o := w.performed v call
      { o with events := events ++ o.events }

end RequestAccess.World
