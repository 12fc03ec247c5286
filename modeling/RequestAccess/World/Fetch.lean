import RequestAccess.World.Refusal

/-!
# Fetching a resource

What comes of asking for cookies, headers or draft mode depends on the work, then on the phase.
-/

namespace RequestAccess.World

/-! ## Giving handles -/

/-- The handle that a unit remembers under a key. If it remembers none, one is made now and gets the
next number of the unit. -/
def memoize (w : World) (unit : Key .unit) (r : Resource) (key : MemoKey) (state : HandleState)
    (guard? : Option Guard) : World × Handle :=
  let u := w.units.get unit
  match u.handles.get? (r, key) with
  | some h => (w, h)
  | none =>
    let (handles, h) := u.handles.getOrCreate (r, key)
      { id := .made unit u.handles.size, state, guard? }
    ({ w with units := w.units.set unit { u with handles } }, h)

/-- Gives the handle that the unit remembers under a key. -/
def give (w : World) (unit : Key .unit) (r : Resource) (key : MemoKey) (state : HandleState)
    (guard? : Option Guard) : Outcome (Except AccessError Handle) :=
  let (w, h) := w.memoize unit r key state guard?
  { world := w, result := .ok h }

/-- What is given in place of a resource on a static route. -/
def blankValue (b : Binding) : Resource → Value
  | .cookies => .cookies .blank
  | .headers => .headers .blank
  | .draftMode => .draft .blank b

/-- Gives a handle to an empty resource, which nothing remembers. -/
def giveBlank (w : World) (b : Binding) (r : Resource) : Outcome (Except AccessError Handle) :=
  let work := w.works.get b.work
  { world := { w with
      works := w.works.set b.work { work with detached := work.detached + 1 } }
    result := .ok
      { id := .detached b.work work.detached, state := .resolved (blankValue b r) } }

/-- Gives draft mode without counting it as a use of dynamic data. -/
def giveDraft (w : World) (b : Binding) (provider : Option (Key .draft)) :
    Outcome (Except AccessError Handle) :=
  match provider with
  | some key =>
    w.give b.unit .draftMode (.source key.index) (.resolved (.draft (.shared key) b)) none
  | none => w.give b.unit .draftMode .absent (.resolved (.draft .blank b)) none

/-! ## Live requests -/

/-- Development handles of a live request are guarded, except for a prefetch. -/
def guardFor (w : World) (b : Binding) : Option Guard :=
  let c := w.coordinators.get b.coordinator
  let work := w.works.get b.work
  if c.config.devDiagnostics && !work.prefetch then
    some { reporter := c.reporter, route := work.route, unit := b.unit }
  else none

/-- What a live request gives, and the key that it is remembered under. -/
def liveValue (b : Binding) (q : LiveRequest) : Resource → MemoKey × Value
  | .cookies => (.source q.visibleCookies.index, .cookies (.shared q.visibleCookies))
  | .headers => (.source q.headers.index, .headers (.shared q.headers))
  | .draftMode =>
    match q.draft with
    | some key => (.source key.index, .draft (.shared key) b)
    | none => (.absent, .draft .blank b)

def fetchLive (w : World) (b : Binding) (q : LiveRequest) (r : Resource) :
    Outcome (Except AccessError Handle) :=
  let (key, value) := liveValue b q r
  (w.markDynamic b.unit).give b.unit r key (.resolved value) (w.guardFor b)

/-! ## Every phase -/

/-- A handle that waits for the end of a dry run. Draft mode does not wait: it is off. -/
def fetchDeferred (w : World) (b : Binding) (p : Prerender) (r : Resource) :
    Outcome (Except AccessError Handle) :=
  match r with
  | .draftMode => w.giveDraft b none
  | r => w.give b.unit r .unit (.pending r p.signal (w.works.get b.work).route) none

def fetchPrivate (w : World) (b : Binding) (cookies : Key .jar) (headers : Key .headers)
    (r : Resource) : Outcome (Except AccessError Handle) :=
  match r with
  | .cookies =>
    w.give b.unit r (.source cookies.index) (.resolved (.cookies (.shared cookies))) none
  | .headers =>
    w.give b.unit r (.source headers.index) (.resolved (.headers (.shared headers))) none
  | .draftMode => w.giveDraft b (w.draftIn b)

/-- Draft mode can be read where cookies and headers are refused. -/
def draftOr (w : World) (b : Binding) (r : Resource)
    (otherwise : Outcome (Except AccessError Handle)) : Outcome (Except AccessError Handle) :=
  match r with
  | .draftMode => w.giveDraft b none
  | _ => otherwise

def fetchCached (w : World) (b : Binding) (r : Resource) : Outcome (Except AccessError Handle) :=
  match r, w.draftIn b with
  | .draftMode, some key => w.giveDraft b (some key)
  | r, _ => w.refuseInCache b.work .read r.api .useCache

/-- Asks for a resource in the phase of a unit. -/
def fetchIn (w : World) (b : Binding) (r : Resource) : Outcome (Except AccessError Handle) :=
  match (w.units.get b.unit).variant with
  | .cache _ => w.fetchCached b r
  | .unstableCache => w.refuseInCache b.work .read r.api .unstableCache
  | .prerender p | .prerenderRuntime p => w.unlessStatic b.work r.api (w.fetchDeferred b p r)
  | .prerenderClient _ =>
    w.unlessStatic b.work r.api (w.draftOr b r (w.refuse (.inClientComponent r.api)))
  | .prerenderPartial log =>
    w.unlessStatic b.work r.api (w.draftOr b r (w.postpone b.coordinator b.work log r.api))
  | .prerenderLegacy _ =>
    w.unlessStatic b.work r.api (w.draftOr b r (w.giveUp b.work b.unit r.api))
  | .request q => w.unlessStatic b.work r.api (w.fetchLive b q r)
  | .privateCache cookies headers _ =>
    w.unlessStatic b.work r.api (w.fetchPrivate b cookies headers r)

/-- Asks for a resource. -/
def fetch (w : World) (c : Key .coordinator) (scope : Option Scope) (r : Resource) :
    Outcome (Except AccessError Handle) :=
  match scope with
  | none => w.refuse (.missingStore r.api)
  | some s =>
    let b : Binding := { coordinator := c, work := s.work, unit := s.unit }
    if (w.works.get s.work).forceStatic then w.giveBlank b r else w.fetchIn b r

end RequestAccess.World
