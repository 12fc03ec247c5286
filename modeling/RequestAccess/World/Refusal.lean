import RequestAccess.World

/-!
# Refusing an access

Each kind of refusal changes what it has to and nothing else.
-/

namespace RequestAccess.World

variable {α : Type}

/-- Refuses and changes nothing. -/
def refuse (w : World) (e : AccessError) : Outcome (Except AccessError α) :=
  { world := w, result := .error e }

/-- The error that a work answers uses in cache scopes with: its first, or this one. -/
def latchUsage (w : World) (key : Key .work) (use : CacheUse) (expression : String)
    (scope : CacheScope) : World × UsageError :=
  let work := w.works.get key
  match work.latch with
  | some e => (w, e)
  | none =>
    let e : UsageError :=
      { work := key, serial := work.errorsBuilt, use, route := work.route, expression, scope }
    ({ w with
      works := w.works.set key { work with latch := some e, errorsBuilt := work.errorsBuilt + 1 } },
      e)

def refuseInCache (w : World) (key : Key .work) (use : CacheUse) (expression : String)
    (scope : CacheScope) : Outcome (Except AccessError α) :=
  let (after, e) := w.latchUsage key use expression scope
  { world := after
    events := [.cacheUse use (w.works.get key).route expression scope]
    result := .error (.invalidDynamicUsage e) }

/-- Refuses if the work is to fail on dynamic data. -/
def unlessStatic (w : World) (key : Key .work) (expression : String)
    (otherwise : Outcome (Except AccessError α)) : Outcome (Except AccessError α) :=
  let work := w.works.get key
  if work.dynamicShouldError then
    { world := w
      events := [.staticBailout work.route expression]
      result := .error (.staticBailout work.route expression) }
  else otherwise

/-- Leaves a branch of a partial prerender for later. -/
def postpone (w : World) (c : Key .coordinator) (key : Key .work) (log : Key .log)
    (expression : String) : Outcome (Except AccessError α) :=
  let route := (w.works.get key).route
  match (w.coordinators.get c).postponer with
  | .tracking =>
    let (tracking, postponement) := (w.logs.get log).suspend route expression
    { world := { w with logs := w.logs.set log tracking }
      events := [.postponed route expression]
      result := .error (.postponed postponement) }
  | .byHost host =>
    let (tracking, postponement) := host.suspend route expression (w.logs.get log)
    { world := { w with logs := w.logs.set log tracking }
      result := .error (.postponed postponement) }

/-- Gives up static generation: the page is never kept, and the work notes why. -/
def giveUp (w : World) (key : Key .work) (unit : Key .unit) (expression : String) :
    Outcome (Except AccessError α) :=
  let work := w.works.get key
  { world := { w with
      works := w.works.set key { work with dynamicUsage := some expression }
      units := w.units.modify unit fun u => { u with variant := .prerenderLegacy (some 0) } }
    events := [.legacyBailout work.route expression]
    result := .error (.dynamicServer work.route expression) }

/-- Ends a dry run after a change made at once. -/
def interrupt (w : World) (key : Key .work) (p : Prerender) (expression : String) :
    Outcome (Except AccessError α) :=
  let route := (w.works.get key).route
  let logged := match p.log with
    | some log => { w with logs := w.logs.modify log fun t => t.record { expression } }
    | none => w
  let (after, fired) := logged.abortSignal p.signal
  { world := after
    events := if fired then [.dryRunAborted route expression] else []
    result := .error (.prerenderInterrupted route expression) }

end RequestAccess.World
