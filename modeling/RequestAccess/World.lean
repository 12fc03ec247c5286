import RequestAccess.AccessError
import RequestAccess.Coordinator
import RequestAccess.Reporter
import RequestAccess.Signal
import RequestAccess.Text.Quoted
import RequestAccess.Work
import RequestAccess.WorkUnit

/-!
# The world

Everything that a render can see or change, each thing under its key. What is done to the world
gives the world after it, what an observer sees of it, and an answer.
-/

namespace RequestAccess

/-- All that renders share. -/
structure World where
  jars : Table .jar CookieJar := .empty
  headers : Table .headers Headers := .empty
  drafts : Table .draft DraftProvider := .empty
  signals : Table .signal Signal := .empty
  logs : Table .log Tracking := .empty
  works : Table .work Work := .empty
  units : Table .unit WorkUnit := .empty
  coordinators : Table .coordinator Coordinator := .empty
  reporters : Table .reporter Reporter := .empty
  /-- The handles that were awaited. -/
  awaited : List HandleId := []

/-- What something comes to. -/
structure Outcome (α : Type) where
  world : World
  events : List Event := []
  result : α

/-- Does the next thing in the world that is left, unless this one was refused. -/
def Outcome.next {α β : Type} (o : Outcome (Except AccessError α))
    (f : World → α → Outcome (Except AccessError β)) : Outcome (Except AccessError β) :=
  match o.result with
  | .error e => { world := o.world, events := o.events, result := .error e }
  | .ok a =>
    let p := f o.world a
    { p with events := o.events ++ p.events }

/-- A render at work. -/
structure Scope where
  work : Key .work
  unit : Key .unit
deriving DecidableEq

namespace World

/-- The scope of a work and a unit, if their callers still have both. -/
def scope? (w : World) (work : Option (Key .work)) (unit : Option (Key .unit)) : Option Scope :=
  match work, unit with
  | some work, some unit =>
    if (w.works.get work).alive && (w.units.get unit).alive then some { work, unit } else none
  | _, _ => none

/-! ## Reading values -/

def jarOf (w : World) : Source .jar → CookieJar
  | .blank => .sealed
  | .shared key => w.jars.get key

def headersOf (w : World) : Source .headers → Headers
  | .blank => .sealed
  | .shared key => w.headers.get key

def draftOf (w : World) : Source .draft → DraftProvider
  | .blank => .inert
  | .shared key => w.drafts.get key

/-- The draft mode that a cache scope may read. -/
def draftIn (w : World) (b : Binding) : Option (Key .draft) :=
  (w.coordinators.get b.coordinator).draftFor (w.works.get b.work) (w.units.get b.unit).variant

/-! ## Small changes -/

/-- Switches draft mode. A preview also files its cookie in the jar of the response. -/
def switchDraft (w : World) (key : Key .draft) (on : Bool) : World :=
  match w.drafts.get key with
  | .inert => w
  | .switch _ => { w with drafts := w.drafts.set key (.switch on) }
  | .preview draft response =>
    let (draft, jar) := draft.switch on (w.jars.get response)
    { w with
      drafts := w.drafts.set key (.preview draft response)
      jars := w.jars.set response jar }

/-- Notes that a live request used dynamic data. -/
def markDynamic (w : World) (unit : Key .unit) : World :=
  { w with
    units := w.units.modify unit fun u =>
      { u with variant := u.variant.mapRequest fun r => { r with usedDynamic := true } } }

def dropWork (w : World) (key : Key .work) : World :=
  { w with works := w.works.modify key fun work => { work with alive := false } }

def dropUnit (w : World) (key : Key .unit) : World :=
  { w with units := w.units.modify key fun unit => { unit with alive := false } }

def abortSignal (w : World) (key : Key .signal) : World × Bool :=
  let (signal, fired) := (w.signals.get key).abort
  ({ w with signals := w.signals.set key signal }, fired)

/-! ## Descriptions -/

def describeValue (w : World) : Value → String
  | .cookies source => "RequestCookies \x7b size: " ++ toString (w.jarOf source).size ++ " \x7d"
  | .headers source =>
    "RequestHeaders \x7b keys: [" ++
      Text.join ", " ((w.headersOf source).names.map Text.quoted) ++ "] \x7d"
  | .draft source _ =>
    "DraftMode \x7b enabled: " ++ (if (w.draftOf source).isEnabled then "true" else "false") ++
      ", .. \x7d"

def describeCoordinator (w : World) (key : Key .coordinator) : String :=
  let c := w.coordinators.get key
  "AccessCoordinator \x7b config: " ++ c.config.describe ++ ", reported: " ++
    toString (w.reporters.get c.reporter).reported ++ ", .. \x7d"

end World

end RequestAccess
