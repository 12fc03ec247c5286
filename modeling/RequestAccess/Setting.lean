import RequestAccess.Request
import RequestAccess.World

/-!
# Settings

A setting is a world in the making, to which things are added under names. Things of different
kinds may share a name.
-/

namespace RequestAccess

/-- The keys of the things of a world, by name. -/
structure Names where
  jars : NameMap (Key .jar) := .empty
  headers : NameMap (Key .headers) := .empty
  drafts : NameMap (Key .draft) := .empty
  signals : NameMap (Key .signal) := .empty
  logs : NameMap (Key .log) := .empty
  works : NameMap (Key .work) := .empty
  units : NameMap (Key .unit) := .empty
  coordinators : NameMap (Key .coordinator) := .empty
  reporters : NameMap (Key .reporter) := .empty
  /-- What a live request of each request works with. -/
  requests : NameMap LiveRequest := .empty

structure Setting where
  world : World := {}
  names : Names := {}

namespace Setting

/-! ## Things without a name -/

def freshSignal (s : Setting) : Key .signal × Setting :=
  let (key, signals) := s.world.signals.add {}
  (key, { s with world := { s.world with signals } })

def freshLog (s : Setting) : Key .log × Setting :=
  let (key, logs) := s.world.logs.add {}
  (key, { s with world := { s.world with logs } })

/-! ## Things with a name -/

def addJar (s : Setting) (name : String) (jar : CookieJar) : Setting :=
  let (key, jars) := s.world.jars.add jar
  { world := { s.world with jars }
    names := { s.names with jars := s.names.jars.insert name key } }

def addHeaders (s : Setting) (name : String) (h : Headers) : Setting :=
  let (key, headers) := s.world.headers.add h
  { world := { s.world with headers }
    names := { s.names with headers := s.names.headers.insert name key } }

def addDraft (s : Setting) (name : String) (d : DraftProvider) : Setting :=
  let (key, drafts) := s.world.drafts.add d
  { world := { s.world with drafts }
    names := { s.names with drafts := s.names.drafts.insert name key } }

def addSignal (s : Setting) (name : String) : Setting :=
  let (key, s) := s.freshSignal
  { s with names := { s.names with signals := s.names.signals.insert name key } }

def addLog (s : Setting) (name : String) : Setting :=
  let (key, s) := s.freshLog
  { s with names := { s.names with logs := s.names.logs.insert name key } }

def addWork (s : Setting) (name : String) (work : Work) : Setting :=
  let (key, works) := s.world.works.add work
  { world := { s.world with works }
    names := { s.names with works := s.names.works.insert name key } }

def addUnit (s : Setting) (name : String) (variant : Variant) : Setting :=
  let (key, units) := s.world.units.add { variant }
  { world := { s.world with units }
    names := { s.names with units := s.names.units.insert name key } }

def addReporter (s : Setting) (name : String) (r : Reporter) : Setting :=
  let (key, reporters) := s.world.reporters.add r
  { world := { s.world with reporters }
    names := { s.names with reporters := s.names.reporters.insert name key } }

def addCoordinator (s : Setting) (name : String) (c : Coordinator) : Setting :=
  let (key, coordinators) := s.world.coordinators.add c
  { world := { s.world with coordinators }
    names := { s.names with coordinators := s.names.coordinators.insert name key } }

/-! ## Requests -/

/-- Adds what belongs to a request: its cookies and headers, the cookies of its response, and its
draft mode. A draft mode that is added later under the same name is not the request's. -/
def addRequest (s : Setting) (name : String) (r : Request) : Setting :=
  let (cookies, jars) := s.world.jars.add r.cookies
  let (response, jars) := jars.add .empty
  let (headers, all) := s.world.headers.add r.headers
  let names := { s.names with
    jars := (s.names.jars.insert (name ++ ".cookies") cookies).insert (name ++ ".response") response
    headers := s.names.headers.insert (name ++ ".headers") headers }
  let world := { s.world with jars, headers := all }
  let live : LiveRequest := { cookies, mutableCookies := response, headers }
  match r.draftProvider? response with
  | none => { world, names := { names with requests := names.requests.insert name live } }
  | some provider =>
    let (draft, drafts) := world.drafts.add provider
    { world := { world with drafts }
      names := { names with
        drafts := names.drafts.insert (name ++ ".draft") draft
        requests := names.requests.insert name { live with draft := some draft } } }

end Setting

end RequestAccess
