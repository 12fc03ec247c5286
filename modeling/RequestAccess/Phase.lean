/-! # Phases of rendering -/

namespace RequestAccess

inductive Phase where
  | request
  | prerender
  | prerenderClient
  | prerenderRuntime
  /-- Branches that need dynamic data are left for later. -/
  | prerenderPartial
  /-- The route as a whole is given up if it needs dynamic data. -/
  | prerenderLegacy
  | cache
  | privateCache
  | unstableCache
deriving DecidableEq

namespace Phase

def all : List Phase :=
  [request, prerender, prerenderClient, prerenderRuntime, prerenderPartial, prerenderLegacy, cache,
    privateCache, unstableCache]

def name : Phase → String
  | request => "request"
  | prerender => "prerender"
  | prerenderClient => "prerender-client"
  | prerenderRuntime => "prerender-runtime"
  | prerenderPartial => "prerender-ppr"
  | prerenderLegacy => "prerender-legacy"
  | cache => "cache"
  | privateCache => "private-cache"
  | unstableCache => "unstable-cache"

def parse? (s : String) : Option Phase := all.find? fun p => p.name == s

end Phase

/-- How far a live request has come. -/
inductive RequestPhase where
  | render
  /-- A server action or route handler runs, and cookies can be changed. -/
  | action
  /-- The response was sent. -/
  | after
deriving DecidableEq

namespace RequestPhase

def all : List RequestPhase := [render, action, after]

def name : RequestPhase → String
  | render => "render"
  | action => "action"
  | after => "after"

/-- As shown to a reader. -/
def title : RequestPhase → String
  | render => "Render"
  | action => "Action"
  | after => "After"

end RequestPhase

end RequestAccess
