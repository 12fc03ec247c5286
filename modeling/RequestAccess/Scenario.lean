import RequestAccess.Access
import RequestAccess.Phase
import RequestAccess.RenderConfig
import RequestAccess.Request
import RequestAccess.Route

/-!
# Scenarios

A scenario is one route, one request, and the accesses that are made in each of some phases.
-/

namespace RequestAccess

/-- The request of a scenario. -/
structure RequestPlan where
  headers : NameMap String := .empty
  cookies : NameMap String := .empty
  /-- Given if draft mode is kept in the bypass cookie. -/
  previewId : Option String := none
  prefetch : Bool := false
  phase : RequestPhase := .render
  /-- Whether the request starts as a development dry run. -/
  dryRun : Bool := false
  /-- Whether cache scopes may read the draft mode of the request. -/
  forwardDraftMode : Bool := false

/-- A page, a request for it, and what is accessed in which phases. -/
structure Scenario where
  render : RenderConfig := {}
  route : RouteConfig := { path := "/" }
  request : RequestPlan := {}
  accesses : List String := ["cookies", "headers", "draft"]
  phases : List Phase := Phase.all

/-! ## As JSON -/

def RequestPlan.toJson (r : RequestPlan) : Json :=
  let texts (m : NameMap String) : Json := .object (m.entries.map fun e => (e.1, .text e.2))
  .object (
    [("headers", texts r.headers), ("cookies", texts r.cookies)] ++
    Json.optional "preview_id" (r.previewId.map .text) ++
    [("prefetch", .bool r.prefetch), ("phase", .text r.phase.name), ("dry_run", .bool r.dryRun),
      ("forward_draft_mode", .bool r.forwardDraftMode)])

def Scenario.toJson (s : Scenario) : Json :=
  .object [("render", s.render.toJson), ("route", s.route.toJson), ("request", s.request.toJson),
    ("accesses", .array (s.accesses.map .text)),
    ("phases", .array (s.phases.map fun p => .text p.name))]

/-! ## Checking -/

/-- What makes a scenario invalid. -/
inductive ScenarioFault where
  | routePath
  | access (index : Nat) (fault : AccessFault)

def ScenarioFault.message : ScenarioFault → String
  | routePath => "route.path must start with '/'"
  | access index fault => "accesses[" ++ toString index ++ "]: " ++ fault.message

/-- What is odd in a scenario, but not wrong. -/
inductive ScenarioWarning where
  | noAccesses
  | noPhases
  | idleDryRun

def ScenarioWarning.message : ScenarioWarning → String
  | noAccesses => "accesses is empty; explain has nothing to run"
  | noPhases => "phases is empty; explain has nothing to run"
  | idleDryRun => "request.dry_run only matters with development diagnostics"

namespace Scenario

def accessFaults : Nat → List String → List ScenarioFault
  | _, [] => []
  | n, s :: rest =>
    match Access.parse s with
    | .ok _ => accessFaults (n + 1) rest
    | .error fault => .access n fault :: accessFaults (n + 1) rest

def faults (s : Scenario) : List ScenarioFault :=
  (if s.route.path.toList.head? = some '/' then [] else [.routePath]) ++
    accessFaults 0 s.accesses

def warnings (s : Scenario) : List ScenarioWarning :=
  (if s.accesses.isEmpty then [.noAccesses] else []) ++
  (if s.phases.isEmpty then [.noPhases] else []) ++
  (if s.request.dryRun && !s.render.devDiagnostics then [.idleDryRun] else [])

/-! ## The request -/

def method (s : Scenario) : Method :=
  match s.request.phase with
  | .action => .post
  | .render | .after => .get

/-- The cookies of the request as they stand in its header. -/
def cookieHeader (s : Scenario) : String :=
  Text.join "; " (s.request.cookies.entries.map fun e => e.1 ++ "=" ++ e.2)

/-- The request, if all its headers are valid. -/
def incoming (s : Scenario) : Except StoreError Request :=
  match Headers.ofPairs s.request.headers.entries with
  | .error e => .error e
  | .ok headers => .ok
    { method := s.method, path := s.route.path, headers
      cookies := .ofHeader s.cookieHeader, previewId := s.request.previewId }

end Scenario

end RequestAccess
