import RequestAccess.Scenario
import RequestAccess.World.Await
import RequestAccess.World.Fetch
import RequestAccess.World.Use

/-!
# Explaining a scenario

Every access of a scenario is made in turn, phase by phase. A phase starts from a fresh world; only
the reporter is handed on, so that a call site is told once.
-/

namespace RequestAccess

/-! ## Reports -/

/-- What an access came to. -/
inductive Verdict where
  | value
  | pending
  | postponed
  /-- The renderer is to render dynamically. -/
  | bailout
  | error
deriving DecidableEq

def Verdict.name : Verdict → String
  | value => "value"
  | pending => "pending"
  | postponed => "postponed"
  | bailout => "bailout"
  | error => "error"

/-- What became of one access. -/
structure AccessReport where
  access : String
  verdict : Verdict
  detail : String
  kind : Option String := none
deriving DecidableEq

namespace AccessReport

def ofValue (label detail : String) : AccessReport := { access := label, verdict := .value, detail }

/-- What is told of a handle that is not there after a number of milliseconds. -/
def ofPending (label : String) (window : Nat) : AccessReport :=
  { access := label, verdict := .pending
    detail := "still pending after " ++ toString window ++ "ms" }

def verdictOf (e : AccessError) : Verdict :=
  match e with
  | .postponed _ => .postponed
  | e => if e.isControlFlow then .bailout else .error

def ofError (label : String) (e : AccessError) : AccessReport :=
  { access := label, verdict := verdictOf e, detail := e.message, kind := some e.kind }

def toJson (r : AccessReport) : Json :=
  .object ([("access", .text r.access), ("outcome", .text r.verdict.name),
    ("detail", .text r.detail)] ++ Json.optional "kind" (r.kind.map .text))

end AccessReport

/-- What became of the accesses of a phase, and of the phase itself. -/
structure PhaseReport where
  phase : Phase
  accesses : List AccessReport
  latchedError : Option String
  dynamicUsage : Option String
  revalidate : Option String
  tracked : List String
  usedDynamic : Option Bool
  escalated : Option Bool
  handles : Nat
  diagnostics : List String
deriving DecidableEq

def PhaseReport.toJson (r : PhaseReport) : Json :=
  .object (
    [("phase", .text r.phase.name), ("accesses", .array (r.accesses.map AccessReport.toJson))] ++
    Json.optional "latched_error" (r.latchedError.map .text) ++
    Json.optional "dynamic_usage" (r.dynamicUsage.map .text) ++
    Json.optional "revalidate" (r.revalidate.map .text) ++
    [("tracked", .array (r.tracked.map .text))] ++
    Json.optional "used_dynamic" (r.usedDynamic.map .bool) ++
    Json.optional "escalated" (r.escalated.map .bool) ++
    [("handles", .int r.handles), ("diagnostics", .array (r.diagnostics.map .text))])

/-! ## The world of a phase -/

namespace Explain

def requestJar : Key .jar := ⟨0⟩

def responseJar : Key .jar := ⟨1⟩

def requestHeaders : Key .headers := ⟨0⟩

def draft : Key .draft := ⟨0⟩

def signal : Key .signal := ⟨0⟩

def log : Key .log := ⟨0⟩

def work : Key .work := ⟨0⟩

def unit : Key .unit := ⟨0⟩

def coordinator : Key .coordinator := ⟨0⟩

def reporter : Key .reporter := ⟨0⟩

def scope : Scope := { work, unit }

/-- The key of the request's draft mode, if it is kept. -/
def draft? (s : Scenario) : Option (Key .draft) := s.request.previewId.map fun _ => draft

/-- The key of the draft mode that cache scopes may read. -/
def forwarded? (s : Scenario) : Option (Key .draft) :=
  if s.request.forwardDraftMode then draft? s else none

def prerender : Prerender := { signal, log := some log }

/-- The unit of a phase, as a scenario sets it up. -/
def variant (s : Scenario) : Phase → Variant
  | .request => .request
    { cookies := requestJar, mutableCookies := responseJar, headers := requestHeaders
      draft := draft? s, phase := s.request.phase, dryRun := .ofActive s.request.dryRun }
  | .prerender => .prerender prerender
  | .prerenderClient => .prerenderClient prerender
  | .prerenderRuntime => .prerenderRuntime prerender
  | .prerenderPartial => .prerenderPartial log
  | .prerenderLegacy => .prerenderLegacy (periodOf s.route.revalidate)
  | .cache => .cache (forwarded? s)
  | .privateCache => .privateCache requestJar requestHeaders (forwarded? s)
  | .unstableCache => .unstableCache

/-- The fresh world of a phase. -/
def world (s : Scenario) (r : Request) (told : Reporter) (phase : Phase) : World :=
  { jars := ⟨[r.cookies, .empty]⟩
    headers := ⟨[r.headers]⟩
    drafts := ⟨(r.draftProvider? responseJar).toList⟩
    signals := ⟨[{}]⟩
    logs := ⟨[{}]⟩
    works := ⟨[.ofRoute s.route s.request.prefetch]⟩
    units := ⟨[{ variant := variant s phase }]⟩
    coordinators := ⟨[{ config := s.render, reporter }]⟩
    reporters := ⟨[told]⟩ }

/-! ## Making the accesses -/

/-- How an answer is shown. -/
def detail : Answer → String
  | .cookie c => (c.map (·.value)).getD "(none)"
  | .cookies cs => Text.join "; " (cs.map Cookie.render)
  | .flag b => if b then "true" else "false"
  | .count n => toString n
  | .text s => s
  | .header v => v.getD "(none)"
  | .texts ts => Text.join ", " ts
  | .entries es => Text.join ", " (es.map (·.1))
  | .done => "ok"
  | .unanswered => ""

/-- How an awaited value is shown. -/
def valueDetail (w : World) : Value → String
  | .cookies source => (w.jarOf source).render
  | .headers source => Text.join ", " (w.headersOf source).names
  | .draft source _ => "enabled=" ++ (if (w.draftOf source).isEnabled then "true" else "false")

/-- A phase half explained. -/
structure Progress where
  world : World
  reports : List AccessReport := []
  /-- The handles that had to be waited for, each label once. -/
  waiting : List (String × Hanging) := []

namespace Progress

def report (p : Progress) (w : World) (r : AccessReport) : Progress :=
  { p with world := w, reports := p.reports ++ [r] }

/-- The handle waits on under its label, unless one waits under that already. -/
def wait (p : Progress) (label : String) (h : Handle) : Progress :=
  match h.hanging? with
  | none => p
  | some x =>
    if p.waiting.any (·.1 = label) then p else { p with waiting := p.waiting ++ [(label, x)] }

/-- Awaits a handle for a while. -/
def await (p : Progress) (window : Nat) (label : String) (w : World) (h : Handle) : Progress :=
  let (w, result) := w.pollOnce h 0
  let r := match result with
    | none => .ofPending label window
    | some (.ok v) => .ofValue label (valueDetail w v)
    | some (.error e) => .ofError label e
  (p.report w r).wait label h

/-- Makes a call on a handle without awaiting it. -/
def call (p : Progress) (label : String) (w : World) (h : Handle) (call : Call) : Progress :=
  let o := w.callHandle h call
  p.report o.world
    (match o.result with
      | .ok a => .ofValue label (detail a)
      | .error e => .ofError label e)

def access (p : Progress) (window : Nat) (label : String) (a : Access) : Progress :=
  let o := p.world.fetch coordinator (some scope) a.resource
  match o.result, a.call? with
  | .error e, _ => p.report o.world (.ofError label e)
  | .ok h, none => p.await window label o.world h
  | .ok h, some call => p.call label o.world h call

/-- Waits in turn for the rejections of handles. There is no end of a wait that is not answered, and
nothing comes after it. -/
def reject (p : Progress) : List (String × Hanging) → Progress
  | [] => p
  | (label, x) :: rest =>
    let (w, answer) := p.world.pollHanging x 0
    match answer with
    | some e => (p.report w (.ofError (label ++ " (after abort)") e)).reject rest
    | none => { p with world := w }

/-- Fires the signal of the phase, if some handle had to be waited for. -/
def abort (p : Progress) : Progress :=
  if p.waiting.isEmpty then p
  else { p with world := (p.world.abortSignal signal).1 }.reject p.waiting

end Progress

/-! ## The report of a phase -/

def periodText (revalidate : Option UInt64) : String :=
  match revalidate with
  | some seconds => toString seconds.toNat
  | none => "never"

/-- What the world shows after the accesses. `known` diagnostics were told in earlier phases. -/
def summary (phase : Phase) (known : Nat) (p : Progress) : PhaseReport :=
  let w := p.world
  let theWork := w.works.get work
  let theUnit := w.units.get unit
  let live := match theUnit.variant with | .request r => some r | _ => none
  { phase
    accesses := p.reports
    latchedError := theWork.latch.map UsageError.message
    dynamicUsage := theWork.dynamicUsage
    revalidate := match theUnit.variant with
      | .prerenderLegacy revalidate => some (periodText revalidate)
      | _ => none
    tracked := (w.logs.get log).expressions
    usedDynamic := live.map (·.usedDynamic)
    escalated := live.map (·.dryRun.isEscalated)
    handles := theUnit.remembered
    diagnostics := ((w.reporters.get reporter).collected.drop known).map (·.message) }

end Explain

/-- What is explained and how. -/
structure Explanation where
  scenario : Scenario
  /-- The accesses with their labels. -/
  accesses : List (String × Access)
  /-- How many milliseconds a handle is waited for. -/
  window : Nat := 20
  /-- Whether the signal of each phase is fired at its end. -/
  abort : Bool := false

namespace Explanation

/-- Explains one phase of a request, and gives the reporter to the next. -/
def phase (x : Explanation) (r : Request) (told : Reporter) (phase : Phase) :
    PhaseReport × Reporter :=
  let start : Explain.Progress := { world := Explain.world x.scenario r told phase }
  let made := x.accesses.foldl (fun p a => p.access x.window a.1 a.2) start
  let last := if x.abort then made.abort else made
  (Explain.summary phase told.collected.length last, last.world.reporters.get Explain.reporter)

def phases (x : Explanation) (r : Request) : Reporter → List Phase → List PhaseReport
  | _, [] => []
  | told, p :: rest =>
    let (report, told) := x.phase r told p
    report :: x.phases r told rest

/-- Explains phases in turn. Without a phase the request is not even made. -/
def run (x : Explanation) (phases : List Phase) : Except StoreError (List PhaseReport) :=
  match phases with
  | [] => .ok []
  | phases =>
    match x.scenario.incoming with
    | .error e => .error e
    | .ok r => .ok (x.phases r {} phases)

end Explanation

end RequestAccess
