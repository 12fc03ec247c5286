import RequestAccess.Console
import RequestAccess.Explain
import RequestAccess.Files
import RequestAccess.Scenario.File

/-!
# Commands

A scenario is loaded, and a command is carried out on it. What a command prints, what it writes and
whether it fails is all that comes of it.
-/

namespace RequestAccess

variable [Codec]

/-! ## Loading -/

/-- The names of scenario files, the first that is tried first. -/
def scenarioNames : List String := ["edge.toml", ".edge.toml", "edge.json"]

/-- Where a scenario is looked for: the nearest directory first. -/
def candidates (cwd : Path) : List Path :=
  (Path.upwards cwd).flatMap fun directory => scenarioNames.map fun name => directory ++ [name]

/-- The scenario of a file, if the file is there and can be read. -/
def loadable? (t : FileTree) (p : Path) : Option (Scenario × Path) :=
  match t.read? p with
  | some text =>
    match Scenario.parse (Path.show p) text with
    | .ok s => some (s, p)
    | .error _ => none
  | none => none

/-- The nearest scenario that can be loaded. -/
def discover? (t : FileTree) (cwd : Path) : Option (Scenario × Path) :=
  (candidates cwd).findSome? (loadable? t)

/-- A scenario at hand. -/
structure Loaded where
  scenario : Scenario
  /-- The file it is from, as it is shown. -/
  file : Option String

/-- The scenario of the file that is asked for, or else the nearest one, or else the default. -/
def load (t : FileTree) (cwd : Path) (file : Option String) : Except LoadError Loaded :=
  match file with
  | some path =>
    match t.readAt? cwd path with
    | none => .error (.unreadable path)
    | some text =>
      match Scenario.parse path text with
      | .ok scenario => .ok { scenario, file := some path }
      | .error e => .error e
  | none =>
    match discover? t cwd with
    | some (scenario, p) => .ok { scenario, file := some (Path.show p) }
    | none => .ok { scenario := {}, file := none }

/-! ## Commands and failures -/

/-- What to explain, how long to wait for a handle, and whether to end the render. -/
structure ExplainOptions where
  /-- The names of the phases, or none for those of the scenario. -/
  phases : List String := []
  /-- The accesses, or none for those of the scenario. -/
  accesses : List String := []
  window : Nat := 20
  abort : Bool := false

inductive Command where
  | explain (options : ExplainOptions)
  | show
  | validate
  | init (route : String) (force : Bool)

/-- Why a command failed. -/
inductive Failure where
  | unknownPhase (name : String)
  | access (fault : AccessFault)
  | requestHeader (error : StoreError)
  | faulty (count : Nat)
  | alreadyThere (path : Path)
  | isDirectory

def Failure.message : Failure → String
  | unknownPhase name => "Unknown phase: " ++ name
  | access fault => fault.message
  | requestHeader error => "Invalid request header: " ++ error.message
  | faulty count => "Scenario has " ++ toString count ++ " error(s)"
  | alreadyThere path =>
    "Config file already exists: " ++ Path.show path ++ ". Use --force to overwrite."
  | isDirectory => "Is a directory (os error 21)"

/-- What came of a command. -/
structure Ran where
  printed : List Printed
  files : FileTree
  failure : Option Failure := none

/-- Where a command runs. -/
structure Place where
  files : FileTree
  cwd : Path
  console : Console
  loaded : Loaded

/-! ## Explaining -/

namespace Command

def phasesOf : List String → Except Failure (List Phase)
  | [] => .ok []
  | name :: rest =>
    match Phase.parse? name with
    | none => .error (.unknownPhase name)
    | some p => (phasesOf rest).map (p :: ·)

def accessesOf : List String → Except Failure (List (String × Access))
  | [] => .ok []
  | label :: rest =>
    match Access.parse label with
    | .error fault => .error (.access fault)
    | .ok a => (accessesOf rest).map ((label, a) :: ·)

/-- The width of the column of labels, in bytes. -/
def labelWidth (r : PhaseReport) : Nat :=
  r.accesses.foldl (fun width a => max width a.access.utf8ByteSize) 0

def optionally {α : Type} (f : α → List Printed) : Option α → List Printed
  | some a => f a
  | none => []

def boolText (b : Bool) : String := if b then "true" else "false"

def printReport (c : Console) (r : PhaseReport) : List Printed :=
  c.header r.phase.name ++
  (r.accesses.flatMap fun a =>
    c.row [(labelWidth r, a.access), (9, a.verdict.name), (0, a.detail)]) ++
  optionally (c.pair "latched") r.latchedError ++
  optionally (c.pair "dynamic usage") r.dynamicUsage ++
  optionally (c.pair "revalidate") r.revalidate ++
  (if r.tracked.isEmpty then [] else c.pair "tracked" (Text.join ", " r.tracked)) ++
  optionally (fun used => c.pair "used dynamic" (boolText used)) r.usedDynamic ++
  (if r.escalated = some true then c.warn "sync access ended the development dry run" else []) ++
  c.pair "handles" (toString r.handles) ++
  r.diagnostics.flatMap c.warn

def printReports (c : Console) (route : String) (reports : List PhaseReport) : List Printed :=
  if c.json then Console.value (.array (reports.map PhaseReport.toJson))
  else c.header ("Route " ++ route) ++ reports.flatMap (printReport c)

def countText (accesses phases : Nat) : String :=
  "Explaining " ++ toString accesses ++ " access(es) under " ++ toString phases ++ " phase(s)"

/-- What is to be explained, or why it cannot be. -/
def planOf (s : Scenario) (o : ExplainOptions) : Except Failure (Explanation × List Phase) :=
  match if o.phases.isEmpty then .ok s.phases else phasesOf o.phases with
  | .error e => .error e
  | .ok phases =>
    match accessesOf (if o.accesses.isEmpty then s.accesses else o.accesses) with
    | .error e => .error e
    | .ok accesses =>
      .ok ({ scenario := s, accesses, window := o.window, abort := o.abort }, phases)

/-- Explains what the options say, and prints the reports. -/
def explainIn (p : Place) (o : ExplainOptions) : Ran :=
  match planOf p.loaded.scenario o with
  | .error e => { printed := [], files := p.files, failure := some e }
  | .ok (x, phases) =>
    let opening := p.console.debug (countText x.accesses.length phases.length)
    match x.run phases with
    | .error e => { printed := opening, files := p.files, failure := some (.requestHeader e) }
    | .ok reports =>
      { printed := opening ++ printReports p.console x.scenario.route.path reports
        files := p.files }

/-! ## Showing -/

def showLines (c : Console) (l : Loaded) : List Printed :=
  let s := l.scenario
  c.header "Current Scenario" ++
  c.pair "file" (l.file.getD "(defaults)") ++
  c.info "[render]" ++
  c.pair "mode" s.render.mode.title ++
  c.pair "dev diagnostics" (boolText s.render.devDiagnostics) ++
  c.info "[route]" ++
  c.pair "path" s.route.path ++
  c.pair "dynamic" s.route.dynamic.title ++
  c.pair "revalidate" (Explain.periodText s.route.revalidate) ++
  c.info "[request]" ++
  c.pair "phase" s.request.phase.title ++
  c.pair "prefetch" (boolText s.request.prefetch) ++
  c.pair "dry run" (boolText s.request.dryRun) ++
  optionally (c.pair "preview id") s.request.previewId ++
  (s.request.headers.entries.flatMap fun e => c.pair ("header " ++ e.1) e.2) ++
  (s.request.cookies.entries.flatMap fun e => c.pair ("cookie " ++ e.1) e.2) ++
  c.info "Accesses:" ++
  s.accesses.flatMap c.item ++
  c.info "Phases:" ++
  s.phases.flatMap fun phase => c.item phase.name

def showIn (p : Place) : Ran :=
  { printed :=
      if p.console.json then Console.value p.loaded.scenario.toJson
      else showLines p.console p.loaded
    files := p.files }

/-! ## Validating -/

/-- The faults and the warnings are printed. Faults fail the command. -/
def validateIn (p : Place) : Ran :=
  let c := p.console
  let faults := p.loaded.scenario.faults
  let warnings := p.loaded.scenario.warnings
  let opening := c.header "Validating scenario"
  if faults.isEmpty && warnings.isEmpty then
    { printed := opening ++ c.success "Scenario is valid", files := p.files }
  else
    let told := opening ++ (faults.flatMap fun f => c.error ("Error: " ++ f.message)) ++
      warnings.flatMap fun w => c.warn ("Warning: " ++ w.message)
    if faults.isEmpty then
      { printed := told ++ c.success "Scenario is valid (with warnings)", files := p.files }
    else { printed := told, files := p.files, failure := some (.faulty faults.length) }

/-! ## Starting a new file -/

/-- Writes the file of a new scenario. One that is there is written over only if that is asked for.
-/
def initIn (p : Place) (route : String) (force : Bool) : Ran :=
  let path := p.cwd ++ ["edge.toml"]
  if p.files.contains path && !force then
    { printed := [], files := p.files, failure := some (.alreadyThere path) }
  else if p.files.isDirectory path then
    { printed := [], files := p.files, failure := some .isDirectory }
  else
    { printed := p.console.success ("Created: " ++ Path.show path)
      files := p.files.write path (Scenario.template route) }

/-- Carries out a command. -/
def run (p : Place) : Command → Ran
  | .explain o => explainIn p o
  | .show => showIn p
  | .validate => validateIn p
  | .init route force => initIn p route force

end Command

end RequestAccess
