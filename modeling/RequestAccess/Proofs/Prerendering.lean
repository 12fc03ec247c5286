import Mathlib.Data.List.Basic
import RequestAccess.Proofs.Deferral
import RequestAccess.Proofs.Validation

/-!
# Explaining a prerender

What a dry-run prerender reports of a list of accesses, for a route that is neither static nor meant
to fail. Cookies and headers wait for the signal of the phase until a draft mode access fires it,
and reject from then on; draft mode itself is off.
-/

namespace RequestAccess

def Call.switch? : Call → Option DraftCall
  | .draft call => if call.isSwitch then some call else none
  | _ => none

/-- The switching of draft mode that an access asks for. -/
def Access.switch? (a : Access) : Option DraftCall := a.call?.bind Call.switch?

theorem Access.resource_of_call {a : Access} {call : Call} (h : a.call? = some call) :
    a.resource = call.resource := by
  cases a <;> cases h <;> rfl

/-- The expression under which a prerender notes the switching of draft mode. -/
def DraftCall.noted (c : DraftCall) : String := "`" ++ c.expression ++ "`"

/-! ## One access -/

namespace World

variable {w : World}

theorem pollOnce_resolved {h : Handle} {v : Value} (hs : h.state = .resolved v) (waker : Waker) :
    (w.pollOnce h waker).2 = some (.ok v) := by
  simp [pollOnce, poll, hs]

theorem pollOnce_pending {h : Handle} {r : Resource} {key : Key .signal} {route : String}
    (hs : h.state = .pending r key route) (waker : Waker) :
    (w.pollOnce h waker).2 =
      if (w.signals.get key).aborted then
        some (.error (.hangingPromiseRejection route r.quotedCall))
      else none :=
  Session.World.poll_pending (f := { handle := h, waker }) hs

theorem pollOnce_listens {h : Handle} (hg : h.guard? = none) (waker : Waker) :
    w.Listens (w.pollOnce h waker).1 := by
  have hsame : w.markAwaited h = w := by simp [markAwaited, Handle.isGuarded, hg]
  have hp := w.poll_listens { handle := h, waker }
  rw [hsame] at hp
  exact hp.trans (dropFuture_listens _ _)

theorem decideIn_deferring {b : Binding} {p : Prerender} {expression : String}
    (hp : (w.units.get b.unit).variant.deferring? = some p) :
    w.decideIn b expression =
      w.unlessStatic b.work expression (w.interrupt b.work p ("`" ++ expression ++ "`")) := by
  unfold decideIn
  cases hv : (w.units.get b.unit).variant with
  | prerender q | prerenderRuntime q =>
    simp only [hv, Variant.deferring?, Option.some.injEq] at hp
    rw [hp]
  | _ => simp [hv, Variant.deferring?] at hp

theorem unlessStatic_of_not {α : Type} {k : Key .work} {expression : String}
    {o : Outcome (Except AccessError α)} (hs : (w.works.get k).dynamicShouldError = false) :
    w.unlessStatic k expression o = o := by
  simp [unlessStatic, hs]

end World

namespace Explain

/-- How a prerender remembers the handle of a resource. -/
def keyOf : Resource → MemoKey
  | .draftMode => .absent
  | _ => .unit

/-- The state of what a prerender gives. -/
def stateOf (route : String) : Resource → HandleState
  | .draftMode => .resolved (.draft .blank (scope.binding coordinator))
  | r => .pending r signal route

/-- The handle that a prerender gives to a resource, with its number among those asked for. -/
def handleOf (asked : List Resource) (route : String) (r : Resource) : Handle :=
  { id := .made unit (asked.eraseDups.idxOf r), state := stateOf route r }

/-- The world of a prerender, of a route that is neither static nor meant to fail, in which
resources were asked for and draft mode was switched. -/
structure Prerenders (s : Scenario) (told : Reporter) (asked : List Resource)
    (switched : List DraftCall) (interrupted : Bool) (w : World) : Prop where
  forceStatic : s.route.forceStatic = false
  dynamicShouldError : s.route.dynamicShouldError = false
  works : w.works.get work = .ofRoute s.route s.request.prefetch
  deferring : (w.units.get unit).variant.deferring? = some prerender
  alive : (w.units.get unit).alive = true
  handles : (w.units.get unit).handles.entries =
    asked.eraseDups.map fun r => ((r, keyOf r), handleOf asked s.route.path r)
  fired : (w.signals.get signal).aborted = interrupted
  noted : (w.logs.get log).expressions = switched.map DraftCall.noted
  told : w.reporters.get reporter = told

/-- What a prerender reports of an awaited handle. Once draft mode was switched there is nothing to
wait for. -/
def awaitReport (route : String) (window : Nat) (interrupted : Bool) (label : String) :
    Resource → AccessReport
  | .draftMode => .ofValue label "enabled=false"
  | r =>
    if interrupted then .ofError label (.hangingPromiseRejection route r.quotedCall)
    else .ofPending label window

/-- What a prerender reports of a call on a handle that was not awaited. -/
def callReport (route label : String) : Call → AccessReport
  | .draft .isEnabled => .ofValue label "false"
  | .draft call => .ofError label (.prerenderInterrupted route call.noted)
  | call => .ofError label (.syncAccessUnavailable route call.expression call.resource.api)

def prerenderReport (route : String) (window : Nat) (interrupted : Bool) (label : String)
    (a : Access) : AccessReport :=
  match a.call? with
  | none => awaitReport route window interrupted label a.resource
  | some call => callReport route label call

theorem eraseDups_concat {α : Type} [DecidableEq α] (l : List α) (a : α) :
    (l ++ [a]).eraseDups = if a ∈ l then l.eraseDups else l.eraseDups ++ [a] := by
  rw [List.eraseDups_append]
  by_cases h : a ∈ l <;> simp [List.removeAll, h, List.eraseDups_cons]

theorem idxOf_concat {α : Type} [DecidableEq α] (l : List α) (a : α) {b : α} (hb : b ∈ l) :
    (l ++ [a]).eraseDups.idxOf b = l.eraseDups.idxOf b := by
  rw [eraseDups_concat]
  split
  · rfl
  · exact List.idxOf_append_of_mem (List.mem_eraseDups.mpr hb)

theorem find_self {α : Type} [DecidableEq α] (l : List α) (a : α) :
    l.find? (· = a) = if a ∈ l then some a else none := by
  cases hf : l.find? (· = a) with
  | some b =>
    have hb : b = a := by simpa using List.find?_some hf
    rw [if_pos (hb ▸ List.mem_of_find?_eq_some hf), hb]
  | none =>
    rw [if_neg]
    intro ha
    simpa using List.find?_eq_none.mp hf a ha

namespace Prerenders

variable {s : Scenario} {told : Reporter} {asked : List Resource} {switched : List DraftCall}
  {interrupted : Bool} {w : World} (h : Prerenders s told asked switched interrupted w)

include h

theorem remembers (r : Resource) : (w.units.get unit).handles.get? (r, keyOf r) =
    if r ∈ asked then some (handleOf asked s.route.path r) else none := by
  have hkey : ((fun e : (Resource × MemoKey) × Handle => decide (e.1 = (r, keyOf r))) ∘
      fun r => ((r, keyOf r), handleOf asked s.route.path r)) = fun r' => decide (r' = r) := by
    funext r'
    refine decide_eq_decide.mpr ⟨fun same => congrArg Prod.fst same, ?_⟩
    rintro rfl
    rfl
  rw [Registry.get?, h.handles, List.find?_map, hkey, find_self]
  by_cases hr : r ∈ asked <;> simp [hr]

/-! ### Fetching -/

theorem fetch_eq (r : Resource) : w.fetch coordinator (some scope) r =
    w.give unit r (keyOf r) (stateOf s.route.path r) none := by
  have hforce : (w.works.get scope.work).forceStatic = false :=
    (congrArg Work.forceStatic h.works).trans h.forceStatic
  have hstatic : (w.works.get (scope.binding coordinator).work).dynamicShouldError = false :=
    (congrArg Work.dynamicShouldError h.works).trans h.dynamicShouldError
  have hroute : (w.works.get (scope.binding coordinator).work).route = s.route.path :=
    congrArg Work.route h.works
  rw [World.fetch_in_phase _ _ _ hforce,
    World.fetchIn_deferring (b := scope.binding coordinator) h.deferring,
    World.unlessStatic_of_not hstatic]
  cases r with
  | draftMode => rfl
  | cookies | headers =>
    simp only [World.fetchDeferred, hroute]
    rfl

theorem fetch (r : Resource) :
    (w.fetch coordinator (some scope) r).result =
        .ok (handleOf (asked ++ [r]) s.route.path r) ∧
      Prerenders s told (asked ++ [r]) switched interrupted
        (w.fetch coordinator (some scope) r).world := by
  rw [h.fetch_eq]
  have hkept := h.remembers r
  by_cases hr : r ∈ asked
  · -- Asked for before: the handle is found, and nothing changes.
    have hsame (r' : Resource) : handleOf (asked ++ [r]) s.route.path r' =
        handleOf asked s.route.path r' := by
      simp only [handleOf, eraseDups_concat, if_pos hr]
    rw [if_pos hr] at hkept
    simp only [World.give, World.memoize, hkept]
    refine ⟨by rw [hsame], { h with handles := ?_ }⟩
    simp only [h.handles, eraseDups_concat, if_pos hr, hsame]
  · -- Asked for now: the handle gets the next number.
    have hsize : (w.units.get unit).handles.size = (asked ++ [r]).eraseDups.idxOf r := by
      have hnew : r ∉ asked.eraseDups := mt List.mem_eraseDups.mp hr
      rw [eraseDups_concat, if_neg hr, List.idxOf_append_of_notMem hnew, List.idxOf_cons_self,
        Registry.size, h.handles, List.length_map, Nat.add_zero]
    have hold : ∀ r' ∈ asked.eraseDups,
        ((r', keyOf r'), handleOf (asked ++ [r]) s.route.path r') =
          ((r', keyOf r'), handleOf asked s.route.path r') := by
      intro r' hr'
      simp only [handleOf, idxOf_concat asked r (List.mem_eraseDups.mp hr')]
    rw [if_neg hr] at hkept
    simp only [World.give, World.memoize, hkept, Registry.getOrCreate_of_new hkept, hsize]
    refine ⟨rfl, { h with deferring := ?_, alive := ?_, handles := ?_ }⟩
    · simpa using h.deferring
    · simpa using h.alive
    · rw [eraseDups_concat, if_neg hr, List.map_append, List.map_congr_left hold]
      simp [h.handles, handleOf, eraseDups_concat, hr]

/-! ### Awaiting and calling -/

theorem listens {w' : World} (hlistens : w.Listens w') :
    Prerenders s told asked switched interrupted w' := by
  have hframe := hlistens.frame
  have hfired := (hlistens.aborted signal).trans h.fired
  rw [hframe] at hfired ⊢
  exact { h with fired := hfired }

theorem decideSwitch_eq (c : DraftCall) :
    w.decideSwitch (scope.binding coordinator) c.expression =
      w.interrupt work prerender c.noted := by
  have hwork : w.works.get (scope.binding coordinator).work =
      .ofRoute s.route s.request.prefetch := h.works
  have hforce : (Work.ofRoute s.route s.request.prefetch).forceStatic = false :=
    h.forceStatic
  have halive : (w.units.get (scope.binding coordinator).unit).alive = true := h.alive
  have hvariant : (w.units.get (scope.binding coordinator).unit).variant.deferring? =
      some prerender := h.deferring
  have hafter : (w.units.get (scope.binding coordinator).unit).variant.isAfter = false := by
    cases hv : (w.units.get (scope.binding coordinator).unit).variant with
    | request q =>
      rw [hv] at hvariant
      cases hvariant
    | _ => rfl
  have hworkAlive : (Work.ofRoute s.route s.request.prefetch).alive = true := rfl
  have hstatic : (w.works.get (scope.binding coordinator).work).dynamicShouldError = false :=
    (congrArg Work.dynamicShouldError hwork).trans h.dynamicShouldError
  simp only [World.decideSwitch, hwork, hworkAlive, halive, hafter, hforce]
  exact (World.decideIn_deferring hvariant).trans (World.unlessStatic_of_not hstatic)

theorem interrupt (c : DraftCall) :
    Prerenders s told asked (switched ++ [c]) true
      (w.interrupt work prerender c.noted (α := Unit)).world := by
  have hworld : (w.interrupt work prerender c.noted (α := Unit)).world =
      { w with
        logs := w.logs.modify log fun t => t.record { expression := c.noted }
        signals := w.signals.modify signal fun x => x.abort.1 } := rfl
  rw [hworld]
  refine { h with fired := ?_, noted := ?_ }
  · simp [World.aborted_abort]
  · simp [Tracking.expressions, Tracking.record, ← h.noted]

theorem switch {x : Handle} (hx : x.state = stateOf s.route.path .draftMode) {c : DraftCall}
    (hc : c.isSwitch = true) :
    (w.callHandle x (.draft c)).result = .error (.prerenderInterrupted s.route.path c.noted) ∧
      Prerenders s told asked (switched ++ [c]) true (w.callHandle x (.draft c)).world := by
  -- The handle has its value, so that the call gets as far as the decision.
  have hdecide : w.decide (.draft .blank (scope.binding coordinator)) (.draft c) =
      w.interrupt work prerender c.noted := by
    rw [← h.decideSwitch_eq c]
    cases c with
    | isEnabled => cases hc
    | enable | disable => rfl
  have hroute : (w.works.get work).route = s.route.path := congrArg Work.route h.works
  have hrefused : (w.interrupt work prerender c.noted (α := Unit)).result =
      .error (.prerenderInterrupted s.route.path c.noted) := by
    rw [← hroute]
    rfl
  have hcall : w.callHandle x (.draft c) =
      { world := (w.interrupt work prerender c.noted (α := Unit)).world
        events := (w.interrupt work prerender c.noted (α := Unit)).events
        result := .error (.prerenderInterrupted s.route.path c.noted) } := by
    have hstate : x.state = .resolved (.draft .blank (scope.binding coordinator)) := hx
    simp only [World.callHandle, hstate]
    rw [hdecide]
    exact World.next_error hrefused _
  rw [hcall]
  exact ⟨rfl, h.interrupt c⟩

end Prerenders

/-! ## One access after others -/

namespace Progress

variable {s : Scenario} {told : Reporter} {asked : List Resource} {switched : List DraftCall}
  {interrupted : Bool}

theorem reports_wait (p : Progress) (label : String) (x : Handle) :
    (p.wait label x).reports = p.reports := by
  unfold wait
  split
  · rfl
  · split <;> rfl

section

variable {w : World} (h : Prerenders s told asked switched interrupted w) {x : Handle}

include h

theorem prerender_await (p : Progress) (window : Nat) (label : String) {r : Resource}
    (hs : x.state = stateOf s.route.path r) (hg : x.guard? = none) :
    (p.await window label w x).reports =
        p.reports ++ [awaitReport s.route.path window interrupted label r] ∧
      Prerenders s told asked switched interrupted (p.await window label w x).world := by
  refine ⟨?_, by rw [world_await]; exact h.listens (w.pollOnce_listens hg 0)⟩
  unfold Progress.await
  rw [reports_wait]
  cases r with
  | draftMode =>
    rw [World.pollOnce_resolved hs]
    rfl
  | cookies | headers =>
    rw [World.pollOnce_pending hs, h.fired]
    cases interrupted <;> rfl

theorem prerender_call (p : Progress) (label : String) {call : Call}
    (hs : x.state = stateOf s.route.path call.resource) (hg : x.guard? = none) :
    (p.call label w x call).reports = p.reports ++ [callReport s.route.path label call] ∧
      Prerenders s told asked (switched ++ call.switch?.toList)
        (interrupted || call.switch?.isSome) (p.call label w x call).world := by
  have unchanged : Prerenders s told asked (switched ++ []) (interrupted || false) w := by
    simpa using h
  cases call with
  | cookies c | headers c =>
    simp only [Progress.call, World.callHandle, hs, Call.resource, stateOf]
    exact ⟨rfl, unchanged⟩
  | draft c =>
    cases hc : c.isSwitch with
    | false =>
      cases c with
      | isEnabled =>
        simp only [Progress.call, World.callHandle, hs, Call.resource, stateOf, World.observe, hg]
        exact ⟨rfl, unchanged⟩
      | enable | disable => cases hc
    | true =>
      obtain ⟨hresult, hswitched⟩ := h.switch hs hc
      have hswitch : (Call.draft c).switch? = some c := if_pos hc
      have hreport : callReport s.route.path label (.draft c) =
          .ofError label (.prerenderInterrupted s.route.path c.noted) := by
        cases c with
        | isEnabled => cases hc
        | enable | disable => rfl
      rw [hswitch, hreport, Option.isSome_some, Bool.or_true]
      simp only [Progress.call, hresult]
      exact ⟨rfl, hswitched⟩

end

/-- What an access is reported as depends on those before it only by whether draft mode was
switched. -/
theorem prerender_access {p : Progress} (h : Prerenders s told asked switched interrupted p.world)
    (window : Nat) (label : String) (a : Access) :
    (p.access window label a).reports =
        p.reports ++ [prerenderReport s.route.path window interrupted label a] ∧
      Prerenders s told (asked ++ [a.resource]) (switched ++ a.switch?.toList)
        (interrupted || a.switch?.isSome) (p.access window label a).world := by
  obtain ⟨hgiven, hasked⟩ := h.fetch a.resource
  unfold Progress.access prerenderReport Access.switch?
  simp only [hgiven]
  cases hc : a.call? with
  | none => simpa using prerender_await hasked p window label rfl rfl
  | some call =>
    have hresource := Access.resource_of_call hc
    rw [hresource] at hasked ⊢
    exact prerender_call hasked p label rfl rfl

end Progress

/-- What a prerender reports of a list of accesses. -/
def prerenderReports (route : String) (window : Nat) :
    Bool → List (String × Access) → List AccessReport
  | _, [] => []
  | interrupted, e :: rest =>
    prerenderReport route window interrupted e.1 e.2 ::
      prerenderReports route window (interrupted || e.2.switch?.isSome) rest

theorem length_prerenderReports (route : String) (window : Nat) (interrupted : Bool)
    (accesses : List (String × Access)) :
    (prerenderReports route window interrupted accesses).length = accesses.length := by
  induction accesses generalizing interrupted with
  | nil => rfl
  | cons e rest ih => simp [prerenderReports, ih]

theorem prerenderReports_getElem? (route : String) (window : Nat) (interrupted : Bool)
    (accesses : List (String × Access)) (i : Nat) :
    (prerenderReports route window interrupted accesses)[i]? = accesses[i]?.map fun e =>
      prerenderReport route window
        (interrupted || (accesses.take i).any (·.2.switch?.isSome)) e.1 e.2 := by
  induction accesses generalizing interrupted i with
  | nil => rfl
  | cons e rest ih =>
    cases i with
    | zero => simp [prerenderReports]
    | succ i => simp [prerenderReports, ih, Bool.or_assoc]

theorem Progress.prerender_accesses {s : Scenario} {told : Reporter} {asked : List Resource}
    {switched : List DraftCall} {interrupted : Bool} {p : Progress}
    (h : Prerenders s told asked switched interrupted p.world) (window : Nat)
    (accesses : List (String × Access)) :
    let made := accesses.foldl (fun p e => p.access window e.1 e.2) p
    made.reports = p.reports ++ prerenderReports s.route.path window interrupted accesses ∧
      ∃ fired, Prerenders s told (asked ++ accesses.map (·.2.resource))
        (switched ++ accesses.filterMap (·.2.switch?)) fired made.world := by
  induction accesses generalizing p asked switched interrupted with
  | nil => exact ⟨by simp [prerenderReports], interrupted, by simpa using h⟩
  | cons e rest ih =>
    obtain ⟨hreports, hworld⟩ := Progress.prerender_access h window e.1 e.2
    obtain ⟨hrest, fired, hafter⟩ := ih hworld
    refine ⟨?_, fired, ?_⟩
    · simp [hrest, hreports, prerenderReports]
    · cases hs : e.2.switch? <;> simpa [hs] using hafter

theorem Progress.prerender_abort {s : Scenario} {told : Reporter} {asked : List Resource}
    {switched : List DraftCall} {interrupted : Bool} {p : Progress}
    (h : Prerenders s told asked switched interrupted p.world) :
    ∃ fired, Prerenders s told asked switched fired p.abort.world := by
  unfold abort
  split
  · exact ⟨interrupted, h⟩
  · have hfired : Prerenders s told asked switched true (p.world.abortSignal signal).1 :=
      { h with fired := by simp [World.abortSignal, World.aborted_abort] }
    exact ⟨true, hfired.listens (reject_listens { p with world := _ } _)⟩

theorem prerenders_world {s : Scenario} (hf : s.route.dynamic ≠ .forceStatic)
    (he : s.route.dynamic ≠ .error) (r : Request) (told : Reporter) {phase : Phase}
    (hp : phase = .prerender ∨ phase = .prerenderRuntime) :
    Prerenders s told [] [] false (world s r told phase) := by
  have hforce : s.route.forceStatic = false := beq_eq_false_iff_ne.mpr hf
  have hstatic : s.route.dynamicShouldError = false := beq_eq_false_iff_ne.mpr he
  rcases hp with rfl | rfl <;> exact ⟨hforce, hstatic, rfl, rfl, rfl, rfl, rfl, rfl, rfl⟩

end Explain

/-! ## The report of a prerender -/

/-- What an access comes to in a prerender, after draft mode was switched or before. -/
def Access.ComesTo (switched : Bool) : Access → AccessReport → Prop
  | .cookies, r | .headers, r =>
    if switched then r.verdict = .error ∧ r.kind = some "hanging-promise-rejection"
    else r.verdict = .pending
  | .draft, r => r.verdict = .value ∧ r.detail = "enabled=false"
  | .draftIsEnabled, r => r.verdict = .value ∧ r.detail = "false"
  | .draftEnable, r | .draftDisable, r =>
    r.verdict = .bailout ∧ r.kind = some "prerender-interrupted"
  | _, r => r.verdict = .error ∧ r.kind = some "sync-access-unavailable"

theorem Access.comesTo_prerenderReport (route : String) (window : Nat) (switched : Bool)
    (label : String) (a : Access) :
    (Explain.prerenderReport route window switched label a).access = label ∧
      a.ComesTo switched (Explain.prerenderReport route window switched label a) := by
  cases a <;> cases switched <;> exact ⟨rfl, by trivial⟩

namespace Explanation

variable (x : Explanation)

/-- Whether draft mode was switched before the `i`-th access. -/
def switchedBefore (i : Nat) : Bool := (x.accesses.take i).any (·.2.switch?.isSome)

/-- What is reported of a prerender. -/
structure Prerendered (report : PhaseReport) : Prop where
  answered (i : Nat) (label : String) (a : Access) (hi : x.accesses[i]? = some (label, a)) :
    ∃ r, report.accesses[i]? = some r ∧ r.access = label ∧ a.ComesTo (x.switchedBefore i) r
  complete (h : x.abort = false) : report.accesses.length = x.accesses.length
  tracked : report.tracked = (x.accesses.filterMap (·.2.switch?)).map (·.noted)
  handles : report.handles = (x.accesses.map (·.2.resource)).eraseDups.length
  diagnostics : report.diagnostics = []
  latchedError : report.latchedError = none
  dynamicUsage : report.dynamicUsage = none
  revalidate : report.revalidate = none

variable {x}

theorem summary_prerendered {told : Reporter} {phase : Phase} {p : Explain.Progress}
    {interrupted : Bool} (after : List AccessReport)
    (h : Explain.Prerenders x.scenario told (x.accesses.map (·.2.resource))
      (x.accesses.filterMap (·.2.switch?)) interrupted p.world)
    (hr : p.reports = Explain.prerenderReports x.scenario.route.path x.window false x.accesses ++
      after) (ha : x.abort = false → after = []) :
    x.Prerendered (Explain.summary phase told.collected.length p) where
  answered i label a hi := by
    have hreport : p.reports[i]? = some (Explain.prerenderReport x.scenario.route.path x.window
        (x.switchedBefore i) label a) := by
      have hlt : i < x.accesses.length := List.getElem?_eq_some_iff.mp hi |>.1
      rw [hr, List.getElem?_append_left (by rwa [Explain.length_prerenderReports]),
        Explain.prerenderReports_getElem?, hi]
      rfl
    exact ⟨_, hreport, Access.comesTo_prerenderReport ..⟩
  complete hx := by
    simp only [Explain.summary, hr, ha hx, List.append_nil, Explain.length_prerenderReports]
  tracked := h.noted
  handles := by
    have hsize := congrArg List.length h.handles
    rw [List.length_map] at hsize
    exact hsize
  diagnostics := by simp [Explain.summary, h.told]
  latchedError := by
    simp only [Explain.summary, h.works]
    rfl
  dynamicUsage := by
    simp only [Explain.summary, h.works]
    rfl
  revalidate := by
    have hdeferring := h.deferring
    simp only [Explain.summary]
    cases hv : (p.world.units.get Explain.unit).variant with
    | prerenderLegacy period =>
      rw [hv] at hdeferring
      cases hdeferring
    | _ => rfl

theorem phase_prerendered (hf : x.scenario.route.dynamic ≠ .forceStatic)
    (he : x.scenario.route.dynamic ≠ .error) (r : Request) (told : Reporter) {phase : Phase}
    (hp : phase = .prerender ∨ phase = .prerenderRuntime) :
    x.Prerendered (x.phase r told phase).1 := by
  obtain ⟨hreports, fired, hmade⟩ :=
    Explain.Progress.prerender_accesses
      (p := { world := Explain.world x.scenario r told phase })
      (Explain.prerenders_world hf he r told hp) x.window x.accesses
  rw [phase_eq, last]
  cases hx : x.abort with
  | false =>
    refine summary_prerendered [] hmade ?_ fun _ => rfl
    simpa using hreports
  | true =>
    obtain ⟨fired', haborted⟩ := Explain.Progress.prerender_abort hmade
    obtain ⟨after, hafter⟩ := Explain.Progress.reports_abort
      (x.accesses.foldl (fun p e => p.access x.window e.1 e.2)
        { world := Explain.world x.scenario r told phase })
    rw [hreports, List.nil_append] at hafter
    exact summary_prerendered after haborted hafter fun hno => Bool.noConfusion (hx.symm.trans hno)

/-- Cookies and headers are pending in a prerender until draft mode is switched. From then on they
are rejected. -/
theorem prerenders_reported (hv : x.scenario.request.HasValidHeaders)
    (hf : x.scenario.route.dynamic ≠ .forceStatic) (he : x.scenario.route.dynamic ≠ .error)
    (phases : List Phase) :
    ∃ reports, x.run phases = .ok reports ∧ reports.map (·.phase) = phases ∧
      ∀ report ∈ reports, report.phase = .prerender ∨ report.phase = .prerenderRuntime →
        x.Prerendered report := by
  obtain ⟨r, hr⟩ := Scenario.incoming_of_valid hv
  refine ⟨_, run_eq hr phases, (x.phases_reported r {} phases).1, fun report hreport hp => ?_⟩
  obtain ⟨told, phase, rfl⟩ := mem_phases hreport
  exact phase_prerendered hf he r told hp

/-- The cookies are pending before draft mode is switched and rejected after it. The headers are not
there for a call. -/
theorem prerenders_reported_with_draft_mode_enabled :
    let x : Explanation :=
      { scenario := {}
        accesses := [("cookies", .cookies), ("draft.enable", .draftEnable),
          ("headers.keys", .headersKeys), ("draft", .draft), ("cookies", .cookies)] }
    x.scenario.request.HasValidHeaders ∧ x.scenario.route.dynamic ≠ .forceStatic ∧
      x.scenario.route.dynamic ≠ .error ∧
      ∃ report, x.run [.prerender] = .ok [report] ∧ x.Prerendered report ∧
        report.accesses.map (·.verdict) = [.pending, .bailout, .error, .value, .error] ∧
        report.tracked = ["`draftMode().enable()`"] ∧ report.handles = 3 := by
  intro x
  have hv : x.scenario.request.HasValidHeaders := by decide
  have hf : x.scenario.route.dynamic ≠ .forceStatic := by decide
  have he : x.scenario.route.dynamic ≠ .error := by decide
  obtain ⟨reports, hrun, -, hreports⟩ := prerenders_reported hv hf he [.prerender]
  obtain rfl : [_] = reports := Except.ok.inj hrun
  refine ⟨hv, hf, he, _, hrun, hreports _ List.mem_cons_self (.inl rfl), ?_⟩
  decide +kernel

end Explanation

end RequestAccess
