import RequestAccess.Explain
import RequestAccess.Proofs.Locality

/-!
# Explaining phases together

Of the world of a phase nothing but the reporter goes on to the next phase, and only the live
request ever uses it. A phase is explained as it would be alone, except that a live request that is
explained again tells nothing new.
-/

namespace RequestAccess

/-! ## What is seen of an access -/

namespace World

variable {w w' : World}

theorem Listens.hushed (h : w.Listens w') : w.Hushed w' := by
  rw [h.frame]
  exact .beside rfl rfl

theorem hushed_pollOnce (w : World) (h : Handle) (waker : Waker) :
    w.Hushed (w.pollOnce h waker).1 := by
  have hm : w.Hushed (w.markAwaited h) := by
    rw [markAwaited_frame]
    exact .beside rfl rfl
  have hp := w.poll_listens { handle := h, waker }
  exact hm.trans (hp.trans (dropFuture_listens _ _)).hushed

theorem fetch_rules (w : World) (c : Key .coordinator) (scope : Scope) (r : Resource) :
    w.Evolves (w.fetch c (some scope) r).world ∧ w.Hushed (w.fetch c (some scope) r).world := by
  cases hr : (w.fetch c (some scope) r).result with
  | error e =>
    have hrefused := w.fetch_refuses c scope r e hr
    exact ⟨hrefused.evolves, hrefused.hushed⟩
  | ok h =>
    have hgiven := w.fetch_gives c scope r h hr
    exact ⟨hgiven.evolves, hgiven.hushed⟩

def sighted? (w : World) (h : Handle) (call : Call) : Option Sighting :=
  h.value?.bind fun v =>
    if (w.decide v call).result.isOk then w.sees? ⟨some h, v, call⟩ else none

theorem relays_callHandle (w : World) (h : Handle) (call : Call) :
    w.Relays (w.sighted? h call) (w.callHandle h call).world := by
  unfold sighted?
  cases hs : h.state with
  | pending r signal route =>
    simp only [callHandle, hs, Handle.value?]
    exact (Hushed.beside rfl rfl).relays
  | resolved v =>
    simp only [Handle.value?, hs, Option.bind_some, Session.use_callHandle hs]
    exact w.relays_called ⟨some h, v, call⟩

end World

/-! ## Two worlds of one phase -/

def Domain.all : Domain := ⟨fun _ => True⟩

namespace Domain

theorem value_in_all (v : Value) : v.In all := by
  rcases v with (_ | _) | (_ | _) | ⟨_ | _, _⟩ <;> repeat constructor

theorem handle_in_all (h : Handle) : h.In all where
  id := by cases h.id <;> trivial
  state := by
    cases h.state with
    | resolved v => exact value_in_all v
    | pending r signal route => trivial
  guard _ _ := trivial

theorem closedIn_all (w : World) : w.ClosedIn all where
  units k _ := by
    cases (w.units.get k).variant with
    | prerender p | prerenderClient p | prerenderRuntime p => exact ⟨trivial, fun _ _ => trivial⟩
    | _ => repeat constructor
  drafts _ _ _ _ := trivial

end Domain

/-- The report without what was told. -/
def PhaseReport.silent (r : PhaseReport) : PhaseReport := { r with diagnostics := [] }

namespace Explain

/-- Two worlds in which everything is the same but that two reporters were told the same. -/
structure Alike (a b : Reporter) (v w : World) : Prop where
  agree : Domain.all.Agree v w
  told : ∃ l, v.reporters.get reporter = a.tell l ∧ w.reporters.get reporter = b.tell l

namespace Alike

variable {a b : Reporter} {v w v' w' : World} (h : Alike a b v w)

include h

theorem relays (hm : Domain.all.Agree v' w') {x? : Option Sighting} (hv : v.Relays x? v')
    (hw : w.Relays x? w') : Alike a b v' w' where
  agree := hm
  told := by
    obtain ⟨l, hl, hl'⟩ := h.told
    have hsame : v.toldOf reporter x? = w.toldOf reporter x? := by
      cases x? with
      | none => rfl
      | some x => simp only [World.toldOf, World.startsDry, h.agree.units x.unit trivial]
    refine ⟨l ++ w.toldOf reporter x?, ?_, ?_⟩
    · rw [hv.told, hl, hsame, Reporter.tell_append]
    · rw [hw.told, hl', Reporter.tell_append]

theorem hushed (hm : Domain.all.Agree v' w') (hv : v.Hushed v') (hw : w.Hushed w') :
    Alike a b v' w' := h.relays hm hv.relays hw.relays

theorem fetch (r : Resource) :
    (v.fetch coordinator (some scope) r).result = (w.fetch coordinator (some scope) r).result ∧
      Alike a b (v.fetch coordinator (some scope) r).world
        (w.fetch coordinator (some scope) r).world := by
  have hf : Domain.all.Tracks v w (v.fetch coordinator (some scope) r)
      (w.fetch coordinator (some scope) r) :=
    h.agree.fetch (Domain.closedIn_all w) coordinator fun _ _ => ⟨trivial, trivial⟩
  exact ⟨hf.result, h.hushed hf.moves.agree (v.fetch_rules ..).2 (w.fetch_rules ..).2⟩

theorem pollOnce (x : Handle) (waker : Waker) :
    (v.pollOnce x waker).2 = (w.pollOnce x waker).2 ∧
      Alike a b (v.pollOnce x waker).1 (w.pollOnce x waker).1 := by
  obtain ⟨hresult, hm⟩ := h.agree.pollOnce (Domain.handle_in_all x) waker
  exact ⟨hresult, h.hushed hm.agree (v.hushed_pollOnce x waker) (w.hushed_pollOnce x waker)⟩

theorem pollHanging (x : Hanging) (waker : Waker) :
    (v.pollHanging x waker).2 = (w.pollHanging x waker).2 ∧
      Alike a b (v.pollHanging x waker).1 (w.pollHanging x waker).1 := by
  have hx : Domain.all.has x.signal := trivial
  obtain ⟨hresult, hm⟩ := h.agree.pollHanging hx waker
  exact ⟨hresult, h.hushed hm.agree (v.pollHanging_listens x waker).hushed
    (w.pollHanging_listens x waker).hushed⟩

theorem sighted? (x : Handle) (call : Call) : v.sighted? x call = w.sighted? x call := by
  unfold World.sighted?
  refine Option.bind_congr fun value _ => ?_
  have hdecide := h.agree.decide (Domain.closedIn_all w) (Domain.value_in_all value) call
  rw [hdecide.result, h.agree.sees? fun y _ => Domain.handle_in_all y]

theorem callHandle (x : Handle) (call : Call) :
    (v.callHandle x call).result = (w.callHandle x call).result ∧
      Alike a b (v.callHandle x call).world (w.callHandle x call).world := by
  have hc := h.agree.callHandle (Domain.closedIn_all w) (Domain.handle_in_all x) call
  refine ⟨hc.result, h.relays hc.moves.agree (v.relays_callHandle x call) ?_⟩
  rw [h.sighted? x call]
  exact w.relays_callHandle x call

theorem abortSignal (k : Key .signal) : Alike a b (v.abortSignal k).1 (w.abortSignal k).1 := by
  have hk : Domain.all.has k := trivial
  exact h.hushed (h.agree.abortSignal hk).2.agree (.beside rfl rfl) (.beside rfl rfl)

theorem valueDetail (value : Value) : valueDetail v value = valueDetail w value := by
  have hd := h.agree
  rcases value with (_ | k) | (_ | k) | ⟨_ | k, _⟩
  · rfl
  · simp only [Explain.valueDetail, World.jarOf, hd.jars k trivial]
  · rfl
  · simp only [Explain.valueDetail, World.headersOf, hd.headers k trivial]
  · rfl
  · have hsame : v.draftOf (.shared k) = w.draftOf (.shared k) := hd.drafts k trivial
    simp only [Explain.valueDetail]
    rw [hsame]

end Alike

/-! ## Two explanations of one phase -/

/-- Two phases half explained, which differ in what their reporters were told before. -/
structure Paired (a b : Reporter) (p q : Progress) : Prop where
  worlds : Alike a b p.world q.world
  reports : p.reports = q.reports
  waiting : p.waiting = q.waiting

namespace Paired

variable {a b : Reporter} {p q : Progress} (h : Paired a b p q)

include h

theorem report {v w : World} (hw : Alike a b v w) (r : AccessReport) :
    Paired a b (p.report v r) (q.report w r) :=
  ⟨hw, by simp only [Progress.report, h.reports], h.waiting⟩

theorem wait (label : String) (x : Handle) : Paired a b (p.wait label x) (q.wait label x) := by
  unfold Progress.wait
  rw [h.waiting]
  split
  · exact h
  · split
    · exact h
    · exact ⟨h.worlds, h.reports, rfl⟩

theorem await {v w : World} (hw : Alike a b v w) (window : Nat) (label : String) (x : Handle) :
    Paired a b (p.await window label v x) (q.await window label w x) := by
  obtain ⟨hresult, hpolled⟩ := hw.pollOnce x 0
  simp only [Progress.await, hresult]
  have hdetail (value : Value) := hpolled.valueDetail value
  simp only [hdetail]
  exact (h.report hpolled _).wait label x

theorem call {v w : World} (hw : Alike a b v w) (label : String) (x : Handle) (call : Call) :
    Paired a b (p.call label v x call) (q.call label w x call) := by
  obtain ⟨hresult, hcalled⟩ := hw.callHandle x call
  simp only [Progress.call, hresult]
  exact h.report hcalled _

theorem access (window : Nat) (label : String) (access : Access) :
    Paired a b (p.access window label access) (q.access window label access) := by
  obtain ⟨hresult, hfetched⟩ := h.worlds.fetch access.resource
  simp only [Progress.access, hresult]
  split
  · exact h.report hfetched _
  · exact h.await hfetched window label _
  · exact h.call hfetched label _ _

theorem reject (waiting : List (String × Hanging)) :
    Paired a b (p.reject waiting) (q.reject waiting) := by
  induction waiting generalizing p q with
  | nil => exact h
  | cons e rest ih =>
    obtain ⟨hresult, hpolled⟩ := h.worlds.pollHanging e.2 0
    simp only [Progress.reject, hresult]
    split
    · exact ih (h.report hpolled _)
    · exact ⟨hpolled, h.reports, h.waiting⟩

theorem abort : Paired a b p.abort q.abort := by
  unfold Progress.abort
  rw [h.waiting]
  split
  · exact h
  · have hfired : Paired a b
        { p with world := (p.world.abortSignal signal).1, waiting := q.waiting }
        { q with world := (q.world.abortSignal signal).1 } :=
      ⟨h.worlds.abortSignal signal, h.reports, rfl⟩
    exact hfired.reject _

theorem accesses (window : Nat) (accesses : List (String × Access)) :
    Paired a b (accesses.foldl (fun p e => p.access window e.1 e.2) p)
      (accesses.foldl (fun p e => p.access window e.1 e.2) q) := by
  induction accesses generalizing p q with
  | nil => exact h
  | cons e rest ih => exact ih (h.access window e.1 e.2)

theorem summary_silent (phase : Phase) (m n : Nat) :
    (summary phase m p).silent = (summary phase n q).silent := by
  have hunit := h.worlds.agree.units unit trivial
  have hwork := h.worlds.agree.works work trivial
  have hlog := h.worlds.agree.logs log trivial
  simp only [summary, PhaseReport.silent, h.reports, hunit, hwork, hlog]

end Paired

/-! ## Phases in which nothing is told -/

/-- The world of a phase in which nothing is guarded. What its reporter was told came before. -/
structure Quiet (told : Reporter) (w : World) : Prop where
  fits : w.Fits
  phase : (w.units.get unit).variant.phase ≠ .request
  told : w.reporters.get reporter = told

namespace Quiet

variable {told : Reporter} {w w' : World} (h : Quiet told w)

include h

theorem evolves (e : w.Evolves w') (hr : w'.reporters = w.reporters) : Quiet told w' where
  fits := h.fits.evolves e
  phase := by
    have hmade := congrArg Variant.phase (e.unit unit).made
    rw [Variant.phase_asMade, Variant.phase_asMade] at hmade
    rw [hmade]
    exact h.phase
  told := by rw [hr, h.told]

theorem unguarded {c : Key .coordinator} {r : Resource} {x : Handle}
    (hg : w.Given (scope.binding c) r x w') : x.guard? = none := by
  have hafter := h.evolves hg.evolves hg.hushed.reporters
  cases hg with
  | blank hf => rfl
  | live q hf hv hp =>
    have hunit : (w.units.get unit).variant = .request q := hv
    refine absurd ?_ h.phase
    rw [hunit]
    rfl
  | @untracked state hf hv key hk hs p hp =>
    have hkept : (p.1.units.get unit).handles.get? (r, key) = some p.2 := by
      rw [hp]
      exact w.memoize_kept ..
    refine Option.eq_none_iff_forall_ne_some.mpr fun g hguard => ?_
    exact hafter.phase ((hafter.fits.remembered unit r key p.2 hkept).guard g hguard).1

theorem fetch (r : Resource) : Quiet told (w.fetch coordinator (some scope) r).world := by
  obtain ⟨hevolves, hhushed⟩ := w.fetch_rules coordinator scope r
  exact h.evolves hevolves hhushed.reporters

theorem callHandle {x : Handle} (hx : x.guard? = none) (call : Call) :
    Quiet told (w.callHandle x call).world := by
  have hunseen : w.sighted? x call = none := by
    unfold World.sighted?
    refine Option.bind_eq_none_iff.mpr fun value _ => ?_
    simp [World.sees?, hx]
  have hrelays := w.relays_callHandle x call
  rw [hunseen] at hrelays
  exact h.evolves (w.callHandle_called x call).evolves hrelays.reporters

end Quiet

theorem world_fresh (s : Scenario) (r : Request) (told : Reporter) (phase : Phase) :
    (world s r told phase).Fresh := by
  refine fresh_of_one rfl rfl rfl ⟨rfl, rfl, rfl⟩ ?_
  cases phase with
  | request => cases hd : s.request.dryRun <;> simp [variant, Variant.isUntouched, hd] <;> rfl
  | _ => rfl

theorem world_await (p : Progress) (window : Nat) (label : String) (w : World) (x : Handle) :
    (p.await window label w x).world = (w.pollOnce x 0).1 := by
  have world_wait (q : Progress) : (q.wait label x).world = q.world := by
    unfold Progress.wait
    split
    · rfl
    · split <;> rfl
  exact world_wait _

theorem reject_listens (p : Progress) (waiting : List (String × Hanging)) :
    p.world.Listens (p.reject waiting).world := by
  induction waiting generalizing p with
  | nil => exact .refl _
  | cons e rest ih =>
    have hpolled := p.world.pollHanging_listens e.2 0
    simp only [Progress.reject]
    split
    · next answer _ =>
      exact hpolled.trans (ih (p.report _ (.ofError (e.1 ++ " (after abort)") answer)))
    · exact hpolled

section Progress

variable {told : Reporter} {p : Progress} (h : Quiet told p.world)

include h

theorem quiet_access (window : Nat) (label : String) (access : Access) :
    Quiet told (p.access window label access).world := by
  have hfetched := h.fetch access.resource
  unfold Progress.access
  cases hr : (p.world.fetch coordinator (some scope) access.resource).result with
  | error e =>
    simp only [hr]
    exact hfetched
  | ok x =>
    cases hc : access.call? with
    | none =>
      simp only [hr]
      rw [world_await]
      exact hfetched.evolves (World.keeps_pollOnce ..).evolves (World.hushed_pollOnce ..).reporters
    | some call =>
      simp only [hr]
      exact hfetched.callHandle (h.unguarded (p.world.fetch_gives coordinator scope _ x hr)) call

theorem quiet_accesses (window : Nat) (accesses : List (String × Access)) :
    Quiet told (accesses.foldl (fun p e => p.access window e.1 e.2) p).world := by
  induction accesses generalizing p with
  | nil => exact h
  | cons e rest ih => exact ih (quiet_access h window e.1 e.2)

theorem quiet_abort : Quiet told p.abort.world := by
  unfold Progress.abort
  split
  · exact h
  · have hlistens := reject_listens { p with world := (p.world.abortSignal signal).1 } p.waiting
    have hfired := h.evolves (p.world.keeps_abortSignal signal).evolves rfl
    exact hfired.evolves hlistens.keeps.evolves hlistens.hushed.reporters

end Progress

end Explain

namespace Explanation

variable (x : Explanation) (r : Request)

/-! ## One phase -/

def last (told : Reporter) (phase : Phase) : Explain.Progress :=
  let made := x.accesses.foldl (fun p e => p.access x.window e.1 e.2)
    { world := Explain.world x.scenario r told phase }
  if x.abort then made.abort else made

theorem phase_eq (told : Reporter) (phase : Phase) :
    x.phase r told phase = (Explain.summary phase told.collected.length (x.last r told phase),
      (x.last r told phase).world.reporters.get Explain.reporter) := rfl

theorem last_paired (a b : Reporter) (phase : Phase) :
    Explain.Paired a b (x.last r a phase) (x.last r b phase) := by
  have hstart : Explain.Paired a b { world := Explain.world x.scenario r a phase }
      { world := Explain.world x.scenario r b phase } :=
    ⟨⟨by constructor <;> intros <;> rfl, [], rfl, rfl⟩, rfl, rfl⟩
  have hmade := hstart.accesses x.window x.accesses
  unfold last
  split
  · exact hmade.abort
  · exact hmade

theorem last_quiet (told : Reporter) {phase : Phase} (hp : phase ≠ .request) :
    Explain.Quiet told (x.last r told phase).world := by
  have hvariant : (Explain.variant x.scenario phase).phase = phase := by
    cases phase <;> rfl
  have hfresh := Explain.world_fresh x.scenario r told phase
  have hstart : Explain.Quiet told (Explain.world x.scenario r told phase) :=
    ⟨World.fits_of_fresh hfresh, by rwa [← hvariant] at hp, rfl⟩
  have hmade := Explain.quiet_accesses (p := { world := Explain.world x.scenario r told phase })
    hstart x.window x.accesses
  unfold last
  split
  · exact Explain.quiet_abort hmade
  · exact hmade

theorem phase_tells (a b : Reporter) (phase : Phase) :
    ∃ l, (x.phase r a phase).2 = a.tell l ∧ (x.phase r b phase).2 = b.tell l := by
  rw [phase_eq, phase_eq]
  exact (x.last_paired r a b phase).worlds.told

theorem phase_silent (a b : Reporter) (phase : Phase) :
    (x.phase r a phase).1.silent = (x.phase r b phase).1.silent := by
  rw [phase_eq, phase_eq]
  exact (x.last_paired r a b phase).summary_silent phase _ _

theorem silent_of_told {told : Reporter} {phase : Phase} (h : (x.phase r told phase).2 = told) :
    (x.phase r told phase).1.silent = (x.phase r told phase).1 := by
  have hnew : (x.phase r told phase).1.diagnostics =
      ((x.phase r told phase).2.collected.drop told.collected.length).map (·.message) := rfl
  rw [h, List.drop_length, List.map_nil] at hnew
  unfold PhaseReport.silent
  rw [← hnew]

/-- A live request that is explained again tells nothing new. -/
theorem request_again :
    (x.phase r (x.phase r {} .request).2 .request).2 = (x.phase r {} .request).2 := by
  obtain ⟨l, hfirst, hagain⟩ := x.phase_tells r {} (x.phase r {} .request).2 .request
  rw [hagain, hfirst, Reporter.tell_tell]

/-! ## Phases in turn -/

/-- What is reported of a phase that is explained alone. -/
def alone (phase : Phase) : PhaseReport := (x.phase r {} phase).1

/-- What is reported of a phase after others. A live request that is explained again tells nothing.
-/
def reportAfter (earlier : List Phase) (phase : Phase) : PhaseReport :=
  if phase = .request ∧ .request ∈ earlier then (x.alone r phase).silent else x.alone r phase

/-- The reporter as phases leave it. The call sites that a live request tells are in it from the
first one on. -/
def toldIn (earlier : List Phase) : Reporter :=
  if .request ∈ earlier then (x.phase r {} .request).2 else {}

theorem phase_toldIn (earlier : List Phase) (phase : Phase) :
    (x.phase r (x.toldIn r earlier) phase).2 = x.toldIn r (earlier ++ [phase]) := by
  by_cases hp : phase = .request
  · -- A first request tells a reporter that was told nothing, a later one tells nothing new.
    subst hp
    have hlast : x.toldIn r (earlier ++ [.request]) = (x.phase r {} .request).2 := by
      simp [toldIn]
    rw [hlast]
    unfold toldIn
    split
    · exact x.request_again r
    · rfl
  · have hlast : x.toldIn r (earlier ++ [phase]) = x.toldIn r earlier := by
      simp [toldIn, Ne.symm hp]
    rw [hlast]
    exact (x.last_quiet r _ hp).told

theorem report_toldIn (earlier : List Phase) (phase : Phase) :
    (x.phase r (x.toldIn r earlier) phase).1 = x.reportAfter r earlier phase := by
  have hsilent := x.phase_silent r (x.toldIn r earlier) {} phase
  unfold reportAfter alone
  split
  · next h =>
    obtain ⟨rfl, hearlier⟩ := h
    have hsame : (x.phase r (x.toldIn r earlier) .request).2 = x.toldIn r earlier := by
      simp [toldIn, hearlier, request_again]
    rw [← hsilent, x.silent_of_told r hsame]
  · next h =>
    by_cases hp : phase = .request
    · have hnone : x.toldIn r earlier = {} := by
        simp [toldIn, show .request ∉ earlier from fun hm => h ⟨hp, hm⟩]
      rw [hnone]
    · rw [← x.silent_of_told r (x.last_quiet r _ hp).told, hsilent,
        x.silent_of_told r (x.last_quiet r _ hp).told]

theorem phases_toldIn (earlier phases : List Phase) (i : Nat) :
    (x.phases r (x.toldIn r earlier) phases)[i]? =
      phases[i]?.map fun phase => x.reportAfter r (earlier ++ phases.take i) phase := by
  induction phases generalizing earlier i with
  | nil => rfl
  | cons p rest ih =>
    cases i with
    | zero => simp [phases, report_toldIn]
    | succ i =>
      have hnext := ih (earlier ++ [p]) i
      simpa [phases, phase_toldIn] using hnext

/-- How phases are explained together: each as it is explained alone, up to what a live request
tells again. -/
structure OneByOne : Prop where
  alone (phase : Phase) : x.run [phase] = .ok [x.alone r phase]
  together (phases : List Phase) : ∃ reports, x.run phases = .ok reports ∧
    ∀ i, reports[i]? = phases[i]?.map fun phase => x.reportAfter r (phases.take i) phase
  distinct (phases : List Phase) (hd : phases.Nodup) :
    x.run phases = .ok (phases.map (x.alone r))
  permuted (phases others : List Phase) (hd : phases.Nodup) (hp : phases.Perm others) :
    ∃ reports reports', x.run phases = .ok reports ∧ x.run others = .ok reports' ∧
      reports.Perm reports'

variable {x : Explanation} {r : Request}

theorem run_eq (hr : x.scenario.incoming = .ok r) (phases : List Phase) :
    x.run phases = .ok (x.phases r {} phases) := by
  cases phases with
  | nil => rfl
  | cons p rest => simp only [run, hr]

theorem phases_distinct {phases : List Phase} (hd : phases.Nodup) :
    x.phases r {} phases = phases.map (x.alone r) := by
  refine List.ext_getElem? fun i => ?_
  rw [List.getElem?_map]
  refine (x.phases_toldIn r [] phases i).trans (Option.map_congr fun p hp => ?_)
  have hnew : p ∉ phases.take i := by
    have hsplit := hd
    rw [← List.take_append_drop i phases] at hsplit
    have hrest : p ∈ phases.drop i := by
      refine List.mem_of_getElem? (i := 0) ?_
      rwa [List.getElem?_drop]
    exact fun hm => (List.nodup_append.mp hsplit).2.2 p hm p hrest rfl
  unfold reportAfter
  rw [if_neg]
  rintro ⟨rfl, hm⟩
  exact hnew hm

/-- Explaining phases together is explaining each alone. Of what a phase does only the call sites
that were told go on, and only a live request tells any. -/
theorem explained_one_by_one (hr : x.scenario.incoming = .ok r) : x.OneByOne r where
  alone phase := run_eq hr [phase]
  together phases := ⟨_, run_eq hr phases, x.phases_toldIn r [] phases⟩
  distinct phases hd := by rw [run_eq hr, phases_distinct hd]
  permuted phases others hd hp := by
    refine ⟨_, _, run_eq hr phases, run_eq hr others, ?_⟩
    rw [phases_distinct hd, phases_distinct (hp.nodup_iff.mp hd)]
    exact hp.map _

theorem explained_one_by_one_of_two_requests :
    let x : Explanation :=
      { scenario := { render := { mode := .development } }
        accesses := [("cookies.size", .cookiesSize)] }
    ∃ r reports, x.scenario.incoming = .ok r ∧
      x.run [.request, .cache, .request] = .ok reports ∧
      (reports[0]?.map fun report => report.diagnostics.length) = some 1 ∧
      reports[2]? = reports[0]?.map PhaseReport.silent := by
  intro x
  obtain ⟨r, hr⟩ : ∃ r, x.scenario.incoming = .ok r := ⟨_, rfl⟩
  obtain ⟨reports, hrun, heach⟩ :=
    (explained_one_by_one hr).together [.request, .cache, .request]
  refine ⟨r, reports, hr, hrun, ?_, ?_⟩
  · cases hr
    rw [heach 0]
    decide +kernel
  · rw [heach 2, heach 0]
    rfl

end Explanation

end RequestAccess
