import RequestAccess.Proofs.Prerendering

/-!
# Rejections after an abort

Explaining can fire the signal of each phase at its end. Every label under which a handle had to be
waited for is then reported once more, with the rejection of the handle. That a draft mode access
has fired the signal before makes no difference to this: a handle that was reported rejected is
reported so again.
-/

namespace RequestAccess

/-! ## Reports of handles that wait -/

/-- The handle waits for a signal: it is pending, or the signal has rejected it. -/
def AccessReport.isDeferred (r : AccessReport) : Bool :=
  r.verdict = .pending || r.kind = some "hanging-promise-rejection"

namespace AccessReport

theorem isDeferred_ofError {label : String} {e : AccessError}
    (h : ∀ route expression, e ≠ .hangingPromiseRejection route expression) :
    (ofError label e).isDeferred = false := by
  cases e with
  | hangingPromiseRejection route expression => exact absurd rfl (h route expression)
  | _ => simp [ofError, isDeferred, verdictOf, AccessError.kind, AccessError.isControlFlow]

end AccessReport

namespace World

variable {w : World}

theorem Refused.rejects_nothing {a : Attempt} {e : AccessError} {events : List Event} {w' : World}
    (h : w.Refused a e events w') (route expression : String) :
    e ≠ .hangingPromiseRejection route expression := by
  cases h <;> simp [AccessError.inClientComponent]

theorem fetch_rejects_nothing {c : Key .coordinator} {scope : Scope} {r : Resource}
    {e : AccessError} (h : (w.fetch c (some scope) r).result = .error e)
    (route expression : String) : e ≠ .hangingPromiseRejection route expression :=
  (w.fetch_refuses c scope r e h).rejects_nothing route expression

theorem callHandle_rejects_nothing {h : Handle} {call : Call} {e : AccessError}
    (he : (w.callHandle h call).result = .error e) (route expression : String) :
    e ≠ .hangingPromiseRejection route expression := by
  have hc := w.callHandle_called h call
  generalize w.callHandle h call = o at he hc
  cases hc with
  | refused a e' events after ha hr =>
    cases he
    exact hr.rejects_nothing route expression
  | carried v before hk hr =>
    rw [hr] at he
    cases hp : (before.perform v call).2 <;> rw [hp] at he <;> cases he
    simp
  | early =>
    cases he
    simp

end World

/-! ## What is waited for -/

namespace Explain

/-- The world of a phase. What waits in it waits for the signal of the phase. -/
structure OfPhase (w : World) : Prop where
  fits : w.Fits
  waits (p : Prerender) (hp : (w.units.get unit).variant.deferring? = some p) : p.signal = signal

namespace OfPhase

variable {w w' : World} (h : OfPhase w)

include h

theorem evolves (e : w.Evolves w') : OfPhase w' where
  fits := h.fits.evolves e
  waits p hp := by
    rw [← Variant.deferring?_asMade, (e.unit unit).made, Variant.deferring?_asMade] at hp
    exact h.waits p hp

theorem hangs {r : Resource} {x : Handle} {y : Hanging}
    (hg : w.Given (scope.binding coordinator) r x w') (hy : x.hanging? = some y) :
    y.signal = signal := by
  cases hf : (w.works.get (scope.binding coordinator).work).forceStatic with
  | true =>
    cases hg with
    | blank hs => cases hy
    | live q hs hv hp => cases hf.symm.trans hs
    | untracked state hs hv hk hu hp => cases hf.symm.trans hs
  | false =>
    have hstate := (hg.remembered h.fits hf).state
    unfold Handle.hanging? at hy
    generalize (w.units.get _).variant.keyFor _ r = key at hstate
    generalize x.state = state at hstate hy
    cases hstate with
    | waiting p route hr hp =>
      cases hy
      exact h.waits p hp
    | cookies | headers | draft | noDraft => cases hy

end OfPhase

theorem world_ofPhase (s : Scenario) (r : Request) (told : Reporter) (phase : Phase) :
    OfPhase (world s r told phase) where
  fits := World.fits_of_fresh (world_fresh s r told phase)
  waits p hp := by
    have hvariant : (variant s phase).deferring? = some p := hp
    cases phase with
    | prerender | prerenderRuntime =>
      cases hvariant
      rfl
    | _ => cases hvariant

namespace Progress

/-- The labels of the reports so far whose handles wait. -/
def deferredLabels (p : Progress) : List String :=
  (p.reports.filter (·.isDeferred)).map (·.access)

/-- A handle is kept for each label under which one waits, and for no other. All of them wait for
the signal of the phase. -/
structure Collects (p : Progress) : Prop where
  phase : OfPhase p.world
  labels : p.waiting.map (·.1) = p.deferredLabels.eraseDups
  hangs : ∀ e ∈ p.waiting, e.2.signal = signal

namespace Collects

variable {p : Progress} (h : p.Collects) {w : World} (hw : OfPhase w) {x : Handle}

include h

theorem wait_resolved (hx : x.hanging? = none) (label : String) : (p.wait label x).Collects := by
  simpa [Progress.wait, hx] using h

include hw

theorem report {r : AccessReport} (hr : r.isDeferred = false) : (p.report w r).Collects where
  phase := hw
  labels := by simp [Progress.report, deferredLabels, hr, h.labels]
  hangs := h.hangs

theorem wait_hanging {r : AccessReport} {y : Hanging} (hr : r.isDeferred = true)
    (hx : x.hanging? = some y) (hy : y.signal = signal) :
    ((p.report w r).wait r.access x).Collects := by
  have hlabels : (p.report w r).deferredLabels = p.deferredLabels ++ [r.access] := by
    simp [Progress.report, deferredLabels, hr]
  have hknown : (p.report w r).waiting.any (·.1 = r.access) = true ↔
      r.access ∈ p.deferredLabels := by
    rw [← List.mem_eraseDups, ← h.labels]
    simp [Progress.report]
  have hadded := eraseDups_concat p.deferredLabels r.access
  by_cases hold : r.access ∈ p.deferredLabels
  · have hsame : (p.report w r).wait r.access x = p.report w r := by
      simp only [wait, hx, hknown.mpr hold, if_true]
    rw [hsame]
    exact ⟨hw, by rw [hlabels, hadded, if_pos hold]; exact h.labels, h.hangs⟩
  · have hnew : (p.report w r).wait r.access x =
        { p.report w r with waiting := p.waiting ++ [(r.access, y)] } := by
      have hany := Bool.eq_false_iff.mpr (mt hknown.mp hold)
      simp only [wait, hx, hany]
      rfl
    rw [hnew]
    refine ⟨hw, ?_, ?_⟩
    · refine Eq.trans ?_ (congrArg List.eraseDups hlabels).symm
      rw [hadded, if_neg hold, ← h.labels]
      simp
    · intro e he
      rcases List.mem_append.mp he with he | he
      · exact h.hangs e he
      · rw [List.mem_singleton.mp he]
        exact hy

theorem await (window : Nat) (label : String)
    (hx : ∀ y, x.hanging? = some y → y.signal = signal) : (p.await window label w x).Collects := by
  have hpolled := hw.evolves (w.keeps_pollOnce x 0).evolves
  unfold Progress.await
  cases hs : x.state with
  | resolved v =>
    have hnone : x.hanging? = none := by simp [Handle.hanging?, hs]
    simp only [World.pollOnce_resolved hs]
    exact (h.report hpolled rfl).wait_resolved hnone label
  | pending r key route =>
    have hsome : x.hanging? = some ⟨r, key, route⟩ := by simp [Handle.hanging?, hs]
    simp only [World.pollOnce_pending hs]
    cases (w.signals.get key).aborted with
    | false => exact h.wait_hanging hpolled (r := .ofPending label window) rfl hsome (hx _ hsome)
    | true => exact h.wait_hanging hpolled (r := .ofError label _) rfl hsome (hx _ hsome)

theorem call (label : String) (x : Handle) (call : Call) : (p.call label w x call).Collects := by
  have hcalled := hw.evolves (w.callHandle_called x call).evolves
  unfold Progress.call
  refine h.report hcalled ?_
  cases hr : (w.callHandle x call).result with
  | ok a => rfl
  | error e => exact AccessReport.isDeferred_ofError (World.callHandle_rejects_nothing hr)

omit hw

theorem access (window : Nat) (label : String) (a : Access) :
    (p.access window label a).Collects := by
  have hfetched := h.phase.evolves (p.world.fetch_rules coordinator scope a.resource).1
  unfold Progress.access
  cases hr : (p.world.fetch coordinator (some scope) a.resource).result with
  | error e =>
    simp only [hr]
    exact h.report hfetched (AccessReport.isDeferred_ofError (World.fetch_rejects_nothing hr))
  | ok x =>
    cases hc : a.call? with
    | none =>
      have hgiven := p.world.fetch_gives coordinator scope a.resource x hr
      simp only [hr]
      exact h.await hfetched window label fun _ => h.phase.hangs hgiven
    | some call =>
      simp only [hr]
      exact h.call hfetched label x call

theorem accesses (window : Nat) (accesses : List (String × Access)) :
    (accesses.foldl (fun p e => p.access window e.1 e.2) p).Collects := by
  induction accesses generalizing p with
  | nil => exact h
  | cons e rest ih => exact ih (h.access window e.1 e.2)

end Collects

/-! ## Rejecting -/

/-- How the rejection of a handle is reported after an abort. -/
def rejection (e : String × Hanging) : AccessReport :=
  .ofError (e.1 ++ " (after abort)") (.hangingPromiseRejection e.2.route e.2.resource.quotedCall)

theorem reject_fired {p : Progress} {waiting : List (String × Hanging)}
    (hf : (p.world.signals.get signal).aborted = true) (h : ∀ e ∈ waiting, e.2.signal = signal) :
    (p.reject waiting).reports = p.reports ++ waiting.map rejection := by
  induction waiting generalizing p with
  | nil => exact (List.append_nil _).symm
  | cons e rest ih =>
    obtain ⟨hsignal, hrest⟩ := List.forall_mem_cons.mp h
    have hlistens := p.world.pollHanging_listens e.2 0
    have hanswer := p.world.pollHanging_answer e.2 0
    rw [hsignal, if_pos hf] at hanswer
    simp only [reject, hanswer]
    rw [ih ((hlistens.aborted signal).trans hf) hrest]
    exact List.append_assoc ..

theorem Collects.abort {p : Progress} (h : p.Collects) :
    p.abort.reports = p.reports ++ p.waiting.map rejection := by
  unfold Progress.abort
  split
  · next hnone => simp [List.isEmpty_iff.mp hnone]
  · have hfired : ((p.world.abortSignal signal).1.signals.get signal).aborted = true := by
      simp [World.abortSignal, World.aborted_abort]
    exact reject_fired (p := { p with world := (p.world.abortSignal signal).1 }) hfired h.hangs

end Progress

end Explain

namespace Explanation

variable (x : Explanation)

/-- What a phase reports whose signal is fired at its end: `made` of its accesses, and `after` of
the labels under which a handle waits. -/
structure EndsRejecting (made after : List AccessReport) : Prop where
  answered : made.map (·.access) = x.accesses.map (·.1)
  labels : after.map (·.access) =
    ((made.filter (·.isDeferred)).map (·.access)).eraseDups.map (· ++ " (after abort)")
  rejected (r : AccessReport) (h : r ∈ after) :
    r.verdict = .error ∧ r.kind = some "hanging-promise-rejection"
  /-- Where no handle was rejected before, the handles that wait are those that are pending. -/
  pending (h : ∀ r ∈ made, r.kind ≠ some "hanging-promise-rejection") : after.map (·.access) =
    ((made.filter (·.verdict = .pending)).map (·.access)).eraseDups.map (· ++ " (after abort)")

variable {x}

theorem phase_endsRejecting (hx : x.abort = true) (r : Request) (told : Reporter) (p : Phase) :
    ∃ made after, (x.phase r told p).1.accesses = made ++ after ∧ x.EndsRejecting made after := by
  let start : Explain.Progress := { world := Explain.world x.scenario r told p }
  let made := x.accesses.foldl (fun p e => p.access x.window e.1 e.2) start
  have hstart : start.Collects :=
    ⟨Explain.world_ofPhase x.scenario r told p, rfl, by simp [start]⟩
  have hmade : made.Collects := hstart.accesses x.window x.accesses
  have hlabels : made.labels = x.accesses.map (·.1) := start.labels_accesses x.window x.accesses
  have hreports : (x.phase r told p).1.accesses = made.abort.reports := by
    rw [phase_eq]
    simp only [Explain.summary, last, if_pos hx]
    rfl
  have hafter : (made.waiting.map Explain.Progress.rejection).map (·.access) =
      made.deferredLabels.eraseDups.map (· ++ " (after abort)") := by
    rw [← hmade.labels, List.map_map, List.map_map]
    rfl
  refine ⟨made.reports, _, hreports.trans hmade.abort, hlabels, hafter, ?_, fun h => ?_⟩
  · intro a ha
    obtain ⟨e, -, rfl⟩ := List.mem_map.mp ha
    exact ⟨rfl, rfl⟩
  · have hfilter : made.reports.filter (·.isDeferred) =
        made.reports.filter (·.verdict = .pending) := by
      refine List.filter_congr fun a ha => ?_
      simp [AccessReport.isDeferred, h a ha]
    rw [hafter, Explain.Progress.deferredLabels, hfilter]

/-- After an abort each label under which a handle waits is reported once more, in the order in
which the labels came first, with the rejection of the handle. Handles that the signal had rejected
before are among them. -/
theorem waiting_rejected_after_abort (hv : x.scenario.request.HasValidHeaders)
    (hx : x.abort = true) (phases : List Phase) :
    ∃ reports, x.run phases = .ok reports ∧ reports.map (·.phase) = phases ∧
      ∀ report ∈ reports, ∃ made after, report.accesses = made ++ after ∧
        x.EndsRejecting made after := by
  obtain ⟨r, hr⟩ := Scenario.incoming_of_valid hv
  refine ⟨_, run_eq hr phases, (x.phases_reported r {} phases).1, fun report hreport => ?_⟩
  obtain ⟨told, p, rfl⟩ := mem_phases hreport
  exact phase_endsRejecting hx r told p

/-- Two labels wait in the first phase, one of them twice, and none in the second. -/
theorem waiting_rejected_after_abort_of_two_labels :
    let x : Explanation :=
      { scenario := {}
        accesses := [("headers", .headers), ("cookies", .cookies), ("headers", .headers),
          ("cookies.size", .cookiesSize)]
        abort := true }
    x.scenario.request.HasValidHeaders ∧ x.abort = true ∧
      ∃ reports, x.run [.prerender, .request] = .ok reports ∧
        (∀ report ∈ reports, ∃ made after, report.accesses = made ++ after ∧
          x.EndsRejecting made after) ∧
        (reports.map fun report => report.accesses.map (·.access)) =
          [["headers", "cookies", "headers", "cookies.size", "headers (after abort)",
              "cookies (after abort)"],
            ["headers", "cookies", "headers", "cookies.size"]] := by
  intro x
  have hv : x.scenario.request.HasValidHeaders := by decide
  obtain ⟨reports, hrun, -, hreports⟩ :=
    waiting_rejected_after_abort hv (rfl : x.abort = true) [.prerender, .request]
  refine ⟨hv, rfl, reports, hrun, hreports, ?_⟩
  obtain rfl : _ = reports := Except.ok.inj hrun
  decide +kernel

/-- A handle that a draft mode access has rejected is reported so again, and none was pending. -/
theorem rejected_twice_and_never_pending :
    let x : Explanation :=
      { scenario := {}
        accesses := [("draft.enable", .draftEnable), ("cookies", .cookies)]
        abort := true }
    x.scenario.request.HasValidHeaders ∧
      ∃ report, x.run [.prerender] = .ok [report] ∧
        (∀ a ∈ report.accesses, a.verdict ≠ .pending) ∧
        report.accesses.map (·.access) = ["draft.enable", "cookies", "cookies (after abort)"] := by
  intro x
  have hv : x.scenario.request.HasValidHeaders := by decide
  refine ⟨hv, _, rfl, ?_⟩
  decide +kernel

end Explanation

end RequestAccess
