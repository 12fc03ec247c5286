import RequestAccess.Proofs.Authority

/-!
# Handles that wait

Cookies and headers of a dry run wait for its signal. They are never answered: they are rejected
once the signal has fired, and the signal fires when it is aborted or when draft mode is switched.
-/

namespace RequestAccess

/-! ## What fires a signal -/

/-- The step fires a signal, unless it has fired before. -/
inductive Moment.Fires (m : Moment) (key : Key .signal) : Prop where
  | aborted (h : m.step = .abort key)
  | interrupted (b : Binding) (call : DraftCall) (p : Prerender) (route expression : String)
      (hu : m.before.draftUse? m.step = some (b, call))
      (hp : (m.before.world.units.get b.unit).variant.deferring? = some p) (hk : p.signal = key)
      (hr : m.reply = .failed (.prerenderInterrupted route expression))

/-! ## What waits -/

/-- A fetch of cookies or headers in a dry run that waits. -/
structure Moment.Defers (m : Moment) (b : Binding) (r : Resource) (p : Prerender) : Prop where
  attempt : m.attempt? = some (.ofFetch b r)
  resource : r ≠ .draftMode
  unit : (m.before.world.units.get b.unit).variant.deferring? = some p
  forceStatic : (m.before.world.works.get b.work).forceStatic = false
  dynamicShouldError : (m.before.world.works.get b.work).dynamicShouldError = false

/-- How a rejection names the resources that wait. -/
inductive Resource.Named : Resource → String → Prop where
  | cookies : Named .cookies "`cookies()`"
  | headers : Named .headers "`headers()`"

/-- What whoever awaits a deferred resource is told. -/
def Session.told (s : Session) (signal : Key .signal) (route expression : String) : Reply :=
  if (s.world.signals.get signal).aborted then .failed (.hangingPromiseRejection route expression)
  else .pending

/-- A handle that waits for a signal on behalf of a route. A call on it before it is answered is
refused, and changes nothing. -/
structure Session.Awaits (s : Session) (h : Handle) (r : Resource) (signal : Key .signal)
    (route expression : String) : Prop where
  named : r.Named expression
  now (name : String) (saveAs : Option String) (hn : s.handles.get? name = some h) :
    (s.step (.now name saveAs)).reply = s.told signal route expression
  poll (name : String) (saveAs : Option String) (f : Future) (hn : s.futures.get? name = some f)
    (hf : f.handle = h) : (s.step (.poll name saveAs)).reply = s.told signal route expression
  call (name : String) (call : Call) (hn : s.handles.get? name = some h) :
    s.step (.callHandle name call) =
      { session := s, reply := .failed (.syncAccessUnavailable route call.expression r.api) }

namespace World

variable {w w' : World} {b : Binding} {r : Resource}

/-! ## Fetching -/

theorem fetchIn_deferring {p : Prerender} (hp : (w.units.get b.unit).variant.deferring? = some p) :
    w.fetchIn b r = w.unlessStatic b.work r.api (w.fetchDeferred b p r) := by
  unfold fetchIn
  cases hv : (w.units.get b.unit).variant with
  | prerender q | prerenderRuntime q =>
    simp only [hv, Variant.deferring?, Option.some.injEq] at hp
    rw [hp]
  | _ => simp [hv, Variant.deferring?] at hp

theorem fetch_in_phase (c : Key .coordinator) (scope : Scope) (r : Resource)
    (hf : (w.works.get scope.work).forceStatic = false) :
    w.fetch c (some scope) r = w.fetchIn (scope.binding c) r :=
  if_neg (Bool.eq_false_iff.mp hf)

theorem fetchDeferred_ok (w : World) (b : Binding) (p : Prerender) (r : Resource) :
    ∃ h, (w.fetchDeferred b p r).result = .ok h := by
  cases r <;> exact ⟨_, rfl⟩

theorem fetch_interrupts_nothing {c : Key .coordinator} {scope : Option Scope}
    {route expression : String} :
    (w.fetch c scope r).result ≠ .error (.prerenderInterrupted route expression) := by
  intro hr
  cases scope with
  | none => cases hr
  | some scope =>
    obtain ⟨p, hp, -⟩ := (w.fetch_refuses c scope r _ hr).prescribed
    simp only [fetch] at hr
    split at hr
    · cases hr
    · obtain ⟨h, hok⟩ := w.fetchDeferred_ok (scope.binding c) p r
      have hin : (w.fetchIn (scope.binding c) r).result =
          .error (.prerenderInterrupted route expression) := hr
      rw [fetchIn_deferring (b := scope.binding c) hp, unlessStatic] at hin
      split at hin
      · cases hin
      · cases hok.symm.trans hin

/-! ## Firing -/

theorem aborted_abort (s : Signal) : s.abort.1.aborted = true := by
  unfold Signal.abort
  cases hs : s.aborted <;> simp [hs]

theorem aborted_withSignalFired (w : World) (k key : Key .signal) :
    ((w.withSignalFired k).signals.get key).aborted = true ↔
      (w.signals.get key).aborted = true ∨ k = key := by
  simp only [withSignalFired, Table.get_modify]
  split
  · rename_i same
    simp [same, aborted_abort]
  · rename_i other
    simp [Ne.symm other]

theorem signals_withRecords (w : World) (log? : Option (Key .log)) (expression : String) :
    (log?.elim w fun log => w.withRecord log expression).signals = w.signals := by
  cases log? <;> rfl

theorem Refused.fires {a : Attempt} {e : AccessError} {events : List Event}
    (hr : w.Refused a e events w') (key : Key .signal) :
    (w'.signals.get key).aborted = true ↔
      (w.signals.get key).aborted = true ∨
        (∃ route expression, e = .prerenderInterrupted route expression) ∧
          ∃ p, (w.unitOf a).variant.deferring? = some p ∧ p.signal = key := by
  cases hr with
  | interrupted p hp =>
    rw [aborted_withSignalFired, signals_withRecords]
    simp [hp]
  | _ => simp [withLatch, withRecord, withLog, withBailout, AccessError.inClientComponent]

end World

namespace Session

variable {s : Session} {step : Step}

theorem attempt_cases {a : Attempt} (ha : s.attempt? step = some a) :
    (∃ r c work unit saveAs scope, step = .fetch r c work unit saveAs ∧
        s.world.scope? work unit = some scope ∧ a = .ofFetch (scope.binding c) r) ∨
      (∃ call, s.draftUse? step = some (a.binding, call)) ∧ a.use = .mutation := by
  have switching {u : Use} (hu : s.use? step = some u) (hv : u.value.attempt? u.call = some a) :
      (∃ call, s.draftUse? step = some (a.binding, call)) ∧ a.use = .mutation := by
    obtain ⟨through, v, c⟩ := u
    obtain ⟨source, call, rfl, rfl, hswitch⟩ := Value.of_attempt hv
    exact ⟨⟨call, by simp [draftUse?, hu]⟩, by rw [hswitch]; rfl⟩
  cases step with
  | fetch r c work unit saveAs =>
    obtain ⟨scope, hs, rfl⟩ := Option.map_eq_some_iff.mp ha
    exact .inl ⟨r, c, work, unit, saveAs, scope, rfl, hs, rfl⟩
  | callHandle name call =>
    obtain ⟨h, hn, hh⟩ := Option.bind_eq_some_iff.mp ha
    obtain ⟨v, hs, hv⟩ := Handle.resolved_of_attempt hh
    exact .inr (switching (u := ⟨some h, v, call⟩) (by simp [use?, hn, Handle.value?, hs]) hv)
  | callValue name call =>
    obtain ⟨v, hn, hh⟩ := Option.bind_eq_some_iff.mp ha
    exact .inr (switching (u := ⟨none, v, call⟩) (by simp [use?, hn]) hh)
  | _ => cases ha

theorem use_of_interrupted {u : Use} {route expression : String} (hu : s.use? step = some u)
    (hr : (s.step step).reply = .failed (.prerenderInterrupted route expression)) :
    ∃ a, s.attempt? step = some a ∧
      s.world.Refused a (.prerenderInterrupted route expression) (s.step step).events
        (s.step step).session.world := by
  obtain ⟨hstep, ha⟩ := step_use hu
  rw [hstep] at hr ⊢
  have ho := answered_failed hr
  cases hd : (s.world.decide u.value u.call).result with
  | error e =>
    obtain ⟨a, hattempt, hrefused⟩ := World.decide_refuses hd
    rw [World.use, World.next_error hd] at ho ⊢
    cases ho
    exact ⟨a, ha.trans hattempt, hrefused⟩
  | ok x =>
    rw [(World.use_ok hd).2] at ho
    generalize (World.perform _ u.value u.call).2 = result at ho
    cases result <;> cases ho

theorem signals_step (s : Session) (step : Step) :
    (∃ key, step = .abort key) ∨
      (∃ a e, s.attempt? step = some a ∧
        s.world.Refused a e (s.step step).events (s.step step).session.world ∧
        (s.step step).reply = .failed e) ∨
      ∀ key, ((s.step step).session.world.signals.get key).aborted =
        (s.world.signals.get key).aborted := by
  have same {w : World} (hw : (s.step step).session.world = w) (hs : w.signals = s.world.signals)
      (key : Key .signal) :
      ((s.step step).session.world.signals.get key).aborted =
        (s.world.signals.get key).aborted := by rw [hw, hs]
  cases s.effect step with
  | refused a e events w ha hr h =>
    refine .inr (.inl ⟨a, e, ha, ?_⟩)
    rw [h]
    exact ⟨hr, rfl⟩
  | given b r h ha hg hm => exact .inr (.inr (same hg.frame rfl))
  | used u hu hd h =>
    refine .inr (.inr (same (w := (s.world.use u).world) ?_ ?_))
    · rw [h]
      rfl
    · rw [World.use_frame hd]
  | listened h =>
    refine .inr (.inr fun key => (h.aborted key).trans ?_)
    rw [World.notePolled_frame]
  | aborted key h => exact .inl ⟨key, h⟩
  | workDropped key h | unitDropped key h =>
    subst h
    exact .inr (.inr (same rfl rfl))
  | hostJar key call h | hostHeaders key call h | hostDraft key call h =>
    subst h
    exact .inr (.inr (same (host_frame rfl) rfl))

theorem draftUse_of_interrupted {a : Attempt} {route expression : String}
    (ha : s.attempt? step = some a)
    (hr : (s.step step).reply = .failed (.prerenderInterrupted route expression)) :
    ∃ call, s.draftUse? step = some (a.binding, call) := by
  rcases attempt_cases ha with ⟨r, c, work, unit, saveAs, scope, rfl, hscope, rfl⟩ | ⟨hu, -⟩
  · cases hf : (s.world.fetch c (s.world.scope? work unit) r).result with
    | ok h => simp [Session.step, fetch, hf] at hr
    | error e =>
      simp only [Session.step, fetch, hf, Reply.failed.injEq] at hr
      exact absurd (hr ▸ hf) World.fetch_interrupts_nothing
  · exact hu

theorem aborted_of_fires {key : Key .signal} (h : Moment.Fires ⟨s, step⟩ key) :
    ((s.step step).session.world.signals.get key).aborted = true := by
  cases h with
  | aborted h =>
    cases h
    exact (s.world.aborted_withSignalFired key key).mpr (.inr rfl)
  | interrupted b call p route expression hu hp hk hr =>
    obtain ⟨u, huse⟩ : ∃ u, s.use? step = some u := by
      unfold draftUse? at hu
      split at hu
      · rename_i huse
        exact ⟨_, huse⟩
      · cases hu
    obtain ⟨a, ha, hrefused⟩ := use_of_interrupted huse hr
    obtain ⟨call', hu'⟩ := draftUse_of_interrupted ha hr
    cases hu.symm.trans hu'
    exact (hrefused.fires key).mpr (.inr ⟨⟨route, expression, rfl⟩, p, hp, hk⟩)

/-- What fires a signal is an abort or the end of a dry run, and nothing takes it back. -/
theorem aborted_step (s : Session) (step : Step) (key : Key .signal) :
    ((s.step step).session.world.signals.get key).aborted = true ↔
      (s.world.signals.get key).aborted = true ∨ Moment.Fires ⟨s, step⟩ key := by
  have aborting (own : Key .signal) :
      (s.step (.abort own)).session.world = s.world.withSignalFired own := rfl
  constructor
  · intro h
    rcases s.signals_step step with ⟨own, rfl⟩ | ⟨a, e, ha, hrefused, hreply⟩ | hsame
    · rw [aborting, World.aborted_withSignalFired] at h
      exact h.imp_right fun (same : own = key) => .aborted (congrArg Step.abort same)
    · refine ((hrefused.fires key).mp h).imp_right ?_
      rintro ⟨⟨route, expression, rfl⟩, p, hp, hk⟩
      obtain ⟨call, hu⟩ := draftUse_of_interrupted ha hreply
      exact .interrupted a.binding call p route expression hu hp hk hreply
    · exact .inl (hsame key ▸ h)
  · rintro (h | h)
    · rcases s.signals_step step with ⟨own, rfl⟩ | ⟨a, e, ha, hrefused, hreply⟩ | hsame
      · rw [aborting, World.aborted_withSignalFired]
        exact .inl h
      · exact (hrefused.fires key).mpr (.inl h)
      · rw [hsame key, h]
    · exact aborted_of_fires h

/-! ## Awaiting and calling -/

theorem World.poll_pending {w : World} {f : Future} {r : Resource} {key : Key .signal}
    {route : String} (hf : f.handle.state = .pending r key route) :
    (w.poll f).2.2 =
      if (w.signals.get key).aborted then
        some (.error (.hangingPromiseRejection route r.quotedCall))
      else none := by
  have hsignals : (w.markAwaited f.handle).signals = w.signals := by rw [World.markAwaited_frame]
  unfold World.poll
  cases f.listener <;> simp only [hf, hsignals, World.aborted_poll, Signal.listen]

theorem asked_reply (s : Session) (saveAs : Option String) {fired : Bool} {e : AccessError} :
    (s.asked saveAs (if fired then some (.error e) else none)).reply =
      if fired then .failed e else .pending := by
  cases fired <;> rfl

theorem named_quotedCall {r : Resource} (hr : r ≠ .draftMode) : r.Named r.quotedCall := by
  cases r with
  | cookies => exact .cookies
  | headers => exact .headers
  | draftMode => exact absurd rfl hr

theorem awaits_of_pending {h : Handle} {r : Resource} {signal : Key .signal} {route : String}
    (hr : r ≠ .draftMode) (hh : h.state = .pending r signal route) :
    s.Awaits h r signal route r.quotedCall where
  named := named_quotedCall hr
  now name saveAs hn := by
    have hp := World.poll_pending (w := s.world) (f := { handle := h, waker := s.nextWaker }) hh
    simp only [Session.step, withHandle, hn, Session.now, World.pollOnce]
    rw [hp, asked_reply]
    rfl
  poll name saveAs f hn hf := by
    subst hf
    simp only [Session.step, hn, Session.poll]
    rw [World.poll_pending hh, asked_reply]
    rfl
  call name call hn := by
    simp [Session.step, withHandle, hn, World.callHandle, hh, World.refuse, answered]

end Session

/-! ## Where handles wait -/

theorem World.Makes.route {w : World} {b : Binding} {r r' : Resource} {h : Handle}
    {signal : Key .signal} {route : String} (hm : w.Makes b r h)
    (hh : h.state = .pending r' signal route) : r' = r ∧ route = (w.works.get b.work).route := by
  cases hm with
  | blank hf => cases hh
  | remembered key state hf ho hn =>
    subst hh
    cases ho with
    | waiting p hr hp => exact ⟨rfl, rfl⟩

theorem api_injective {r r' : Resource} (h : r.api = r'.api) : r = r' := by
  cases r <;> cases r' <;> simp_all [Resource.api]

theorem Handle.Remembered.pending {v : Variant} {unit : Key .unit} {found : Option (Key .draft)}
    {r : Resource} {h : Handle} {p : Prerender} (hh : h.Remembered v unit r (v.keyFor found r))
    (hr : r ≠ .draftMode) (hp : v.deferring? = some p) :
    ∃ route, h.state = .pending r p.signal route := by
  have hkey : v.keyFor found r = .unit := by
    cases r with
    | draftMode => exact absurd rfl hr
    | cookies | headers => cases v <;> first | rfl | cases hp
  have hstate := hh.state
  rw [hkey] at hstate
  generalize h.state = state at hstate
  cases hstate with
  | waiting q route hq hpq =>
    cases hp.symm.trans hpq
    exact ⟨route, rfl⟩

theorem Moment.Defers.gives {m : Moment} {b : Binding} {r : Resource} {p : Prerender}
    (hm : m.Defers b r p) (hs : m.before.Sound) :
    ∃ h route, m.gives? = some h ∧ h.state = .pending r p.signal route := by
  obtain ⟨s, step⟩ := m
  rcases Session.attempt_cases hm.attempt with
    ⟨r', c, work, unit, saveAs, scope, rfl, hscope, ha⟩ | ⟨-, hu⟩
  · have hb : b = scope.binding c := congrArg Attempt.binding ha
    have hr : r = r' := api_injective (congrArg Attempt.expression ha)
    subst hb hr
    obtain ⟨h, hok⟩ : ∃ h, (s.world.fetch c (some scope) r).result = .ok h := by
      have hin := World.fetchIn_deferring (r := r) hm.unit
      rw [World.unlessStatic, if_neg (Bool.eq_false_iff.mp hm.dynamicShouldError)] at hin
      rw [World.fetch_in_phase c scope r hm.forceStatic]
      exact hin ▸ s.world.fetchDeferred_ok (scope.binding c) p r
    have hgiven := s.world.fetch_gives c scope r h hok
    obtain ⟨route, hstate⟩ := (hgiven.remembered hs.fits hm.forceStatic).pending hm.resource hm.unit
    refine ⟨h, route, ?_, hstate⟩
    simp [Moment.gives?, Moment.reply, Moment.after, Session.step, Session.fetch, hscope, hok,
      Reply.handle?]
  · cases hu

/-- In every run, a fetch of cookies or headers in a dry run that waits gives a handle. Whoever
awaits it is told nothing before the signal of the unit has fired, and is rejected from then on, on
behalf of the work that the handle was made for and under the call that asks for the resource. A
signal fires when it is aborted, or when draft mode is switched in a dry run that has it, and stays
so. -/
theorem deferred_until_fired {w : World} (hw : w.Fresh) (steps : List Step) :
    let run := (Session.ofWorld w).moments steps
    let s := ((Session.ofWorld w).run steps).1
    (∀ m ∈ run, ∀ b r p, m.Defers b r p →
      ∃ h o made expression, m.gives? = some h ∧ origin? run h.id = some o ∧
        o.attempt? = some (.ofFetch made r) ∧
        s.Awaits h r p.signal (o.before.world.works.get made.work).route expression) ∧
      ∀ key, (s.world.signals.get key).aborted = true ↔
        (w.signals.get key).aborted = true ∨ ∃ m ∈ run, m.Fires key := by
  intro run s
  have hrecorded : Session.Recorded run s := Session.recorded_run hw steps
  refine ⟨?_, ?_⟩
  · intro m hm b r p hd
    obtain ⟨h, route, hgives, hstate⟩ := hd.gives (hrecorded.past m hm)
    obtain ⟨o, made, r', ho, hmakes⟩ := hrecorded.made m hm h hgives
    obtain ⟨rfl, rfl⟩ := hmakes.made.route hstate
    exact ⟨h, o, made, _, hgives, ho, hmakes.attempt,
      Session.awaits_of_pending hd.resource hstate⟩
  · intro key
    have h := Session.run_with_moments
      (P := fun run s => (s.world.signals.get key).aborted = true ↔
        (w.signals.get key).aborted = true ∨ ∃ m ∈ run, m.Fires key)
      (fun run s step ih => by
        rw [s.aborted_step step key, ih, or_assoc]
        simp [or_and_right, exists_or]) (Session.ofWorld w) [] steps (by simp [Session.ofWorld])
    simpa using h

/-- Cookies that were awaited before their signal was aborted are rejected after it. -/
theorem deferred_until_fired_by_abort :
    let w := World.ofPage { route := "/" } (.prerender { signal := ⟨0⟩ })
    let steps : List Step :=
      [.fetch .cookies ⟨0⟩ (some ⟨0⟩) (some ⟨0⟩) (some "c"), .start "c" "f", .abort ⟨0⟩]
    let s := ((Session.ofWorld w).run steps).1
    w.Fresh ∧ (s.step (.poll "f" none)).reply =
      .failed (.hangingPromiseRejection "/" "`cookies()`") := by
  intro w steps s
  have hw : w.Fresh := fresh_ofPage ⟨rfl, rfl, rfl⟩ rfl
  obtain ⟨hdeferred, hfired⟩ := deferred_until_fired hw steps
  have hsignal : (s.world.signals.get ⟨0⟩).aborted = true :=
    (hfired ⟨0⟩).mpr (.inr ⟨_, .tail _ (.tail _ (.head _)), .aborted rfl⟩)
  obtain ⟨h, o, made, expression, hg, ho, ha, hawaits⟩ :=
    hdeferred _ (.head _) ⟨⟨0⟩, ⟨0⟩, ⟨0⟩⟩ .cookies { signal := ⟨0⟩ } ⟨rfl, by decide, rfl, rfl, rfl⟩
  cases hg
  cases ho
  cases ha
  refine ⟨hw, ?_⟩
  rw [hawaits.poll "f" none _ rfl rfl, Session.told, if_pos hsignal]
  cases hawaits.named
  rfl

end RequestAccess
