import RequestAccess.Proofs.Memory

/-!
# What a step does

One rule for each way in which a step can change the world. A rule names the parts that may change,
and every other part is as it was.
-/

namespace RequestAccess

/-! ## Calls and polls -/

def Handle.value? (h : Handle) : Option Value :=
  match h.state with
  | .resolved v => some v
  | .pending .. => none

theorem Handle.state_of_value {h : Handle} {v : Value} (hv : h.value? = some v) :
    h.state = .resolved v := by
  unfold value? at hv
  split at hv
  · rename_i x hx
    cases hv
    exact hx
  · cases hv

/-- A call on a value, made through a handle or after awaiting one. -/
structure Use where
  through : Option Handle
  value : Value
  call : Call

namespace World

/-- What a guard sees of a call. -/
def seen (w : World) (u : Use) : World × List Event :=
  match u.through with
  | some h => w.observe h u.call.expression
  | none => (w, [])

/-- A call is decided, then seen, then carried out. -/
def use (w : World) (u : Use) : Outcome (Except AccessError Answer) :=
  (w.decide u.value u.call).next fun w _ =>
    let (w, events) := w.seen u
    let o := w.performed u.value u.call
    { o with events := events ++ o.events }

def notePolled (w : World) (h? : Option Handle) : World :=
  match h? with
  | some h => w.markAwaited h
  | none => w

@[simp] theorem notePolled_some (w : World) (h : Handle) :
    w.notePolled (some h) = w.markAwaited h := rfl

@[simp] theorem notePolled_none (w : World) : w.notePolled none = w := rfl

end World

namespace Session

/-- The call that a step makes. One on a handle that waits is none. -/
def use? (s : Session) : Step → Option Use
  | .callHandle name call =>
    (s.handles.get? name).bind fun h => h.value?.map fun v => ⟨some h, v, call⟩
  | .callValue name call => (s.values.get? name).map fun v => ⟨none, v, call⟩
  | _ => none

def polled? (s : Session) : Step → Option Handle
  | .now name _ => s.handles.get? name
  | .poll name _ => (s.futures.get? name).map (·.handle)
  | _ => none

end Session

def Step.isHost : Step → Bool
  | .callJar .. | .callHeaders .. | .callDraft .. => true
  | _ => false

def Reply.handle? : Reply → Option Handle
  | .handle h _ => some h
  | _ => none

/-- The handle that a fetch gives. -/
def Moment.gives? (m : Moment) : Option Handle :=
  match m.step with
  | .fetch .. => m.reply.handle?
  | _ => none

namespace World

variable {w w' : World}

/-! ## What is left alone -/

theorem memoize_frame (w : World) (unit : Key .unit) (r : Resource) (key : MemoKey)
    (state : HandleState) (guard? : Option Guard) :
    (w.memoize unit r key state guard?).1 =
      { w with units := (w.memoize unit r key state guard?).1.units } := by
  unfold memoize
  cases hk : (w.units.get unit).handles.get? (r, key) <;> simp [hk]

theorem Given.frame {b : Binding} {r : Resource} {h : Handle} (hg : w.Given b r h w') :
    w' = { w with works := w'.works, units := w'.units } := by
  cases hg with
  | blank hf => rfl
  | live q hf hv hp =>
    subst hp
    rw [memoize_frame]
    rfl
  | untracked state hf hv hk hs hp =>
    subst hp
    rw [memoize_frame]

theorem decideIn_ok {b : Binding} {expression : String}
    (hr : (w.decideIn b expression).result = .ok ()) :
    (w.decideIn b expression).world = w.markDynamic b.unit ∧
      (w.units.get b.unit).variant.phase = .request ∧
      (w.works.get b.work).dynamicShouldError = false := by
  have hstatic {o : Outcome (Except AccessError Unit)}
      (ho : (w.unlessStatic b.work expression o).result = .ok ()) :
      w.unlessStatic b.work expression o = o ∧ o.result = .ok () ∧
        (w.works.get b.work).dynamicShouldError = false := by
    have heq := unlessStatic_ok ho
    refine ⟨heq, heq ▸ ho, ?_⟩
    cases hd : (w.works.get b.work).dynamicShouldError with
    | false => rfl
    | true => simp [unlessStatic, hd] at ho
  unfold decideIn at hr ⊢
  cases hv : (w.units.get b.unit).variant with
  | cache _ | privateCache _ _ _ | unstableCache => simp [hv, refuseInCache] at hr
  | request q =>
    simp only [hv] at hr ⊢
    obtain ⟨heq, -, hd⟩ := hstatic hr
    rw [heq]
    exact ⟨rfl, rfl, hd⟩
  | prerenderPartial log =>
    simp only [hv] at hr
    have ho := (hstatic hr).2.1
    unfold postpone at ho
    split at ho <;> cases ho
  | prerender p | prerenderRuntime p | prerenderClient p | prerenderLegacy p =>
    simp only [hv] at hr
    cases (hstatic hr).2.1

/-- Switching is let through under a force-static work, and for a live request whose use is then
noted. The scope must still be there, and the response must not have been sent. -/
theorem decideSwitch_ok {b : Binding} {expression : String}
    (hr : (w.decideSwitch b expression).result = .ok ()) :
    ((w.works.get b.work).alive = true ∧ (w.units.get b.unit).alive = true ∧
      (w.units.get b.unit).variant.isAfter = false) ∧
      ((w.works.get b.work).forceStatic = true ∧ (w.decideSwitch b expression).world = w ∨
        (w.works.get b.work).forceStatic = false ∧
          (w.decideSwitch b expression).world = w.markDynamic b.unit ∧
          (w.units.get b.unit).variant.phase = .request ∧
          (w.works.get b.work).dynamicShouldError = false) := by
  revert hr
  simp only [decideSwitch]
  split
  · intro hr
    cases hr
  rename_i halive
  split
  · intro hr
    cases hr
  rename_i hafter
  have hopen : (w.works.get b.work).alive = true ∧ (w.units.get b.unit).alive = true ∧
      (w.units.get b.unit).variant.isAfter = false := by
    simp_all
  split
  · rename_i hf
    exact fun _ => ⟨hopen, .inl ⟨hf, rfl⟩⟩
  · rename_i hf
    exact fun hr => ⟨hopen, .inr ⟨Bool.eq_false_iff.mpr hf, decideIn_ok hr⟩⟩

theorem decide_frame {v : Value} {call : Call} (hr : (w.decide v call).result = .ok ()) :
    (w.decide v call).world = { w with units := (w.decide v call).world.units } := by
  cases ha : v.attempt? call with
  | none => rw [decide_of_no_attempt ha]
  | some a =>
    rw [(decide_of_attempt ha).1] at hr ⊢
    obtain ⟨-, ⟨-, hw⟩ | ⟨-, hw, -⟩⟩ := decideSwitch_ok hr
    · rw [hw]
    · rw [hw]
      rfl

theorem escalate_frame (w : World) (unit : Key .unit) :
    (w.escalate unit).1 = { w with units := (w.escalate unit).1.units } := by
  simp only [escalate]
  split
  · split <;> rfl
  · rfl

theorem units_escalate (w : World) (unit k : Key .unit) :
    (w.escalate unit).1.units.get k =
      if k = unit then
        { w.units.get unit with
          variant := (w.units.get unit).variant.mapRequest fun q =>
            { q with dryRun := q.dryRun.escalate.1 } }
      else w.units.get k := by
  have same {v : Variant} (hv : v = (w.units.get unit).variant) :
      w.units.get k =
        if k = unit then { w.units.get unit with variant := v } else w.units.get k := by
    subst hv
    split
    · rename_i hk
      rw [hk]
    · rfl
  simp only [escalate]
  cases hv : (w.units.get unit).variant with
  | request q =>
    simp only [Variant.mapRequest]
    cases hd : q.dryRun with
    | active => simp [DryRun.escalate]
    | inactive | escalated =>
      simp only [DryRun.escalate, Bool.false_eq_true, ↓reduceIte]
      rw [← hd]
      exact same hv.symm
  | _ => exact same hv.symm

theorem tell_frame (w : World) (g : Guard) (expression api : String) :
    (w.tell g expression api).1 =
      { w with
        units := (w.tell g expression api).1.units
        reporters := (w.tell g expression api).1.reporters } := by
  simp only [tell]
  rw [escalate_frame]

theorem seen_frame (w : World) (u : Use) :
    (w.seen u).1 =
      { w with units := (w.seen u).1.units, reporters := (w.seen u).1.reporters } := by
  unfold seen observe
  split
  · split
    · split
      · rfl
      · exact w.tell_frame ..
    · rfl
  · rfl

theorem switchDraft_frame (w : World) (key : Key .draft) (on : Bool) :
    w.switchDraft key on =
      { w with
        jars := (w.switchDraft key on).jars
        drafts := (w.switchDraft key on).drafts } := by
  unfold switchDraft
  split <;> rfl

theorem callJar_frame (w : World) (source : Source .jar) (call : CookieCall) :
    (w.callJar source call).1 = { w with jars := (w.callJar source call).1.jars } := by
  unfold callJar
  split <;> rfl

theorem callHeaders_frame (w : World) (source : Source .headers) (call : HeaderCall) :
    (w.callHeaders source call).1 =
      { w with headers := (w.callHeaders source call).1.headers } := by
  unfold callHeaders
  split <;> rfl

theorem callDraft_frame (w : World) (source : Source .draft) (call : DraftCall) :
    (w.callDraft source call).1 =
      { w with
        jars := (w.callDraft source call).1.jars
        drafts := (w.callDraft source call).1.drafts } := by
  unfold callDraft
  split
  · rfl
  · exact w.switchDraft_frame _ true
  · exact w.switchDraft_frame _ false
  · rfl
  · rfl

theorem perform_frame (w : World) (v : Value) (call : Call) :
    (w.perform v call).1 =
      { w with
        jars := (w.perform v call).1.jars
        headers := (w.perform v call).1.headers
        drafts := (w.perform v call).1.drafts } := by
  unfold perform
  split
  · rw [callJar_frame]
  · rw [callHeaders_frame]
  · rename_i source b call
    change (w.callDraft source call).1 =
      { w with
        jars := (w.callDraft source call).1.jars
        headers := (w.callDraft source call).1.headers
        drafts := (w.callDraft source call).1.drafts }
    rw [callDraft_frame]
  · rfl

/-! ## Calls -/

theorem use_ok {u : Use} (hd : (w.decide u.value u.call).result = .ok ()) :
    (w.use u).world = ((((w.decide u.value u.call).world.seen u).1).perform u.value u.call).1 ∧
      (w.use u).result =
        (((((w.decide u.value u.call).world.seen u).1).perform u.value u.call).2).mapError
          .store := by
  unfold use
  rw [next_ok hd]
  exact ⟨rfl, rfl⟩

theorem use_frame {u : Use} (hd : (w.decide u.value u.call).result = .ok ()) :
    (w.use u).world =
      { w with
        jars := (w.use u).world.jars
        headers := (w.use u).world.headers
        drafts := (w.use u).world.drafts
        units := (w.use u).world.units
        reporters := (w.use u).world.reporters } := by
  rw [(use_ok hd).1, perform_frame, seen_frame, decide_frame hd]

/-- A change that listens to signals and fires none. -/
structure Listens (w w' : World) : Prop where
  frame : w' = { w with signals := w'.signals }
  aborted (key : Key .signal) : (w'.signals.get key).aborted = (w.signals.get key).aborted

namespace Listens

theorem refl (w : World) : w.Listens w := ⟨rfl, fun _ => rfl⟩

theorem trans {w'' : World} (h : w.Listens w') (h' : w'.Listens w'') : w.Listens w'' where
  frame := by rw [h'.frame, h.frame]
  aborted key := (h'.aborted key).trans (h.aborted key)

end Listens

theorem listens_set_signal (w : World) (key : Key .signal) {signal : Signal}
    (h : signal.aborted = (w.signals.get key).aborted) :
    w.Listens { w with signals := w.signals.set key signal } where
  frame := rfl
  aborted := Table.forall_set
    (P := fun j (new : Signal) => new.aborted = (w.signals.get j).aborted) h fun _ => rfl

theorem aborted_poll (s : Signal) (listener : Nat) (waker : Waker) :
    (s.poll listener waker).1.aborted = s.aborted ∧ (s.poll listener waker).2 = s.aborted := by
  unfold Signal.poll
  cases h : s.aborted <;> simp [h]

theorem poll_listens (w : World) (f : Future) :
    (w.markAwaited f.handle).Listens (w.poll f).1 := by
  unfold poll
  cases f.handle.state with
  | resolved v => exact .refl _
  | pending r key route =>
    refine listens_set_signal _ key ?_
    cases f.listener with
    | some listener => exact (aborted_poll ..).1
    | none => exact (aborted_poll ..).1

theorem dropFuture_listens (w : World) (f : Future) : w.Listens (w.dropFuture f) := by
  unfold dropFuture
  split
  · exact w.listens_set_signal _ rfl
  · exact .refl w

theorem pollHanging_listens (w : World) (x : Hanging) (waker : Waker) :
    w.Listens (w.pollHanging x waker).1 :=
  w.listens_set_signal x.signal (aborted_poll ..).1

theorem pollHanging_answer (w : World) (x : Hanging) (waker : Waker) :
    (w.pollHanging x waker).2 =
      if (w.signals.get x.signal).aborted then
        some (.hangingPromiseRejection x.route x.resource.quotedCall)
      else none := by
  simp only [pollHanging, aborted_poll]
  rfl

theorem markAwaited_frame (w : World) (h : Handle) :
    w.markAwaited h = { w with awaited := (w.markAwaited h).awaited } := by
  unfold markAwaited
  split <;> rfl

theorem notePolled_frame (w : World) (h? : Option Handle) :
    w.notePolled h? = { w with awaited := (w.notePolled h?).awaited } := by
  cases h? with
  | none => rfl
  | some h => exact w.markAwaited_frame h

end World

/-! ## Steps -/

namespace Session

/-- What a step does. -/
inductive Effect (s : Session) (step : Step) : Prop where
  | refused (a : Attempt) (e : AccessError) (events : List Event) (w : World)
      (ha : s.attempt? step = some a) (hr : s.world.Refused a e events w)
      (h : s.step step = { session := { s with world := w }, events, reply := .failed e })
  | given (b : Binding) (r : Resource) (h : Handle) (ha : s.attempt? step = some (.ofFetch b r))
      (hg : s.world.Given b r h (s.step step).session.world)
      (hm : Moment.gives? ⟨s, step⟩ = some h)
  | used (u : Use) (hu : s.use? step = some u)
      (hd : (s.world.decide u.value u.call).result = .ok ())
      (h : s.step step = s.answered (s.world.use u))
  /-- A future is made, polled or dropped, or only names change. -/
  | listened (h : (s.world.notePolled (s.polled? step)).Listens (s.step step).session.world)
  | aborted (key : Key .signal) (h : step = .abort key)
  | workDropped (key : Key .work) (h : step = .dropWork key)
  | unitDropped (key : Key .unit) (h : step = .dropUnit key)
  /-- The host uses its own stores. -/
  | hostJar (key : Key .jar) (call : CookieCall) (h : step = .callJar key call)
  | hostHeaders (key : Key .headers) (call : HeaderCall) (h : step = .callHeaders key call)
  | hostDraft (key : Key .draft) (call : DraftCall) (h : step = .callDraft key call)

variable {s : Session} {step : Step}

theorem effect_of_world (hw : (s.step step).session.world = s.world)
    (hp : s.polled? step = none) : s.Effect step := by
  refine .listened ?_
  rw [hw, hp]
  exact .refl _

theorem use_callHandle {h : Handle} {v : Value} (hv : h.state = .resolved v) (w : World)
    (call : Call) : w.callHandle h call = w.use ⟨some h, v, call⟩ := by
  simp only [World.callHandle, hv, Call.observed_eq]
  rfl

theorem step_use {u : Use} (hu : s.use? step = some u) :
    s.step step = s.answered (s.world.use u) ∧ s.attempt? step = u.value.attempt? u.call := by
  cases step with
  | callHandle name call =>
    obtain ⟨h, hn, hv⟩ := Option.bind_eq_some_iff.mp hu
    obtain ⟨v, hvalue, rfl⟩ := Option.map_eq_some_iff.mp hv
    have hstate := Handle.state_of_value hvalue
    constructor
    · simp [Session.step, withHandle, hn, use_callHandle hstate]
    · simp [attempt?, hn, Handle.attempt?, hstate]
  | callValue name call =>
    obtain ⟨v, hn, rfl⟩ := Option.map_eq_some_iff.mp hu
    constructor
    · simp only [Session.step, hn]
      rfl
    · simp [attempt?, hn]
  | _ => cases hu

theorem effect_use {u : Use} (hu : s.use? step = some u) : s.Effect step := by
  obtain ⟨hs, ha⟩ := step_use hu
  cases hd : (s.world.decide u.value u.call).result with
  | ok x => exact .used u hu hd hs
  | error e =>
    obtain ⟨a, hattempt, hr⟩ := World.decide_refuses hd
    refine .refused a e _ _ (ha.trans hattempt) hr ?_
    rw [hs, World.use, World.next_error hd]
    rfl

theorem effect_fetch (s : Session) (r : Resource) (c : Key .coordinator)
    (work : Option (Key .work)) (unit : Option (Key .unit)) (saveAs : Option String) :
    s.Effect (.fetch r c work unit saveAs) := by
  have hf := s.fetch_fetched r c work unit saveAs
  generalize hs : s.fetch r c work unit saveAs = after at hf
  cases hf with
  | nowhere hc =>
    refine effect_of_world ?_ rfl
    rw [Session.step, hs]
  | refused scope e events w hc hr =>
    refine .refused (.ofFetch (scope.binding c) r) e events w ?_ hr hs
    simp [attempt?, hc]
  | given scope h events w hc hg =>
    refine .given (scope.binding c) r h ?_ ?_ ?_
    · simp [attempt?, hc]
    · rw [Session.step, hs]
      cases saveAs <;> exact hg
    · simp [Moment.gives?, Moment.reply, Moment.after, Session.step, hs, Reply.handle?]

theorem effect_callHandle (s : Session) (name : String) (call : Call) :
    s.Effect (.callHandle name call) := by
  cases hn : s.handles.get? name with
  | none =>
    refine effect_of_world ?_ rfl
    simp [Session.step, withHandle, hn, unknown]
  | some h =>
    cases hv : h.state with
    | pending r signal route =>
      refine effect_of_world ?_ rfl
      simp [Session.step, withHandle, hn, World.callHandle, hv, World.refuse, answered]
    | resolved v =>
      exact effect_use (u := ⟨some h, v, call⟩) (by simp [use?, hn, Handle.value?, hv])

theorem effect_callValue (s : Session) (name : String) (call : Call) :
    s.Effect (.callValue name call) := by
  cases hn : s.values.get? name with
  | none =>
    refine effect_of_world ?_ rfl
    simp [Session.step, hn, unknown]
  | some v => exact effect_use (u := ⟨none, v, call⟩) (by simp [use?, hn])

/-! ## Awaiting -/

theorem world_asked (s : Session) (saveAs : Option String)
    (result : Option (Except AccessError Value)) :
    (s.asked saveAs result).session.world = s.world := by
  unfold asked
  split
  · rfl
  · cases saveAs <;> rfl
  · rfl

theorem forget_listens (s : Session) (name : String) : s.world.Listens (s.forget name).world := by
  unfold forget
  split
  · exact s.world.dropFuture_listens _
  · exact .refl _

theorem now_listens (s : Session) (h : Handle) (saveAs : Option String) :
    (s.world.markAwaited h).Listens (s.now h saveAs).session.world := by
  unfold now
  rw [world_asked]
  exact (s.world.poll_listens { handle := h, waker := s.nextWaker }).trans
    (World.dropFuture_listens _ _)

theorem poll_listens (s : Session) (name : String) (f : Future) (saveAs : Option String) :
    (s.world.markAwaited f.handle).Listens (s.poll name f saveAs).session.world := by
  have hp := s.world.poll_listens f
  simp only [Session.poll]
  rw [world_asked]
  split
  · exact hp.trans (forget_listens { s with world := _, futures := _ } name)
  · exact hp

theorem effect_now (s : Session) (name : String) (saveAs : Option String) :
    s.Effect (.now name saveAs) := by
  refine .listened ?_
  cases hn : s.handles.get? name with
  | none => simpa [Session.step, withHandle, polled?, hn, unknown] using World.Listens.refl s.world
  | some h => simpa [Session.step, withHandle, polled?, hn] using s.now_listens h saveAs

theorem effect_poll (s : Session) (name : String) (saveAs : Option String) :
    s.Effect (.poll name saveAs) := by
  refine .listened ?_
  cases hn : s.futures.get? name with
  | none => simpa [Session.step, polled?, hn, unknown] using World.Listens.refl s.world
  | some f => simpa [Session.step, polled?, hn] using s.poll_listens name f saveAs

/-! ## Every step -/

/-- Every step follows one of the rules. -/
theorem effect (s : Session) (step : Step) : s.Effect step := by
  cases step with
  | fetch r c work unit saveAs => exact s.effect_fetch r c work unit saveAs
  | callHandle name call => exact s.effect_callHandle name call
  | callValue name call => exact s.effect_callValue name call
  | now name saveAs => exact s.effect_now name saveAs
  | poll name saveAs => exact s.effect_poll name saveAs
  | start name future =>
    refine .listened (withHandle_of (P := fun a => s.world.Listens a.session.world) ?_ (.refl _))
    exact fun h _ => s.forget_listens future
  | clone name saveAs =>
    exact effect_of_world
      (withHandle_of (P := fun a => a.session.world = s.world) (fun _ _ => rfl) rfl) rfl
  | abort key => exact .aborted key rfl
  | dropWork key => exact .workDropped key rfl
  | dropUnit key => exact .unitDropped key rfl
  | dropHandle name | dropValue name => exact effect_of_world rfl rfl
  | dropFuture name => exact .listened (s.forget_listens name)
  | callJar key call => exact .hostJar key call rfl
  | callHeaders key call => exact .hostHeaders key call rfl
  | callDraft key call => exact .hostDraft key call rfl

/-! ## Frames -/

theorem listened_frame
    (h : (s.world.notePolled (s.polled? step)).Listens (s.step step).session.world) :
    (s.step step).session.world =
      { s.world with
        signals := (s.step step).session.world.signals
        awaited := (s.step step).session.world.awaited } := by
  rw [h.frame, World.notePolled_frame]

theorem host_frame (hh : step.isHost = true) :
    (s.step step).session.world =
      { s.world with
        jars := (s.step step).session.world.jars
        headers := (s.step step).session.world.headers
        drafts := (s.step step).session.world.drafts } := by
  cases step with
  | callJar key call =>
    change (s.world.callJar (.shared key) call).1 =
      { s.world with
        jars := (s.world.callJar (.shared key) call).1.jars
        headers := (s.world.callJar (.shared key) call).1.headers
        drafts := (s.world.callJar (.shared key) call).1.drafts }
    rw [World.callJar_frame]
  | callHeaders key call =>
    change (s.world.callHeaders (.shared key) call).1 =
      { s.world with
        jars := (s.world.callHeaders (.shared key) call).1.jars
        headers := (s.world.callHeaders (.shared key) call).1.headers
        drafts := (s.world.callHeaders (.shared key) call).1.drafts }
    rw [World.callHeaders_frame]
  | callDraft key call =>
    change (s.world.callDraft (.shared key) call).1 =
      { s.world with
        jars := (s.world.callDraft (.shared key) call).1.jars
        headers := (s.world.callDraft (.shared key) call).1.headers
        drafts := (s.world.callDraft (.shared key) call).1.drafts }
    rw [World.callDraft_frame]
  | _ => cases hh

end Session

namespace World

theorem keeps_use {w : World} {u : Use} (hd : (w.decide u.value u.call).result = .ok ()) :
    w.Keeps (w.use u).world := by
  have hs : (w.decide u.value u.call).world.Keeps ((w.decide u.value u.call).world.seen u).1 := by
    unfold seen
    split
    · exact keeps_observe _ _ _
    · exact .refl _
  rw [(use_ok hd).1]
  exact (keeps_decide hd).trans (hs.trans (keeps_perform _ _ _))

theorem keeps_notePolled (w : World) (h? : Option Handle) : w.Keeps (w.notePolled h?) := by
  rw [notePolled_frame]
  exact .beside rfl rfl rfl

theorem Listens.keeps {w w' : World} (h : w.Listens w') : w.Keeps w' := by
  rw [h.frame]
  exact .beside rfl rfl rfl

end World

theorem Session.step_evolves (s : Session) (step : Step) :
    s.world.Evolves (s.step step).session.world := by
  cases s.effect step with
  | refused a e events w ha hr h =>
    rw [h]
    exact hr.evolves
  | given b r h ha hg hm => exact hg.evolves
  | used u hu hd h =>
    rw [h]
    exact (World.keeps_use hd).evolves
  | listened h => exact ((s.world.keeps_notePolled _).trans h.keeps).evolves
  | aborted key h =>
    subst h
    exact (s.world.keeps_abortSignal key).evolves
  | workDropped key h =>
    subst h
    exact s.world.evolves_dropWork key
  | unitDropped key h =>
    subst h
    exact s.world.evolves_dropUnit key
  | hostJar key call h | hostHeaders key call h | hostDraft key call h =>
    subst h
    rw [host_frame rfl]
    exact World.Keeps.evolves (.beside rfl rfl rfl)

end RequestAccess
