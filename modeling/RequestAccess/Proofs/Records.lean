import RequestAccess.Proofs.Deferral
import RequestAccess.Proofs.Latch

/-!
# What is written down

A prerender that is given up is written down: in a tracking log, or with its work and its page. It
is written down where an attempt is refused, and by no other step.
-/

namespace RequestAccess

/-! ## Errors that are written down -/

def AccessError.isRecorded : AccessError → Bool
  | .postponed _ | .prerenderInterrupted .. | .dynamicServer .. => true
  | _ => false

/-- The period of the page that static generation makes. -/
def Variant.period? : Variant → Option (Option UInt64)
  | .prerenderLegacy period => some period
  | _ => none

/-- Nothing was written down. -/
structure World.SameRecords (w w' : World) : Prop where
  logs : w'.logs = w.logs
  usage (k : Key .work) : (w'.works.get k).dynamicUsage = (w.works.get k).dynamicUsage
  period (k : Key .unit) :
    (w'.units.get k).variant.period? = (w.units.get k).variant.period?

@[simp] theorem Variant.period?_mapRequest (v : Variant) (f : LiveRequest → LiveRequest) :
    (v.mapRequest f).period? = v.period? := by
  cases v <;> rfl

namespace World

variable {w w' w'' : World}

namespace SameRecords

theorem beside (hl : w'.logs = w.logs) (hw : w'.works = w.works) (hu : w'.units = w.units) :
    w.SameRecords w' :=
  ⟨hl, fun _ => hw ▸ rfl, fun _ => hu ▸ rfl⟩

theorem refl (w : World) : w.SameRecords w := beside rfl rfl rfl

theorem trans (h : w.SameRecords w') (h' : w'.SameRecords w'') : w.SameRecords w'' where
  logs := h'.logs.trans h.logs
  usage k := (h'.usage k).trans (h.usage k)
  period k := (h'.period k).trans (h.period k)

end SameRecords

theorem sameRecords_set_work (w : World) (k : Key .work) {work : Work}
    (h : work.dynamicUsage = (w.works.get k).dynamicUsage) :
    w.SameRecords { w with works := w.works.set k work } where
  logs := rfl
  usage := Table.forall_set
    (P := fun j (new : Work) => new.dynamicUsage = (w.works.get j).dynamicUsage) h fun _ => rfl
  period _ := rfl

theorem sameRecords_set_unit (w : World) (k : Key .unit) {u : WorkUnit}
    (h : u.variant.period? = (w.units.get k).variant.period?) :
    w.SameRecords { w with units := w.units.set k u } where
  logs := rfl
  usage _ := rfl
  period := Table.forall_set
    (P := fun j (new : WorkUnit) => new.variant.period? = (w.units.get j).variant.period?) h
    fun _ => rfl

/-! ## Every operation -/

theorem sameRecords_markDynamic (w : World) (k : Key .unit) : w.SameRecords (w.markDynamic k) :=
  w.sameRecords_set_unit k (Variant.period?_mapRequest _ _)

theorem memoize_variant (w : World) (unit k : Key .unit) (r : Resource) (key : MemoKey)
    (state : HandleState) (guard? : Option Guard) :
    ((w.memoize unit r key state guard?).1.units.get k).variant = (w.units.get k).variant := by
  unfold memoize
  cases hk : (w.units.get unit).handles.get? (r, key) with
  | some h => simp only [hk]
  | none =>
    simp only [hk, Table.get_set]
    split
    · rename_i same
      rw [same]
    · rfl

theorem sameRecords_memoize (w : World) (unit : Key .unit) (r : Resource) (key : MemoKey)
    (state : HandleState) (guard? : Option Guard) :
    w.SameRecords (w.memoize unit r key state guard?).1 := by
  have hv (k : Key .unit) := w.memoize_variant unit k r key state guard?
  rw [memoize_frame]
  exact ⟨rfl, fun _ => rfl, fun k => congrArg Variant.period? (hv k)⟩

theorem Given.sameRecords {b : Binding} {r : Resource} {h : Handle} (hg : w.Given b r h w') :
    w.SameRecords w' := by
  cases hg with
  | blank hf => exact w.sameRecords_set_work b.work rfl
  | live q hf hv hp =>
    subst hp
    exact (w.sameRecords_markDynamic b.unit).trans (sameRecords_memoize _ _ _ _ _ _)
  | untracked state hf hv hk hs hp =>
    subst hp
    exact sameRecords_memoize _ _ _ _ _ _

theorem sameRecords_decide {v : Value} {call : Call} (hd : (w.decide v call).result = .ok ()) :
    w.SameRecords (w.decide v call).world := by
  cases ha : v.attempt? call with
  | none =>
    rw [decide_of_no_attempt ha]
    exact .refl w
  | some a =>
    rw [(decide_of_attempt ha).1] at hd ⊢
    obtain ⟨-, ⟨-, hw⟩ | ⟨-, hw, -⟩⟩ := decideSwitch_ok hd
    · rw [hw]
      exact .refl w
    · rw [hw]
      exact w.sameRecords_markDynamic _

theorem sameRecords_seen (w : World) (u : Use) : w.SameRecords (w.seen u).1 := by
  have hp (g : Guard) (k : Key .unit) :
      ((w.escalate g.unit).1.units.get k).variant.period? =
        (w.units.get k).variant.period? := by
    rw [units_escalate]
    split
    · rename_i hk
      rw [hk]
      exact Variant.period?_mapRequest _ _
    · rfl
  unfold seen observe
  split
  · split
    · split
      · exact .refl w
      · rename_i g _ _
        rw [tell_frame]
        exact ⟨rfl, fun _ => rfl, hp g⟩
    · exact .refl w
  · exact .refl w

theorem sameRecords_use {u : Use} (hd : (w.decide u.value u.call).result = .ok ()) :
    w.SameRecords (w.use u).world := by
  rw [(use_ok hd).1, perform_frame]
  exact (sameRecords_decide hd).trans ((sameRecords_seen _ u).trans (.beside rfl rfl rfl))

theorem Refused.sameRecords {a : Attempt} {e : AccessError} {events : List Event}
    (hr : w.Refused a e events w') (he : e.isRecorded = false) : w.SameRecords w' := by
  cases hr with
  | missingStore | afterNotSupported _ | staticBailout _ | inClientComponent _ _ _
  | latched _ _ _ _ => exact .refl w
  | latching scope _ _ => exact w.sameRecords_set_work a.work rfl
  | postponed _ _ _ | postponedByHost _ _ _ _ | dynamicServer _ _ | interrupted _ _ => cases he

/-- The units on which an attempt can end in an error that is written down. -/
inductive Refused.On (v : Variant) (e : AccessError) : Prop where
  | postponing (log : Key .log) (hv : v = .prerenderPartial log)
  | legacy (period : Option UInt64) (hv : v = .prerenderLegacy period)
  | dryRun (p : Prerender) (route expression : String) (hv : v.deferring? = some p)
      (he : e = .prerenderInterrupted route expression)

theorem Refused.on {a : Attempt} {e : AccessError} {events : List Event}
    (hr : w.Refused a e events w') (he : e.isRecorded = true) :
    Refused.On (w.unitOf a).variant e := by
  cases hr with
  | postponed log hv _ | postponedByHost log _ hv _ => exact .postponing log hv
  | dynamicServer period hv => exact .legacy period hv
  | interrupted p hv => exact .dryRun p _ _ hv rfl
  | _ => cases he

/-! ## Where nothing is written down -/

theorem unlessStatic_error {α : Type} {k : Key .work} {expression : String}
    {o : Outcome (Except AccessError α)} {x : α} {e : AccessError} (ho : o.result = .ok x)
    (he : (w.unlessStatic k expression o).result = .error e) : e.isRecorded = false := by
  simp only [unlessStatic] at he
  split at he
  · cases he
    rfl
  · cases ho.symm.trans he

theorem refuseInCache_error {α : Type} {k : Key .work} {use : CacheUse} {expression : String}
    {scope : CacheScope} {e : AccessError}
    (he : (w.refuseInCache k use expression scope : Outcome (Except AccessError α)).result =
      .error e) : e.isRecorded = false := by
  cases he
  rfl

theorem giveDraft_ok (w : World) (b : Binding) (provider : Option (Key .draft)) :
    ∃ h, (w.giveDraft b provider).result = .ok h := by
  cases provider <;> exact ⟨_, rfl⟩

theorem fetchIn_draft {b : Binding} {e : AccessError}
    (he : (w.fetchIn b .draftMode).result = .error e) : e.isRecorded = false := by
  unfold fetchIn at he
  cases hv : (w.units.get b.unit).variant with
  | cache forwarded =>
    cases hd : w.draftIn b with
    | some key =>
      simp only [hv, fetchCached, hd] at he
      obtain ⟨h, hok⟩ := w.giveDraft_ok b (some key)
      cases hok.symm.trans he
    | none =>
      simp only [hv, fetchCached, hd] at he
      exact refuseInCache_error he
  | unstableCache =>
    simp only [hv] at he
    exact refuseInCache_error he
  | request q =>
    simp only [hv] at he
    exact unlessStatic_error rfl he
  | privateCache cookies headers forwarded =>
    simp only [hv] at he
    obtain ⟨h, hok⟩ := w.giveDraft_ok b (w.draftIn b)
    exact unlessStatic_error hok he
  | prerender p | prerenderRuntime p | prerenderClient p | prerenderPartial p
  | prerenderLegacy p =>
    simp only [hv] at he
    obtain ⟨h, hok⟩ := w.giveDraft_ok b none
    exact unlessStatic_error hok he

theorem fetch_draft {c : Key .coordinator} {scope : Option Scope} {e : AccessError}
    (he : (w.fetch c scope .draftMode).result = .error e) : e.isRecorded = false := by
  cases scope with
  | none =>
    cases he
    rfl
  | some scope =>
    simp only [fetch] at he
    split at he
    · cases he
    · exact fetchIn_draft he

theorem decideSwitch_static {b : Binding} {expression : String} {e : AccessError}
    (hf : (w.works.get b.work).forceStatic = true)
    (he : (w.decideSwitch b expression).result = .error e) : e.isRecorded = false := by
  simp only [decideSwitch, hf, ↓reduceIte] at he
  split at he
  · cases he
    rfl
  split at he
  · cases he
    rfl
  · cases he

end World

/-! ## Steps -/

namespace Session

variable {s : Session} {step : Step} {e : AccessError}

theorem recorded_answered {call : Call} {o : Outcome (Except AccessError Answer)}
    (h : s.step step = s.answered o) (hc : s.world.Called (s.attempt? step) call o)
    (hr : (s.step step).reply = .failed e) (he : e.isRecorded = true) :
    ∃ a, s.attempt? step = some a ∧
      s.world.Refused a e (s.step step).events (s.step step).session.world := by
  rw [h] at hr ⊢
  have ho := answered_failed hr
  cases hc with
  | refused a e' events after ha href =>
    cases ho
    exact ⟨a, ha, href⟩
  | carried v before hk hres =>
    rw [hres] at ho
    generalize (before.perform v call).2 = result at ho
    cases result <;> cases ho
    cases he
  | early route expression api ha =>
    cases ho
    cases he

theorem asked_failed {t : Session} {saveAs : Option String}
    {result : Option (Except AccessError Value)} (hr : (t.asked saveAs result).reply = .failed e) :
    result = some (.error e) := by
  unfold asked at hr
  split at hr
  · cases hr
  · cases hr
  · cases hr
    rfl

theorem not_recorded_poll {w : World} {f : Future} (hr : (w.poll f).2.2 = some (.error e)) :
    e.isRecorded = false := by
  obtain ⟨route, expression, rfl⟩ := poll_error hr
  rfl

theorem refused_of_recorded (hr : (s.step step).reply = .failed e) (he : e.isRecorded = true) :
    ∃ a, s.attempt? step = some a ∧
      s.world.Refused a e (s.step step).events (s.step step).session.world := by
  cases step with
  | fetch r c work unit saveAs =>
    cases fetch_refused hr with
    | nowhere expression ha hm h =>
      subst hm
      cases he
    | attempt a events w ha href h =>
      rw [h]
      exact ⟨a, ha, href⟩
  | callHandle name call =>
    cases hn : s.handles.get? name with
    | none => simp [Session.step, withHandle, hn, unknown] at hr
    | some h =>
      obtain ⟨hstep, hc⟩ := step_callHandle call hn
      exact recorded_answered hstep hc hr he
  | callValue name call =>
    cases hn : s.values.get? name with
    | none => simp [Session.step, hn, unknown] at hr
    | some v =>
      obtain ⟨hstep, hc⟩ := step_callValue call hn
      exact recorded_answered hstep hc hr he
  | now name saveAs =>
    cases hn : s.handles.get? name with
    | none => simp [Session.step, withHandle, hn, unknown] at hr
    | some h =>
      simp only [Session.step, withHandle, hn] at hr
      have hp := not_recorded_poll (asked_failed hr)
      rw [hp] at he
      cases he
  | poll name saveAs =>
    cases hn : s.futures.get? name with
    | none => simp [Session.step, hn, unknown] at hr
    | some f =>
      simp only [Session.step, hn] at hr
      have hp := not_recorded_poll (asked_failed hr)
      rw [hp] at he
      cases he
  | start name future | clone name saveAs =>
    simp only [Session.step, withHandle] at hr
    split at hr <;> cases hr
  | callJar key call | callHeaders key call =>
    simp only [Session.step, stored] at hr
    split at hr <;> cases hr
  | _ => cases hr

theorem step_fetch_failed {r : Resource} {c : Key .coordinator} {work : Option (Key .work)}
    {unit : Option (Key .unit)} {saveAs : Option String}
    (hr : (s.step (.fetch r c work unit saveAs)).reply = .failed e) :
    (s.world.fetch c (s.world.scope? work unit) r).result = .error e := by
  simp only [Session.step, fetch] at hr
  split at hr
  · cases hr
  · rename_i e' he
    cases hr
    exact he

theorem not_recorded_of_static {a : Attempt} (ha : s.attempt? step = some a)
    (hf : (s.world.workOf a).forceStatic = true) (hr : (s.step step).reply = .failed e) :
    e.isRecorded = false := by
  rcases attempt_cases ha with ⟨r, c, work, unit, saveAs, scope, rfl, hscope, rfl⟩ | ⟨⟨call, hu⟩, -⟩
  · -- Under a force-static work every fetch ends in a blank handle.
    have he := step_fetch_failed hr
    have hblank : s.world.fetch c (some scope) r = s.world.giveBlank (scope.binding c) r :=
      if_pos hf
    rw [hscope, hblank] at he
    cases he
  · obtain ⟨u, huse⟩ : ∃ u, s.use? step = some u := by
      unfold draftUse? at hu
      split at hu
      · rename_i huse
        exact ⟨_, huse⟩
      · cases hu
    obtain ⟨hstep, hattempt⟩ := step_use huse
    rw [hstep] at hr
    have ho := answered_failed hr
    cases hd : (s.world.decide u.value u.call).result with
    | error e' =>
      rw [World.use, World.next_error hd] at ho
      cases ho
      rw [(World.decide_of_attempt (hattempt.symm.trans ha)).1] at hd
      exact World.decideSwitch_static hf hd
    | ok x =>
      rw [(World.use_ok hd).2] at ho
      generalize (World.perform _ u.value u.call).2 = result at ho
      cases result <;> cases ho
      rfl

theorem not_recorded_of_draftFetch {c : Key .coordinator} {work : Option (Key .work)}
    {unit : Option (Key .unit)} {saveAs : Option String}
    (hr : (s.step (.fetch .draftMode c work unit saveAs)).reply = .failed e) :
    e.isRecorded = false :=
  World.fetch_draft (step_fetch_failed hr)

theorem not_recorded_of_client {a : Attempt} {p : Prerender} (ha : s.attempt? step = some a)
    (hv : (s.world.unitOf a).variant = .prerenderClient p)
    (hr : (s.step step).reply = .failed e) : e.isRecorded = false := by
  refine Bool.eq_false_iff.mpr fun he => ?_
  obtain ⟨a', ha', href⟩ := refused_of_recorded hr he
  cases ha.symm.trans ha'
  have hon := href.on he
  rw [hv] at hon
  cases hon with
  | postponing _ h | legacy _ h | dryRun _ _ _ h => cases h

theorem not_recorded_of_deferred {b : Binding} {r : Resource} {p : Prerender}
    (h : Moment.Defers ⟨s, step⟩ b r p) (hr : (s.step step).reply = .failed e) :
    e.isRecorded = false := by
  refine Bool.eq_false_iff.mpr fun he => ?_
  obtain ⟨a, ha, href⟩ := refused_of_recorded hr he
  cases h.attempt.symm.trans ha
  have hd : (s.world.unitOf (.ofFetch b r)).variant.deferring? = some p := h.unit
  cases href.on he with
  | postponing _ hv | legacy _ hv =>
    rw [hv] at hd
    cases hd
  | dryRun _ _ _ _ hinterrupted =>
    subst hinterrupted
    rcases attempt_cases ha with ⟨r', c, work, unit, saveAs, scope, rfl, -, -⟩ | ⟨-, hu⟩
    · exact World.fetch_interrupts_nothing (step_fetch_failed hr)
    · cases hu

theorem attempt_of_draftRead {b : Binding} (hu : s.draftUse? step = some (b, .isEnabled)) :
    s.attempt? step = none := by
  unfold draftUse? at hu
  split at hu
  · rename_i through source b' call huse
    cases hu
    exact (step_use huse).2
  · cases hu

/-- What a step writes down: an attempt that is refused and recorded, or nothing. -/
inductive Writes (s : Session) (step : Step) : Prop where
  | recorded (a : Attempt) (e : AccessError) (ha : s.attempt? step = some a)
      (he : e.isRecorded = true) (hr : (s.step step).reply = .failed e)
      (h : s.world.Refused a e (s.step step).events (s.step step).session.world)
  | nothing (he : ∀ e, (s.step step).reply = .failed e → e.isRecorded = false)
      (h : s.world.SameRecords (s.step step).session.world)

theorem sameRecords_step (s : Session) (step : Step)
    (he : ∀ e, (s.step step).reply = .failed e → e.isRecorded = false) :
    s.world.SameRecords (s.step step).session.world := by
  cases s.effect step with
  | refused a e events w ha hr h =>
    have hn := he e (h ▸ rfl)
    rw [h]
    exact hr.sameRecords hn
  | given b r h ha hg hm => exact hg.sameRecords
  | used u hu hd h =>
    rw [h]
    exact World.sameRecords_use hd
  | listened h =>
    rw [listened_frame h]
    exact .beside rfl rfl rfl
  | aborted key h =>
    subst h
    exact .beside rfl rfl rfl
  | workDropped key h =>
    subst h
    exact s.world.sameRecords_set_work key rfl
  | unitDropped key h =>
    subst h
    exact s.world.sameRecords_set_unit key rfl
  | hostJar key call h | hostHeaders key call h | hostDraft key call h =>
    subst h
    rw [host_frame rfl]
    exact .beside rfl rfl rfl

theorem writes (s : Session) (step : Step) : s.Writes step := by
  by_cases h : ∃ e, (s.step step).reply = .failed e ∧ e.isRecorded = true
  · obtain ⟨e, hr, he⟩ := h
    obtain ⟨a, ha, href⟩ := refused_of_recorded hr he
    exact .recorded a e ha he hr href
  · have hn (e : AccessError) (hr : (s.step step).reply = .failed e) : e.isRecorded = false :=
      Bool.eq_false_iff.mpr fun he => h ⟨e, hr, he⟩
    exact .nothing hn (s.sameRecords_step step hn)

end Session

end RequestAccess
