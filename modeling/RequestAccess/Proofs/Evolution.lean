import RequestAccess.Proofs.Refusal

/-!
# How a world changes

A work and a unit keep what they were made with. A unit keeps the handles that it remembers, and
what it newly remembers under a key fits the key.
-/

namespace RequestAccess

/-! ## As made -/

namespace Variant

@[simp] theorem phase_asMade (v : Variant) : v.asMade.phase = v.phase := by cases v <;> rfl

@[simp] theorem deferring?_asMade (v : Variant) : v.asMade.deferring? = v.deferring? := by
  cases v <;> rfl

@[simp] theorem asMade_mark (v : Variant) :
    (v.mapRequest fun r => { r with usedDynamic := true }).asMade = v.asMade := by
  cases v <;> rfl

end Variant

/-! ## What is remembered -/

/-- A state that fits a key of a unit. Only a handle that waits is kept under the unit itself, and
draft mode never waits. -/
inductive HandleState.Under (v : Variant) (unit : Key .unit) :
    Resource → MemoKey → HandleState → Prop where
  | waiting {r : Resource} (p : Prerender) (route : String) (hr : r ≠ .draftMode)
      (hp : v.deferring? = some p) : Under v unit r .unit (.pending r p.signal route)
  | cookies (jar : Key .jar) :
    Under v unit .cookies (.source jar.index) (.resolved (.cookies (.shared jar)))
  | headers (key : Key .headers) :
    Under v unit .headers (.source key.index) (.resolved (.headers (.shared key)))
  | draft (key : Key .draft) (b : Binding) (hb : b.unit = unit) :
    Under v unit .draftMode (.source key.index) (.resolved (.draft (.shared key) b))
  | noDraft (b : Binding) (hb : b.unit = unit) :
    Under v unit .draftMode .absent (.resolved (.draft .blank b))

/-- A handle that a unit may remember under a key. Only live requests guard handles. -/
structure Handle.Remembered (v : Variant) (unit : Key .unit) (r : Resource) (key : MemoKey)
    (h : Handle) : Prop where
  id : ∃ serial, h.id = .made unit serial
  state : h.state.Under v unit r key
  guard (g : Guard) (hg : h.guard? = some g) : v.phase = .request ∧ g.unit = unit

theorem HandleState.Under.of_asMade {v v' : Variant} {unit : Key .unit} {r : Resource}
    {key : MemoKey} {state : HandleState} (hv : v'.asMade = v.asMade)
    (hs : state.Under v unit r key) : state.Under v' unit r key := by
  cases hs with
  | waiting p route hr hp =>
    refine .waiting p route hr ?_
    rw [← v'.deferring?_asMade, hv, v.deferring?_asMade]
    exact hp
  | cookies jar => exact .cookies jar
  | headers k => exact .headers k
  | draft k b hb => exact .draft k b hb
  | noDraft b hb => exact .noDraft b hb

theorem Handle.Remembered.of_asMade {v v' : Variant} {unit : Key .unit} {r : Resource}
    {key : MemoKey} {h : Handle} (hv : v'.asMade = v.asMade) (hr : h.Remembered v unit r key) :
    h.Remembered v' unit r key where
  id := hr.id
  state := hr.state.of_asMade hv
  guard g hg := by
    rw [← v'.phase_asMade, hv, v.phase_asMade]
    exact hr.guard g hg

theorem Handle.Remembered.resource {v : Variant} {unit : Key .unit} {r : Resource} {key : MemoKey}
    {h : Handle} (hr : h.Remembered v unit r key) : h.resource = r := by
  have hstate := hr.state
  unfold Handle.resource
  generalize h.state = state at hstate
  cases hstate <;> rfl

/-! ## Works and units -/

/-- What a work becomes. Its count of handles that nothing remembers only grows. -/
structure Work.Evolves (work work' : Work) : Prop where
  made : work'.asMade = work.asMade
  detached : work.detached ≤ work'.detached

/-- The handles of a unit have their places in its memory as numbers. -/
def WorkUnit.Numbered (k : Key .unit) (u : WorkUnit) : Prop :=
  ∀ (n : Nat) (e : (Resource × MemoKey) × Handle), u.handles.entries[n]? = some e →
    e.2.id = .made k n

theorem WorkUnit.Numbered.concat {k : Key .unit} {u : WorkUnit} (hn : u.Numbered k)
    (e : (Resource × MemoKey) × Handle) (he : e.2.id = .made k u.handles.size) :
    WorkUnit.Numbered k { u with handles := ⟨u.handles.entries ++ [e]⟩ } := by
  intro n e' hn'
  rcases Nat.lt_or_ge n u.handles.entries.length with hlt | hge
  · rw [List.getElem?_append_left hlt] at hn'
    exact hn n e' hn'
  · rw [List.getElem?_append_right hge, List.getElem?_singleton] at hn'
    split at hn'
    · next hlast =>
      cases hn'
      rw [he, show n = u.handles.size from Nat.le_antisymm (Nat.sub_eq_zero_iff_le.mp hlast) hge]
    · cases hn'

/-- What the unit of a key becomes. -/
structure WorkUnit.Evolves (k : Key .unit) (u u' : WorkUnit) : Prop where
  made : u'.variant.asMade = u.variant.asMade
  kept (key : Resource × MemoKey) (h : Handle) (hk : u.handles.get? key = some h) :
    u'.handles.get? key = some h
  new (r : Resource) (key : MemoKey) (h : Handle) (hk : u'.handles.get? (r, key) = some h) :
    u.handles.get? (r, key) = some h ∨ h.Remembered u.variant k r key
  numbered (hn : u.Numbered k) : u'.Numbered k

theorem Work.Evolves.refl (work : Work) : work.Evolves work := ⟨rfl, Nat.le_refl _⟩

theorem Work.Evolves.trans {a b c : Work} (h : a.Evolves b) (h' : b.Evolves c) : a.Evolves c :=
  ⟨h'.made.trans h.made, Nat.le_trans h.detached h'.detached⟩

namespace WorkUnit.Evolves

variable {k : Key .unit} {a b c : WorkUnit}

theorem of_handles (hv : b.variant.asMade = a.variant.asMade) (hh : b.handles = a.handles) :
    Evolves k a b :=
  ⟨hv, fun _ _ hk => hh ▸ hk, fun _ _ _ hk => .inl (hh ▸ hk),
    fun hn => by rwa [WorkUnit.Numbered, hh]⟩

theorem refl (u : WorkUnit) : Evolves k u u := of_handles rfl rfl

theorem trans (h : Evolves k a b) (h' : Evolves k b c) : Evolves k a c where
  made := h'.made.trans h.made
  kept key x hk := h'.kept key x (h.kept key x hk)
  new r key x hk := by
    rcases h'.new r key x hk with hb | hb
    · exact h.new r key x hb
    · exact .inr (hb.of_asMade h.made.symm)
  numbered hn := h'.numbered (h.numbered hn)

end WorkUnit.Evolves

/-! ## Worlds -/

namespace World

/-- How a render may change a world. -/
structure Evolves (w w' : World) : Prop where
  work (k : Key .work) : (w.works.get k).Evolves (w'.works.get k)
  unit (k : Key .unit) : WorkUnit.Evolves k (w.units.get k) (w'.units.get k)
  coordinators : w'.coordinators = w.coordinators

/-- A change that leaves the works and what the units remember. -/
structure Keeps (w w' : World) : Prop where
  works : w'.works = w.works
  coordinators : w'.coordinators = w.coordinators
  made (k : Key .unit) : (w'.units.get k).variant.asMade = (w.units.get k).variant.asMade
  handles (k : Key .unit) : (w'.units.get k).handles = (w.units.get k).handles

variable {w w' w'' : World}

namespace Keeps

theorem beside (hw : w'.works = w.works) (hu : w'.units = w.units)
    (hc : w'.coordinators = w.coordinators) : w.Keeps w' :=
  ⟨hw, hc, fun _ => hu ▸ rfl, fun _ => hu ▸ rfl⟩

theorem refl (w : World) : w.Keeps w := beside rfl rfl rfl

theorem trans (h : w.Keeps w') (h' : w'.Keeps w'') : w.Keeps w'' where
  works := h'.works.trans h.works
  coordinators := h'.coordinators.trans h.coordinators
  made k := (h'.made k).trans (h.made k)
  handles k := (h'.handles k).trans (h.handles k)

theorem evolves (h : w.Keeps w') : w.Evolves w' where
  work _ := h.works ▸ Work.Evolves.refl _
  unit k := .of_handles (h.made k) (h.handles k)
  coordinators := h.coordinators

end Keeps

namespace Evolves

theorem refl (w : World) : w.Evolves w := (Keeps.refl w).evolves

theorem trans (h : w.Evolves w') (h' : w'.Evolves w'') : w.Evolves w'' where
  work k := (h.work k).trans (h'.work k)
  unit k := (h.unit k).trans (h'.unit k)
  coordinators := h'.coordinators.trans h.coordinators

end Evolves

theorem evolves_set_work (w : World) (k : Key .work) {work : Work}
    (h : (w.works.get k).Evolves work) : w.Evolves { w with works := w.works.set k work } where
  work := Table.forall_set (P := fun j new => (w.works.get j).Evolves new) h fun _ => .refl _
  unit _ := .refl _
  coordinators := rfl

theorem evolves_set_unit (w : World) (k : Key .unit) {u : WorkUnit}
    (h : WorkUnit.Evolves k (w.units.get k) u) :
    w.Evolves { w with units := w.units.set k u } where
  work _ := .refl _
  unit := Table.forall_set (P := fun j new => WorkUnit.Evolves j (w.units.get j) new) h
    fun _ => .refl _
  coordinators := rfl

theorem keeps_set_variant (w : World) (k : Key .unit) {v : Variant}
    (h : v.asMade = (w.units.get k).variant.asMade) :
    w.Keeps { w with units := w.units.set k { w.units.get k with variant := v } } where
  works := rfl
  coordinators := rfl
  made := Table.forall_set
    (P := fun j (u : WorkUnit) => u.variant.asMade = (w.units.get j).variant.asMade) h fun _ => rfl
  handles := Table.forall_set
    (P := fun j (u : WorkUnit) => u.handles = (w.units.get j).handles) rfl fun _ => rfl

/-! ## Refusals -/

theorem Refused.evolves {a : Attempt} {e : AccessError} {events : List Event}
    (h : w.Refused a e events w') : w.Evolves w' := by
  cases h with
  | missingStore | afterNotSupported _ | staticBailout _ | inClientComponent _ _ _
  | latched _ _ _ _ => exact .refl w
  | latching scope _ _ => exact w.evolves_set_work a.work ⟨rfl, Nat.le_refl _⟩
  | postponed log _ _ | postponedByHost log _ _ _ => exact Keeps.evolves (.beside rfl rfl rfl)
  | dynamicServer period hv =>
    have hwork : Work.Evolves (w.workOf a) { w.workOf a with dynamicUsage := some a.expression } :=
      ⟨rfl, Nat.le_refl _⟩
    have hunit : WorkUnit.Evolves a.unit (w.unitOf a)
        { w.unitOf a with variant := .prerenderLegacy (some 0) } :=
      .of_handles (congrArg Variant.asMade hv).symm rfl
    exact (w.evolves_set_work a.work hwork).trans (evolves_set_unit _ a.unit hunit)
  | interrupted p _ => cases h : p.log <;> exact Keeps.evolves (.beside rfl rfl rfl)

/-! ## Every other operation -/

theorem evolves_dropWork (w : World) (k : Key .work) : w.Evolves (w.dropWork k) :=
  w.evolves_set_work k ⟨rfl, Nat.le_refl _⟩

theorem evolves_dropUnit (w : World) (k : Key .unit) : w.Evolves (w.dropUnit k) :=
  w.evolves_set_unit k (.of_handles rfl rfl)

theorem keeps_markDynamic (w : World) (k : Key .unit) : w.Keeps (w.markDynamic k) :=
  w.keeps_set_variant k (Variant.asMade_mark _)

theorem keeps_abortSignal (w : World) (k : Key .signal) : w.Keeps (w.abortSignal k).1 :=
  .beside rfl rfl rfl

theorem keeps_switchDraft (w : World) (key : Key .draft) (on : Bool) :
    w.Keeps (w.switchDraft key on) := by
  unfold switchDraft
  split
  · exact .refl w
  · exact .beside rfl rfl rfl
  · exact .beside rfl rfl rfl

theorem keeps_callJar (w : World) (source : Source .jar) (call : CookieCall) :
    w.Keeps (w.callJar source call).1 := by
  unfold callJar
  split
  · exact .refl w
  · exact .refl w
  · exact .beside rfl rfl rfl
  · exact .refl w

theorem keeps_callHeaders (w : World) (source : Source .headers) (call : HeaderCall) :
    w.Keeps (w.callHeaders source call).1 := by
  unfold callHeaders
  split
  · exact .refl w
  · exact .refl w
  · exact .beside rfl rfl rfl
  · exact .refl w

theorem keeps_callDraft (w : World) (source : Source .draft) (call : DraftCall) :
    w.Keeps (w.callDraft source call).1 := by
  unfold callDraft
  split
  · exact .refl w
  · exact w.keeps_switchDraft _ true
  · exact w.keeps_switchDraft _ false
  · exact .refl w
  · exact .refl w

theorem keeps_perform (w : World) (v : Value) (call : Call) : w.Keeps (w.perform v call).1 := by
  unfold perform
  split
  · exact w.keeps_callJar _ _
  · exact w.keeps_callHeaders _ _
  · exact w.keeps_callDraft _ _
  · exact .refl w

theorem keeps_escalate (w : World) (unit : Key .unit) : w.Keeps (w.escalate unit).1 := by
  simp only [escalate]
  cases hv : (w.units.get unit).variant with
  | request q =>
    dsimp only
    split
    · exact w.keeps_set_variant unit (congrArg Variant.asMade hv).symm
    · exact .refl w
  | _ => exact .refl w

theorem keeps_observe (w : World) (h : Handle) (expression : String) :
    w.Keeps (w.observe h expression).1 := by
  unfold observe
  split
  · split
    · exact .refl w
    · exact (w.keeps_escalate _).trans (.beside rfl rfl rfl)
  · exact .refl w

theorem keeps_poll (w : World) (f : Future) : w.Keeps (w.poll f).1 := by
  have hm : w.Keeps (w.markAwaited f.handle) := by
    unfold markAwaited
    split
    · exact .beside rfl rfl rfl
    · exact .refl w
  unfold poll
  cases f.handle.state with
  | resolved v => exact hm
  | pending r key route => exact hm.trans (.beside rfl rfl rfl)

theorem keeps_dropFuture (w : World) (f : Future) : w.Keeps (w.dropFuture f) := by
  unfold dropFuture
  split
  · exact .beside rfl rfl rfl
  · exact .refl w

theorem keeps_pollOnce (w : World) (h : Handle) (waker : Waker) :
    w.Keeps (w.pollOnce h waker).1 :=
  (w.keeps_poll _).trans (keeps_dropFuture _ _)

/-! ## Calls -/

theorem keeps_decideIn {b : Binding} {expression : String}
    (hr : (w.decideIn b expression).result = .ok ()) :
    w.Keeps (w.decideIn b expression).world := by
  unfold decideIn at hr ⊢
  cases hv : (w.units.get b.unit).variant with
  | cache _ | privateCache _ _ _ | unstableCache => simp [hv, refuseInCache] at hr
  | request q =>
    simp only [hv] at hr ⊢
    rw [unlessStatic_ok hr]
    exact w.keeps_markDynamic b.unit
  | prerenderPartial log =>
    simp only [hv] at hr
    have ho := unlessStatic_ok hr ▸ hr
    unfold postpone at ho
    split at ho <;> cases ho
  | prerender p | prerenderRuntime p | prerenderClient p | prerenderLegacy p =>
    simp only [hv] at hr
    cases unlessStatic_ok hr ▸ hr

theorem keeps_decideSwitch {b : Binding} {expression : String}
    (hr : (w.decideSwitch b expression).result = .ok ()) :
    w.Keeps (w.decideSwitch b expression).world := by
  revert hr
  simp only [decideSwitch]
  split
  · intro hr
    cases hr
  split
  · intro hr
    cases hr
  split
  · intro _
    exact .refl w
  · exact keeps_decideIn

theorem keeps_decide {v : Value} {call : Call} (hr : (w.decide v call).result = .ok ()) :
    w.Keeps (w.decide v call).world := by
  cases h : v.attempt? call with
  | none =>
    rw [decide_of_no_attempt h]
    exact .refl w
  | some a =>
    rw [(decide_of_attempt h).1] at hr ⊢
    exact keeps_decideSwitch hr

/-- What comes of a call: an attempt is refused, or the call is carried out, or the handle is not
ready. -/
inductive Called (w : World) (a? : Option Attempt) (call : Call) :
    Outcome (Except AccessError Answer) → Prop where
  | refused (a : Attempt) (e : AccessError) (events : List Event) (after : World) (ha : a? = some a)
      (hr : w.Refused a e events after) :
    Called w a? call { world := after, events, result := .error e }
  | carried {o : Outcome (Except AccessError Answer)} (v : Value) (before : World)
      (hk : w.Keeps o.world) (hr : o.result = (before.perform v call).2.mapError .store) :
    Called w a? call o
  | early (route expression api : String) (ha : a? = none) :
    Called w a? call (w.refuse (.syncAccessUnavailable route expression api))

theorem callValue_called (w : World) (v : Value) (call : Call) :
    w.Called (v.attempt? call) call (w.callValue v call) := by
  unfold callValue
  cases hd : (w.decide v call).result with
  | error e =>
    obtain ⟨a, ha, hr⟩ := decide_refuses hd
    rw [next_error hd]
    exact .refused a e _ _ ha hr
  | ok x =>
    rw [next_ok hd]
    exact .carried v _ ((keeps_decide hd).trans (keeps_perform _ v call)) rfl

theorem callHandle_called (w : World) (h : Handle) (call : Call) :
    w.Called (h.attempt? call) call (w.callHandle h call) := by
  unfold callHandle Handle.attempt?
  cases hs : h.state with
  | pending r signal route => exact .early route call.expression r.api rfl
  | resolved v =>
    dsimp only
    cases hd : (w.decide v call).result with
    | error e =>
      obtain ⟨a, ha, hr⟩ := decide_refuses hd
      rw [next_error hd]
      exact .refused a e _ _ ha hr
    | ok x =>
      rw [next_ok hd]
      refine .carried v _ ?_ rfl
      exact (keeps_decide hd).trans
        ((keeps_observe _ h call.observed).trans (keeps_perform _ v call))

theorem Called.evolves {a? : Option Attempt} {call : Call}
    {o : Outcome (Except AccessError Answer)} (h : w.Called a? call o) : w.Evolves o.world := by
  cases h with
  | refused a e events after ha hr => exact hr.evolves
  | carried v before hk hr => exact hk.evolves
  | early route expression api ha => exact .refl w

theorem perform_draft (w : World) (v : Value) (call : DraftCall) :
    ∃ a, (w.perform v (.draft call)).2 = .ok a := by
  cases v <;> exact ⟨_, rfl⟩

end World

namespace Session

variable {s : Session} {name : String} (call : Call)

theorem step_callHandle {h : Handle} (hn : s.handles.get? name = some h) :
    s.step (.callHandle name call) = s.answered (s.world.callHandle h call) ∧
      s.world.Called (s.attempt? (.callHandle name call)) call (s.world.callHandle h call) := by
  refine ⟨by simp [Session.step, withHandle, hn], ?_⟩
  have hc := s.world.callHandle_called h call
  simpa [attempt?, hn] using hc

theorem step_callValue {v : Value} (hn : s.values.get? name = some v) :
    s.step (.callValue name call) = s.answered (s.world.callValue v call) ∧
      s.world.Called (s.attempt? (.callValue name call)) call (s.world.callValue v call) := by
  refine ⟨by simp [Session.step, hn], ?_⟩
  have hc := s.world.callValue_called v call
  simpa [attempt?, hn] using hc

end Session

end RequestAccess
