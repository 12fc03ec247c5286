import RequestAccess.Proofs.Deferral
import RequestAccess.Proofs.Domain

/-!
# Steps in a domain

A render whose steps stay in a domain goes the same in every world that agrees on the domain, and
leaves everything else as it was. What it comes to have is in the domain.
-/

namespace RequestAccess

/-! ## What is in a domain -/

/-- What a render keeps to itself. -/
structure Locals where
  handles : NameMap Handle := .empty
  values : NameMap Value := .empty
  futures : NameMap Future := .empty
  nextWaker : Waker := 0

def Session.locals (s : Session) : Locals :=
  { handles := s.handles, values := s.values, futures := s.futures, nextWaker := s.nextWaker }

def Locals.inWorld (l : Locals) (w : World) : Session :=
  { world := w, handles := l.handles, values := l.values, futures := l.futures,
    nextWaker := l.nextWaker }

/-- All that a step names by a key is in the domain, and so is the draft mode that a fetch of it
looks up. -/
def Step.In (D : Domain) (w : World) : Step → Prop
  | .fetch r c work unit _ =>
    (∀ k, work = some k → D.has k) ∧ (∀ k, unit = some k → D.has k) ∧
      ∀ k k', work = some k → unit = some k' → r = .draftMode → ∀ key,
        w.hostDraft? { coordinator := c, work := k, unit := k' } = some key → D.has key
  | .abort key => D.has key
  | .dropWork key => D.has key
  | .dropUnit key => D.has key
  | .callJar key _ => D.has key
  | .callHeaders key _ => D.has key
  | .callDraft key _ => D.has key
  | _ => True

/-- All that the callers have is in the domain. -/
structure Locals.In (D : Domain) (l : Locals) : Prop where
  handles (name : String) (h : Handle) (hn : l.handles.get? name = some h) : h.In D
  values (name : String) (v : Value) (hn : l.values.get? name = some v) : v.In D
  futures (name : String) (f : Future) (hn : l.futures.get? name = some f) : f.handle.In D

/-! ## Steps -/

theorem poll_inWorld (l : Locals) (w : World) (name : String) (f : Future)
    (saveAs : Option String) :
    (l.inWorld w).poll name f saveAs =
      let polled : Locals := { l with futures := l.futures.insert name (w.poll f).2.1 }
      (if (w.poll f).2.2.isSome then (polled.inWorld (w.poll f).1).forget name
        else polled.inWorld (w.poll f).1).asked saveAs (w.poll f).2.2 := rfl

namespace Domain

/-- A step in one world comes to what the step comes to in another. -/
structure Follows (D : Domain) (v w : World) (a a' : Session.After) : Prop where
  reply : a.reply = a'.reply
  events : Event.own a.events = Event.own a'.events
  locals : a.session.locals = a'.session.locals
  moves : D.Moves v w a.session.world a'.session.world

namespace Follows

variable {D : Domain} {v w : World} {s t : Session}

theorem asked (hl : s.locals = t.locals) (hm : D.Moves v w s.world t.world)
    (saveAs : Option String) (result : Option (Except AccessError Value)) :
    D.Follows v w (s.asked saveAs result) (t.asked saveAs result) := by
  obtain ⟨world, handles, values, futures, waker⟩ := s
  cases hl
  unfold Session.asked
  split
  · exact ⟨rfl, rfl, rfl, hm⟩
  · cases saveAs <;> exact ⟨rfl, rfl, rfl, hm⟩
  · exact ⟨rfl, rfl, rfl, hm⟩

theorem answered (hl : s.locals = t.locals) {o o' : Outcome (Except AccessError Answer)}
    (ho : D.Tracks v w o o') : D.Follows v w (s.answered o) (t.answered o') := by
  refine ⟨?_, ho.events, hl, ho.moves⟩
  simp only [Session.answered, ho.result]

theorem stored (hl : s.locals = t.locals) {p p' : World × Except StoreError Answer}
    (hp : p.2 = p'.2 ∧ D.Moves v w p.1 p'.1) : D.Follows v w (s.stored p) (t.stored p') := by
  refine ⟨?_, rfl, hl, hp.2⟩
  simp only [Session.stored, hp.1]

end Follows

namespace Agree

variable {D : Domain} {v w : World} {l : Locals} (h : D.Agree v w) (hl : l.In D)

include h

theorem scope? {work : Option (Key .work)} {unit : Option (Key .unit)}
    (hwork : ∀ k, work = some k → D.has k) (hunit : ∀ k, unit = some k → D.has k) :
    v.scope? work unit = w.scope? work unit ∧
      ∀ scope, w.scope? work unit = some scope → D.has scope.work ∧ D.has scope.unit := by
  cases work with
  | none => exact ⟨rfl, fun _ hs => nomatch hs⟩
  | some work =>
    cases unit with
    | none => exact ⟨rfl, fun _ hs => nomatch hs⟩
    | some unit =>
      have hk := hwork work rfl
      have hu := hunit unit rfl
      refine ⟨by simp only [World.scope?, h.works work hk, h.units unit hu], ?_⟩
      intro scope hs
      simp only [World.scope?, Option.ite_none_right_eq_some, Option.some.injEq] at hs
      rw [← hs.2]
      exact ⟨hk, hu⟩

theorem fetch_follows (hw : w.ClosedIn D) (r : Resource) (c : Key .coordinator)
    {work : Option (Key .work)} {unit : Option (Key .unit)}
    (hwork : ∀ k, work = some k → D.has k) (hunit : ∀ k, unit = some k → D.has k)
    (saveAs : Option String) :
    D.Follows v w ((l.inWorld v).fetch r c work unit saveAs)
      ((l.inWorld w).fetch r c work unit saveAs) := by
  obtain ⟨hscope, hin⟩ := h.scope? hwork hunit
  obtain ⟨hresult, hevents, hm⟩ := h.fetch (r := r) hw c hin
  have hscope' : (l.inWorld v).world.scope? work unit = w.scope? work unit := hscope
  have hresult' : ((l.inWorld v).world.fetch c (w.scope? work unit) r).result =
      (w.fetch c (w.scope? work unit) r).result := hresult
  simp only [Session.fetch, hscope', hresult']
  cases hr : (w.fetch c (w.scope? work unit) r).result with
  | error e =>
    simp only [Locals.inWorld, hr]
    exact ⟨rfl, hevents, rfl, hm⟩
  | ok x =>
    simp only [Locals.inWorld, hr]
    cases saveAs <;> exact ⟨rfl, hevents, rfl, hm⟩

theorem callHandle (hw : w.ClosedIn D) {x : Handle} (hx : x.In D) (call : Call) :
    D.Tracks v w (v.callHandle x call) (w.callHandle x call) := by
  cases hs : x.state with
  | pending r signal route =>
    simp only [World.callHandle, hs]
    exact h.refuse _
  | resolved value =>
    have hvalue : value.In D := by
      have hstate := hx.state
      rwa [hs] at hstate
    rw [Session.use_callHandle hs, Session.use_callHandle hs]
    refine h.use hw ?_ hvalue
    rintro _ ⟨⟩
    exact hx

theorem now_follows {x : Handle} (hx : x.In D) (saveAs : Option String) :
    D.Follows v w ((l.inWorld v).now x saveAs) ((l.inWorld w).now x saveAs) := by
  obtain ⟨hresult, hm⟩ := h.pollOnce hx l.nextWaker
  simp only [Session.now, Locals.inWorld, hresult]
  refine .asked ?_ hm saveAs _
  rfl

include hl

theorem forget_follows (name : String) :
    ((l.inWorld v).forget name).locals = ((l.inWorld w).forget name).locals ∧
      D.Moves v w ((l.inWorld v).forget name).world ((l.inWorld w).forget name).world := by
  simp only [Session.forget, Locals.inWorld]
  cases hn : l.futures.get? name with
  | none => exact ⟨rfl, .refl h⟩
  | some f => exact ⟨rfl, h.dropFuture (hl.futures name f hn)⟩

theorem start_follows (x : Handle) (future : String) :
    D.Follows v w ((l.inWorld v).start x future) ((l.inWorld w).start x future) := by
  obtain ⟨hlocals, hm⟩ := h.forget_follows hl future
  have hfutures := congrArg Locals.futures hlocals
  have hwaker := congrArg Locals.nextWaker hlocals
  simp only [Session.locals] at hlocals hfutures hwaker
  refine ⟨rfl, rfl, ?_, hm⟩
  simp only [Session.start, Session.locals, hfutures, hwaker]
  simp_all

theorem poll_follows {name : String} {f : Future} (hf : f.handle.In D) (saveAs : Option String) :
    D.Follows v w ((l.inWorld v).poll name f saveAs) ((l.inWorld w).poll name f saveAs) := by
  obtain ⟨hresult, hm⟩ := h.poll hf
  have hpolled : ({ l with futures := l.futures.insert name (w.poll f).2.1 } : Locals).In D := by
    refine ⟨hl.handles, hl.values, fun other x hx => ?_⟩
    rcases NameMap.found_insert hx with rfl | hold
    · rwa [World.poll_handle]
    · exact hl.futures other x hold
  rw [poll_inWorld, poll_inWorld, hresult]
  split
  · obtain ⟨hlocals, hforget⟩ := hm.agree.forget_follows hpolled name
    exact .asked hlocals (hm.trans hforget) saveAs _
  · refine .asked ?_ hm saveAs _
    rfl

theorem withHandle_follows {name : String} {f g : Handle → Session.After}
    (hf : ∀ x, x.In D → D.Follows v w (f x) (g x)) :
    D.Follows v w ((l.inWorld v).withHandle name f) ((l.inWorld w).withHandle name g) := by
  simp only [Session.withHandle, Locals.inWorld]
  cases hn : l.handles.get? name with
  | none => exact ⟨rfl, rfl, rfl, .refl h⟩
  | some x => exact hf x (hl.handles name x hn)

/-- A step in a domain comes to the same in worlds that agree on it, and changes nothing else. -/
theorem step_follows (hw : w.ClosedIn D) {step : Step} (hs : step.In D w) :
    D.Follows v w ((l.inWorld v).step step) ((l.inWorld w).step step) := by
  cases step with
  | fetch r c work unit saveAs =>
    exact h.fetch_follows hw r c hs.1 hs.2.1 saveAs
  | callHandle name call =>
    exact h.withHandle_follows hl fun x hx => .answered rfl (h.callHandle hw hx call)
  | callValue name call =>
    simp only [Session.step, Locals.inWorld]
    cases hn : l.values.get? name with
    | none => exact ⟨rfl, rfl, rfl, .refl h⟩
    | some value =>
      have hu := h.use (u := ⟨none, value, call⟩) hw (by simp) (hl.values name value hn)
      exact .answered rfl hu
  | now name saveAs => exact h.withHandle_follows hl fun x hx => h.now_follows hx saveAs
  | start name future => exact h.withHandle_follows hl fun x _ => h.start_follows hl x future
  | poll name saveAs =>
    simp only [Session.step, Locals.inWorld]
    cases hn : l.futures.get? name with
    | none => exact ⟨rfl, rfl, rfl, .refl h⟩
    | some f => exact h.poll_follows hl (hl.futures name f hn) saveAs
  | abort key =>
    obtain ⟨hfired, hm⟩ := h.abortSignal hs
    exact ⟨congrArg Reply.fired hfired, rfl, rfl, hm⟩
  | clone name saveAs => exact h.withHandle_follows hl fun x _ => ⟨rfl, rfl, rfl, .refl h⟩
  | dropWork key =>
    refine ⟨?_, rfl, rfl, h.dropWork hs⟩
    simp only [Session.step, Locals.inWorld, h.works key hs]
  | dropUnit key =>
    refine ⟨?_, rfl, rfl, h.dropUnit hs⟩
    simp only [Session.step, Locals.inWorld, h.units key hs]
  | dropHandle name | dropValue name => exact ⟨rfl, rfl, rfl, .refl h⟩
  | dropFuture name =>
    obtain ⟨hlocals, hm⟩ := h.forget_follows hl name
    exact ⟨rfl, rfl, hlocals, hm⟩
  | callJar key call =>
    have hkey : (Source.shared key).In D := hs
    exact .stored rfl (h.callJar hkey call)
  | callHeaders key call =>
    have hkey : (Source.shared key).In D := hs
    exact .stored rfl (h.callHeaders hkey call)
  | callDraft key call =>
    have hkey : (Source.shared key).In D := hs
    obtain ⟨ha, hm⟩ := h.callDraft hw.drafts hkey call
    exact ⟨congrArg Reply.answer ha, rfl, rfl, hm⟩

theorem observed? (hw : w.ClosedIn D) (step : Step) :
    (l.inWorld v).observed? step = (l.inWorld w).observed? step := by
  have huse : (l.inWorld v).use? step = (l.inWorld w).use? step := by cases step <;> rfl
  unfold Session.observed?
  rw [huse]
  cases hu : (l.inWorld w).use? step with
  | none => rfl
  | some u =>
    obtain ⟨hthrough, hvalue⟩ : (∀ x, u.through = some x → x.In D) ∧ u.value.In D := by
      cases step with
      | callHandle name call =>
        obtain ⟨x, hn, hx⟩ := Option.bind_eq_some_iff.mp hu
        obtain ⟨value, hv, rfl⟩ := Option.map_eq_some_iff.mp hx
        have hin := hl.handles name x hn
        have hstate := hin.state
        rw [Handle.state_of_value hv] at hstate
        refine ⟨?_, hstate⟩
        rintro _ ⟨⟩
        exact hin
      | callValue name call =>
        obtain ⟨value, hn, rfl⟩ := Option.map_eq_some_iff.mp hu
        exact ⟨nofun, hl.values name value hn⟩
      | _ => cases hu
    have hdecide := (h.decide hw hvalue u.call).result
    have hsees := h.sees? hthrough
    change (if (v.decide u.value u.call).result.isOk then v.sees? u else none) =
      if (w.decide u.value u.call).result.isOk then w.sees? u else none
    rw [hdecide, hsees]

end Agree

end Domain

/-! ## A render alone -/

/-- Everything that someone has in a session is in a domain. -/
structure Session.Owned (D : Domain) (t : Session) : Prop where
  closed : t.world.ClosedIn D
  holds (h : Handle) (hh : t.Holds h) : h.In D
  reads (v : Value) (hv : t.Reads v) : v.In D

section Alone

variable {D : Domain} {w w' : World} {t : Session}

theorem Variant.in_of_made {v v' : Variant} (hm : v.asMade = v'.asMade) (h : v'.In D) : v.In D := by
  have asMade (v : Variant) : v.asMade.In D ↔ v.In D := by
    cases v <;> exact Iff.rfl
  rwa [← asMade, hm, asMade]

namespace Variant.In

variable {v : Variant} (h : v.In D)

include h

theorem jar {jar : Key .jar} (hj : v.jar? = some jar) : D.has jar := by
  cases v with
  | request q =>
    cases hj
    unfold LiveRequest.visibleCookies
    split
    · exact h.2.1
    · exact h.1
    · exact h.1
  | privateCache cookies headers forwarded =>
    cases hj
    exact h.1
  | _ => cases hj

theorem headers {key : Key .headers} (hk : v.headers? = some key) : D.has key := by
  cases v with
  | request q =>
    cases hk
    exact h.2.2
  | privateCache cookies headers forwarded =>
    cases hk
    exact h.2
  | _ => cases hk

theorem signal {p : Prerender} (hp : v.deferring? = some p) : D.has p.signal := by
  cases v with
  | prerender q | prerenderRuntime q =>
    cases hp
    exact h.1
  | _ => cases hp

end Variant.In

theorem Step.In.evolves {step : Step} (hs : step.In D w) (e : w.Evolves w') : step.In D w' := by
  cases step with
  | fetch r c work unit saveAs =>
    refine ⟨hs.1, hs.2.1, fun k k' hk hk' hr key hkey => hs.2.2 k k' hk hk' hr key ?_⟩
    rwa [e.hostDraft?] at hkey
  | _ => exact hs

namespace World

theorem response?_switchDraft (w : World) (key k : Key .draft) (on : Bool) :
    ((w.switchDraft key on).drafts.get k).response? = (w.drafts.get k).response? := by
  rw [drafts_switchDraft]
  split
  · rename_i hk
    rw [hk]
    cases w.drafts.get key <;> rfl
  · rfl

theorem response?_callDraft (w : World) (source : Source .draft) (call : DraftCall)
    (k : Key .draft) :
    ((w.callDraft source call).1.drafts.get k).response? = (w.drafts.get k).response? := by
  cases source with
  | blank => cases call <;> rfl
  | shared key =>
    cases call with
    | isEnabled => rfl
    | enable | disable => exact w.response?_switchDraft key k _

theorem response?_perform (w : World) (v : Value) (call : Call) (k : Key .draft) :
    ((w.perform v call).1.drafts.get k).response? = (w.drafts.get k).response? := by
  unfold perform
  split
  · rw [callJar_frame]
  · rw [callHeaders_frame]
  · exact w.response?_callDraft _ _ k
  · rfl

theorem Makes.inDomain {b : Binding} {r : Resource} {h : Handle} (hm : w.Makes b r h)
    (hw : w.ClosedIn D) (hb : b.In D)
    (hd : r = .draftMode → ∀ key, w.hostDraft? b = some key → D.has key) : h.In D := by
  cases hm with
  | blank hf =>
    refine ⟨hb.work, ?_, nofun⟩
    cases r with
    | cookies | headers => trivial
    | draftMode => exact ⟨trivial, hb⟩
  | remembered key state hf ho hn =>
    have hv := hw.units b.unit hb.unit
    refine ⟨hb.unit, ?_, fun g hg => ?_⟩
    · cases ho with
      | draft =>
        refine ⟨?_, hb⟩
        cases hk : w.hostDraft? b with
        | none => trivial
        | some key => exact hd rfl key hk
      | cookies jar hj => exact hv.jar hj
      | headers key hk => exact hv.headers hk
      | waiting r p hr hp => exact hv.signal hp
    · have hunit : g.unit = b.unit := by
        unfold guardOf? at hg
        split at hg
        · exact guardFor_unit hg
        · cases hg
      exact hunit ▸ hb.unit

end World

namespace Session

theorem response?_step (t : Session) (step : Step) (k : Key .draft) :
    ((t.step step).session.world.drafts.get k).response? = (t.world.drafts.get k).response? := by
  cases t.effect step with
  | refused a e events w ha hr h => rw [h, hr.spares.drafts]
  | given b r h ha hg hm => rw [hg.frame]
  | used u hu hd h =>
    have hworld : (t.step step).session.world = (t.world.use u).world := by
      rw [h]
      rfl
    rw [hworld, (World.use_ok hd).1, World.response?_perform, World.seen_decided hd]
  | listened h => rw [listened_frame h]
  | aborted key h | workDropped key h | unitDropped key h =>
    subst h
    rfl
  | hostJar key call h =>
    subst h
    exact congrArg (fun d => (d.get k).response?)
      (congrArg World.drafts (t.world.callJar_frame (.shared key) call))
  | hostHeaders key call h =>
    subst h
    exact congrArg (fun d => (d.get k).response?)
      (congrArg World.drafts (t.world.callHeaders_frame (.shared key) call))
  | hostDraft key call h =>
    subst h
    exact t.world.response?_callDraft (.shared key) call k

theorem inDomain_of_makes {step : Step} {b : Binding} {r : Resource} {h : Handle}
    (hw : t.world.ClosedIn D) (hs : step.In D t.world) (hm : Moment.Makes ⟨t, step⟩ b r h) :
    h.In D := by
  have hattempt := hm.attempt
  have hgives := hm.gives
  cases step with
  | fetch r' c work unit saveAs =>
    obtain ⟨scope, hscope, hsame⟩ := Option.map_eq_some_iff.mp hattempt
    have hb : scope.binding c = b := congrArg Attempt.binding hsame
    have hr : r' = r := api_injective (congrArg Attempt.expression hsame)
    subst hb hr
    obtain ⟨hwork, hunit, hdraft⟩ := hs
    cases work with
    | none => cases hscope
    | some work =>
      cases unit with
      | none => cases hscope
      | some unit =>
        simp only [World.scope?, Option.ite_none_right_eq_some, Option.some.injEq] at hscope
        obtain ⟨-, rfl⟩ := hscope
        exact hm.made.inDomain hw ⟨hwork work rfl, hunit unit rfl⟩ (hdraft work unit rfl rfl)
  | _ => cases hgives

theorem Owned.ofWorld (hw : w.Fresh) (hc : w.ClosedIn D) : (Session.ofWorld w).Owned D where
  closed := hc
  holds h hh := absurd hh (not_holds_of_fresh hw)
  reads v hv := by
    cases hv with
    | value name hn => cases hn
    | handle h hh _ => exact absurd hh (not_holds_of_fresh hw)

theorem Owned.locals (ht : t.Owned D) : t.locals.In D where
  handles name h hn := ht.holds h (.kept name hn)
  values name v hn := ht.reads v (.value name hn)
  futures name f hn := ht.holds f.handle (.awaited name f hn rfl)

theorem Owned.step (ht : t.Owned D) {step : Step} (hs : step.In D t.world) :
    (t.step step).session.Owned D where
  closed := by
    -- A unit goes on to work with what it was made with, a draft mode with its jar.
    refine ⟨fun k hk => ?_, fun k hk response hr => ?_⟩
    · exact Variant.in_of_made ((t.step_evolves step).unit k).made (ht.closed.units k hk)
    · rw [response?_step] at hr
      exact ht.closed.drafts k hk response hr
  holds h hh := by
    rcases holds_step hh with hold | hg
    · exact ht.holds h hold
    · obtain ⟨b, r, -, -, ⟨key, hk⟩ | hm⟩ := Moment.gives_cases hg
      · exact ht.holds h (.remembered b.unit r key hk)
      · exact inDomain_of_makes ht.closed hs hm
  reads v hv := by
    rcases reads_step hv with hold | ⟨b, r, h, hm, hstate⟩
    · exact ht.reads v hold
    · have hin := (inDomain_of_makes ht.closed hs hm).state
      rwa [hstate] at hin

end Session

end Alone

end RequestAccess
