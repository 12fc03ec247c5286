import RequestAccess.Proofs.Deferral
import RequestAccess.Proofs.Latch

/-!
# Whom a handle acts for

A handle acts for the scope that it was made in. A unit that remembers a handle gives it to later
works too, and it goes on to act for the work that it was made for.
-/

namespace RequestAccess

/-! ## What a handle does for a scope -/

/-- The route that an error names. -/
def AccessError.route? : AccessError → Option String
  | .invalidDynamicUsage e => some e.route
  | .staticBailout route _ | .dynamicServer route _ | .prerenderInterrupted route _
  | .afterNotSupported route _ | .hangingPromiseRejection route _
  | .syncAccessUnavailable route _ _ => some route
  | .postponed p => some p.route
  | .missingStore _ | .invariant _ | .store _ => none

namespace World

/-- What comes of switching draft mode on a handle, at once or after awaiting it. -/
inductive Switched (w : World) (h : Handle) :
    DraftCall → Outcome (Except AccessError Answer) → Prop where
  | atOnce (call : DraftCall) (hc : call.isSwitch = true) :
    Switched w h call (w.callHandle h (.draft call))
  | awaited (call : DraftCall) (hc : call.isSwitch = true) (v : Value)
      (hv : h.value? = some v) : Switched w h call (w.callValue v (.draft call))

/-- A draft mode acts for a scope: switching it is decided there, and what is refused is refused on
behalf of the work there. -/
structure SwitchesFor (w : World) (b : Binding) (h : Handle) : Prop where
  decided (call : DraftCall) (o : Outcome (Except AccessError Answer)) (ho : w.Switched h call o)
    (e : AccessError) :
    o.result = .error e ↔ (w.decideSwitch b call.expression).result = .error e
  present (call : DraftCall) (o : Outcome (Except AccessError Answer)) (ho : w.Switched h call o)
    (hwork : (w.works.get b.work).alive = true) (hunit : (w.units.get b.unit).alive = true)
    (expression : String) : o.result ≠ .error (.missingStore expression)
  route (call : DraftCall) (o : Outcome (Except AccessError Answer)) (ho : w.Switched h call o)
    (e : AccessError) (he : o.result = .error e) (route : String) (hr : e.route? = some route) :
    route = (w.works.get b.work).route
  latched (call : DraftCall) (o : Outcome (Except AccessError Answer)) (ho : w.Switched h call o)
    (e : UsageError) (he : o.result = .error (.invalidDynamicUsage e)) :
    (o.world.works.get b.work).latch = some e
  bailout (call : DraftCall) (o : Outcome (Except AccessError Answer)) (ho : w.Switched h call o)
    (route expression : String) (he : o.result = .error (.dynamicServer route expression))
    (k : Key .work) :
    (o.world.works.get k).dynamicUsage =
      if k = b.work then some call.expression else (w.works.get k).dynamicUsage

/-- A handle acts for a scope. Draft mode is switched for it, and whoever awaits anything else is
rejected on behalf of the work of the scope. -/
structure ActsFor (w : World) (b : Binding) (r : Resource) (h : Handle) : Prop where
  switches (hr : r = .draftMode) : w.SwitchesFor b h
  rejects (w' : World) (f : Future) (hf : f.handle = h) (e : AccessError)
    (he : (w'.poll f).2.2 = some (.error e)) : e.route? = some (w.works.get b.work).route

end World

/-- The scope of the fetch that made a handle: this step's, or that of an earlier step that fetched
the resource on the same unit. -/
structure Moment.MadeIn (m : Moment) (earlier : List Moment) (b : Binding) (r : Resource)
    (h : Handle) (made : Binding) : Prop where
  unit : made.unit = b.unit
  fetch : m.Makes made r h ∧ made = b ∨ ∃ o ∈ earlier, o.Makes made r h
  /-- Its work is this step's, unless another one that is not force-static has fetched the resource
  on the unit before. -/
  own (only : ∀ o ∈ earlier, ∀ other : Binding, o.attempt? = some (.ofFetch other r) →
    o.gives?.isSome = true → other.unit = b.unit →
    (o.before.world.works.get other.work).forceStatic = false → other.work = b.work) :
    made.work = b.work

/-! ## Deciding -/

namespace World

variable {w : World} {b : Binding} {h : Handle} {call : DraftCall}
  {o : Outcome (Except AccessError Answer)}

theorem decideIn_open {expression x : String} :
    (w.decideIn b expression).result ≠ .error (.missingStore x) := by
  have static {o : Outcome (Except AccessError Unit)} (ho : o.result ≠ .error (.missingStore x)) :
      (w.unlessStatic b.work expression o).result ≠ .error (.missingStore x) := by
    simp only [unlessStatic]
    split
    · simp
    · exact ho
  unfold decideIn
  cases (w.units.get b.unit).variant with
  | cache _ | privateCache _ _ _ | unstableCache => simp [refuseInCache]
  | prerenderPartial log =>
    apply static
    unfold postpone
    split <;> simp
  | request _ => exact static (by simp)
  | prerender p | prerenderRuntime p => exact static (by simp [interrupt])
  | prerenderClient _ => exact static (by simp [refuse, AccessError.inClientComponent])
  | prerenderLegacy _ => exact static (by simp [giveUp])

theorem decideSwitch_open {expression x : String} (hwork : (w.works.get b.work).alive = true)
    (hunit : (w.units.get b.unit).alive = true) :
    (w.decideSwitch b expression).result ≠ .error (.missingStore x) := by
  simp only [decideSwitch, hwork, hunit]
  split
  · rename_i hgone
    cases hgone
  split
  · simp [refuse]
  split
  · simp
  · exact decideIn_open

theorem Switched.decided (ho : w.Switched h call o) {source : Source .draft}
    (hs : h.state = .resolved (.draft source b)) :
    ((∃ e, o.result = .error e ∧ (w.decideSwitch b call.expression).result = .error e) ∧
        o.world = (w.decideSwitch b call.expression).world) ∨
      (∃ a, o.result = .ok a) ∧ (w.decideSwitch b call.expression).result = .ok () := by
  obtain ⟨u, rfl, hv, hc, hswitch⟩ : ∃ u : Use, o = w.use u ∧ u.value = .draft source b ∧
      u.call = .draft call ∧ call.isSwitch = true := by
    cases ho with
    | atOnce hc =>
      exact ⟨⟨some h, .draft source b, .draft call⟩, Session.use_callHandle hs w _, rfl, rfl, hc⟩
    | awaited hc v hv =>
      have hvalue : v = .draft source b := by
        have hstate := Handle.state_of_value hv
        rw [hs] at hstate
        exact (HandleState.resolved.inj hstate).symm
      subst hvalue
      exact ⟨⟨none, .draft source b, .draft call⟩, rfl, rfl, rfl, hc⟩
  have ha : u.value.attempt? u.call = some (.ofSwitch b call.expression) := by
    simp [hv, hc, Value.attempt?, hswitch]
  have hdecide : w.decide u.value u.call = w.decideSwitch b call.expression :=
    (decide_of_attempt ha).1
  rw [← hdecide]
  cases hd : (w.decide u.value u.call).result with
  | error e =>
    rw [use, next_error hd]
    exact .inl ⟨⟨e, rfl, rfl⟩, rfl⟩
  | ok x =>
    obtain ⟨a, hp⟩ := perform_draft ((w.decide u.value u.call).world.seen u).1 u.value call
    rw [← hc] at hp
    refine .inr ⟨⟨a, ?_⟩, rfl⟩
    rw [(use_ok hd).2, hp]
    rfl

/-! ## Errors -/

/-- Every latch names the route of its work. -/
def LatchesOwn (w : World) : Prop :=
  ∀ (k : Key .work) (e : UsageError), (w.works.get k).latch = some e →
    e.route = (w.works.get k).route

theorem Refused.route {a : Attempt} {e : AccessError} {events : List Event} {w' : World}
    (hr : w.Refused a e events w') (hown : w.LatchesOwn) {route : String}
    (he : e.route? = some route) : route = (w.workOf a).route := by
  cases hr with
  | missingStore | inClientComponent _ _ _ => cases he
  | latched old scope hl _ =>
    cases he
    exact hown a.work old hl
  | postponedByHost log host _ _ =>
    cases he
    exact (host.names ..).1
  | _ =>
    cases he
    rfl

theorem Refused.latch {a : Attempt} {own : UsageError} {events : List Event} {w' : World}
    (hr : w.Refused a (.invalidDynamicUsage own) events w') :
    (w'.works.get a.work).latch = some own := by
  rcases hr.latches a.work with ⟨e, scope, he, -, -, -, -, hsome, -⟩ | ⟨hl, -, hkept⟩
  · cases he
    exact hsome
  · exact hl.trans (hkept own rfl rfl)

theorem Refused.bailout {a : Attempt} {route expression : String} {events : List Event} {w' : World}
    (hr : w.Refused a (.dynamicServer route expression) events w') (k : Key .work) :
    (w'.works.get k).dynamicUsage =
      if k = a.work then some a.expression else (w.works.get k).dynamicUsage := by
  cases hr with
  | dynamicServer period hv =>
    simp only [withBailout, Table.get_modify]
    split <;> rfl

theorem Evolves.route {w' : World} (e : w.Evolves w') (k : Key .work) :
    (w'.works.get k).route = (w.works.get k).route := by
  have made := congrArg Work.route (e.work k).made
  exact made

/-! ## Handles of a scope -/

/-- A handle that was made in a scope. -/
structure Serves (w : World) (b : Binding) (r : Resource) (h : Handle) : Prop where
  draft (hr : r = .draftMode) : ∃ source, h.state = .resolved (.draft source b)
  waiting (r' : Resource) (signal : Key .signal) (route : String)
    (hs : h.state = .pending r' signal route) : route = (w.works.get b.work).route

theorem Makes.serves {r : Resource} (hm : w.Makes b r h) : w.Serves b r h where
  draft hr := by
    subst hr
    cases hm with
    | blank hf => exact ⟨_, rfl⟩
    | remembered key state hf ho hn =>
      cases ho with
      | draft => exact ⟨_, rfl⟩
      | waiting _ p hr _ => exact absurd rfl hr
  waiting r' signal route hs := (hm.route hs).2

theorem Serves.evolves {r : Resource} {w' : World} (hs : w.Serves b r h) (e : w.Evolves w') :
    w'.Serves b r h where
  draft := hs.draft
  waiting r' signal route hh := (hs.waiting r' signal route hh).trans (e.route b.work).symm

theorem Serves.switchesFor {r : Resource} (hs : w.Serves b r h) (hr : r = .draftMode)
    (hown : w.LatchesOwn) : w.SwitchesFor b h := by
  obtain ⟨source, hstate⟩ := hs.draft hr
  have refused {call : DraftCall} {o : Outcome (Except AccessError Answer)}
      (ho : w.Switched h call o) {e : AccessError} (he : o.result = .error e) :
      ∃ events, w.Refused (.ofSwitch b call.expression) e events o.world := by
    obtain ⟨⟨e', he', hd⟩, hw⟩ | ⟨⟨a, ha⟩, -⟩ := ho.decided hstate
    · cases he.symm.trans he'
      exact ⟨_, hw ▸ w.decideSwitch_refuses b call.expression e hd⟩
    · cases he.symm.trans ha
  have decided (call : DraftCall) (o : Outcome (Except AccessError Answer))
      (ho : w.Switched h call o) (e : AccessError) :
      o.result = .error e ↔ (w.decideSwitch b call.expression).result = .error e := by
    obtain ⟨⟨e', he', hd⟩, -⟩ | ⟨⟨a, ha⟩, hd⟩ := ho.decided hstate
    · simp [he', hd]
    · simp [ha, hd]
  refine ⟨decided, ?_, ?_, ?_, ?_⟩
  · intro call o ho hwork hunit expression he
    exact decideSwitch_open hwork hunit ((decided call o ho _).mp he)
  · intro call o ho e he route hroute
    obtain ⟨events, hr⟩ := refused ho he
    exact hr.route hown hroute
  · intro call o ho e he
    obtain ⟨events, hr⟩ := refused ho he
    exact hr.latch
  · intro call o ho route expression he k
    obtain ⟨events, hr⟩ := refused ho he
    exact hr.bailout k

theorem Serves.actsFor {r : Resource} (hs : w.Serves b r h) (hown : w.LatchesOwn) :
    w.ActsFor b r h where
  switches hr := hs.switchesFor hr hown
  rejects w' f hf e he := by
    subst hf
    cases hstate : f.handle.state with
    | resolved v => simp [poll, hstate] at he
    | pending r' signal route =>
      rw [Session.World.poll_pending hstate] at he
      split at he
      · cases he
        exact congrArg some (hs.waiting r' signal route hstate)
      · cases he

end World

/-! ## Runs -/

namespace Session

theorem latchesOwn_step {s : Session} (hs : s.world.LatchesOwn) (step : Step) :
    (s.step step).session.world.LatchesOwn := by
  intro k e he
  rw [(s.step_evolves step).route]
  cases hm : Moment.usageError? k ⟨s, step⟩ with
  | none =>
    have hsame := (Moment.latch_of_no_usageError hm).1
    exact hs k e (hsame.symm.trans he)
  | some own =>
    obtain ⟨hafter, ⟨hbefore, -⟩ | ⟨-, ⟨a, scope, -, hk, -, hown⟩, -⟩⟩ :=
      Moment.latch_of_usageError hm
    · cases hafter.symm.trans he
      exact hs k e hbefore
    · cases hafter.symm.trans he
      subst hk hown
      rfl

theorem Reachable.latchesOwn {s : Session} (hs : s.Reachable) : s.world.LatchesOwn := by
  induction hs with
  | fresh hw =>
    intro k e he
    cases (hw.work k).1.symm.trans he
  | step step _ ih => exact latchesOwn_step ih step

/-- A session with the run that has led to it. The worlds of the run become what the world is
now. -/
structure Traced (run : List Moment) (s : Session) : Prop where
  reachable : s.Reachable
  recorded : s.Recorded run
  evolves (m : Moment) (hm : m ∈ run) : m.before.world.Evolves s.world

theorem Traced.step {run : List Moment} {s : Session} (hs : s.Traced run) (step : Step) :
    Traced (run ++ [⟨s, step⟩]) (s.step step).session where
  reachable := hs.reachable.step step
  recorded := hs.recorded.step step
  evolves m hm := by
    rcases List.mem_append.mp hm with hm | hm
    · exact (hs.evolves m hm).trans (s.step_evolves step)
    · rw [List.mem_singleton.mp hm]
      exact s.step_evolves step

end Session

/-! ## Who made a handle -/

section Made

variable {earlier : List Moment} {m : Moment} {b : Binding} {r : Resource} {h : Handle}

theorem Moment.attempt_fetch {b' : Binding} {r' : Resource}
    (h : m.attempt? = some (.ofFetch b r)) (h' : m.attempt? = some (.ofFetch b' r')) :
    b' = b ∧ r' = r := by
  have same := Option.some.inj (h'.symm.trans h)
  exact ⟨congrArg Attempt.binding same, api_injective (congrArg Attempt.expression same)⟩

theorem World.Makes.of_remembered {w : World} {made : Binding} {r' : Resource} {key : MemoKey}
    {v : Variant} (hm : w.Makes made r' h) (hr : h.Remembered v b.unit r key) :
    made.unit = b.unit ∧ r' = r ∧ (w.works.get made.work).forceStatic = false := by
  have hresource : r' = r := hm.resource.symm.trans hr.resource
  obtain ⟨serial, hid⟩ := hr.id
  cases hm with
  | blank hf => cases hid
  | remembered key' state hf ho hn => exact ⟨(HandleId.made.inj hid).1, hresource, hf⟩

/-- What a fetch gives was made by it, or by an earlier fetch of the resource on the unit. -/
theorem Session.Traced.madeIn (hs : m.before.Traced earlier)
    (ha : m.attempt? = some (.ofFetch b r)) (hg : m.gives? = some h) :
    ∃ made, m.MadeIn earlier b r h made ∧ m.before.world.Serves made r h := by
  obtain ⟨b', r', ha', -, ⟨key, hk⟩ | hm⟩ := Moment.gives_cases hg
  -- The unit remembered it: its origin in the run is the fetch that made it.
  · obtain ⟨rfl, rfl⟩ := Moment.attempt_fetch ha ha'
    obtain ⟨o, made, r'', ho, hmakes⟩ := hs.recorded.origin (.remembered b'.unit r' key hk)
    have hmem : o ∈ earlier := List.mem_of_find?_eq_some ho
    have hremembered := hs.recorded.sound.fits.remembered _ _ _ _ hk
    obtain ⟨hunit, rfl, hf⟩ := hmakes.made.of_remembered hremembered
    refine ⟨made, ⟨hunit, .inr ⟨o, hmem, hmakes⟩, fun only => ?_⟩, ?_⟩
    · refine only o hmem made hmakes.attempt ?_ hunit hf
      rw [hmakes.gives]
      rfl
    · exact hmakes.made.serves.evolves (hs.evolves o hmem)
  · obtain ⟨rfl, rfl⟩ := Moment.attempt_fetch ha hm.attempt
    exact ⟨_, ⟨rfl, .inl ⟨hm, rfl⟩, fun _ => rfl⟩, hm.made.serves⟩

end Made

/-! ## The law -/

/-- A handle that a fetch has just given acts for the scope of the fetch that made it. That is the
scope it was asked for in, unless its unit remembered what another work had fetched before. -/
theorem handle_acts_for_maker {w : World} (hw : w.Fresh) {steps : List Step}
    {earlier later : List Moment} {m : Moment}
    (hrun : (Session.ofWorld w).moments steps = earlier ++ m :: later) {b : Binding} {r : Resource}
    {h : Handle} (ha : m.attempt? = some (.ofFetch b r)) (hg : m.gives? = some h) :
    ∃ made, m.MadeIn earlier b r h made ∧ m.after.session.world.ActsFor made r h := by
  have hstart : (Session.ofWorld w).Traced [] := ⟨.fresh hw, .ofWorld hw, nofun⟩
  have hs : m.before.Traced earlier :=
    Session.run_with_moments_at (P := Session.Traced) (fun _ _ step h => h.step step) hstart hrun
  obtain ⟨made, hmade, hserves⟩ := hs.madeIn ha hg
  refine ⟨made, hmade, (hserves.evolves (m.before.step_evolves m.step)).actsFor ?_⟩
  exact (hs.reachable.step m.step).latchesOwn

/-- Two works share a page that is generated statically. -/
def sharedPage : World :=
  { works := ⟨[{ route := "/a" }, { route := "/b" }]⟩
    units := ⟨[{ variant := .prerenderLegacy none }]⟩ }

theorem fresh_sharedPage : sharedPage.Fresh := by
  refine fresh_of_rows sharedPage ?_ ?_ rfl
  · intro work hwork
    simp only [sharedPage, List.mem_cons, List.not_mem_nil, or_false] at hwork
    rcases hwork with rfl | rfl <;> exact ⟨rfl, rfl, rfl⟩
  · intro u hu
    rw [List.mem_singleton.mp hu]
    exact ⟨rfl, rfl⟩

/-- The second work gets the draft mode that was made for the first. -/
theorem handle_acts_for_maker_before :
    let s := Session.ofWorld sharedPage
    let first : Step := .fetch .draftMode ⟨0⟩ (some ⟨0⟩) (some ⟨0⟩) (some "a")
    let m : Moment := ⟨(s.step first).session, .fetch .draftMode ⟨0⟩ (some ⟨1⟩) (some ⟨0⟩) none⟩
    ∃ h made, m.gives? = some h ∧ m.MadeIn [⟨s, first⟩] ⟨⟨0⟩, ⟨1⟩, ⟨0⟩⟩ .draftMode h made ∧
      m.after.session.world.ActsFor made .draftMode h := by
  intro s first m
  have hrun : s.moments [first, m.step] = [⟨s, first⟩] ++ m :: [] := rfl
  have ha : m.attempt? = some (.ofFetch ⟨⟨0⟩, ⟨1⟩, ⟨0⟩⟩ .draftMode) := rfl
  obtain ⟨h, hg⟩ : ∃ h, m.gives? = some h := ⟨_, rfl⟩
  obtain ⟨made, hmade, hacts⟩ := handle_acts_for_maker fresh_sharedPage hrun ha hg
  exact ⟨h, made, hg, hmade, hacts⟩

/-- The draft mode that a live scope has just been given is refused on behalf of another work, which
notes the bailout. -/
theorem draft_acts_for_another_work :
    let s := ((Session.ofWorld sharedPage).run
      [.fetch .draftMode ⟨0⟩ (some ⟨0⟩) (some ⟨0⟩) (some "a"),
        .fetch .draftMode ⟨0⟩ (some ⟨1⟩) (some ⟨0⟩) (some "b")]).1
    let after := s.step (.callHandle "b" (.draft .enable))
    sharedPage.Fresh ∧ s.world.scope? (some ⟨1⟩) (some ⟨0⟩) = some ⟨⟨1⟩, ⟨0⟩⟩ ∧
      (s.world.works.get ⟨1⟩).route = "/b" ∧
      after.reply = .failed (.dynamicServer "/a" "draftMode().enable()") ∧
      (after.session.world.works.get ⟨0⟩).dynamicUsage = some "draftMode().enable()" ∧
      (after.session.world.works.get ⟨1⟩).dynamicUsage = none :=
  ⟨fresh_sharedPage, rfl, rfl, rfl, rfl, rfl⟩

end RequestAccess
