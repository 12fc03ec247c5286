import RequestAccess.Proofs.Memoization
import RequestAccess.Proofs.Records

/-!
# The markers of a run

Whoever orders a render reads three markers after it: whether a live request used dynamic data, the
period of a page, and why a work gave up static generation. Each sums up the run.
-/

namespace RequestAccess

/-! ## What the markers sum up -/

/-- The expression of an error that gives up static generation. -/
def AccessError.bailout? : AccessError → Option String
  | .dynamicServer _ expression => some expression
  | _ => none

namespace Moment

/-- Why static generation was given up for a work. -/
def usage? (k : Key .work) (m : Moment) : Option String :=
  match m.attempt?, m.reply with
  | some a, .failed e => if a.work = k then e.bailout? else none
  | _, _ => none

/-- Whether static generation was given up on a unit. -/
def bailsOut (k : Key .unit) (m : Moment) : Bool :=
  match m.attempt?, m.reply with
  | some a, .failed e => a.unit = k && e.bailout?.isSome
  | _, _ => false

end Moment

/-- The markers of a world sum up the run that has led to it. -/
structure Session.SumsUp (w : World) (run : List Moment) (s : Session) : Prop where
  used (k : Key .unit) (hk : (w.units.get k).variant.phase = .request) :
    (s.world.units.get k).variant.usedDynamic = true ↔ ∃ m ∈ run, ∃ r, m.fills k r = true
  period (k : Key .unit) (r : Option UInt64)
    (hk : (w.units.get k).variant = .prerenderLegacy (periodOf r))
    (hr : r ≠ some 0xFFFFFFFFFFFFFFFF) :
    (s.world.units.get k).variant.period? = some (if run.any (·.bailsOut k) then some 0 else r)
  usage (k : Key .work) :
    (s.world.works.get k).dynamicUsage = (run.filterMap (·.usage? k)).getLast?

/-- Nothing that a marker says has changed. -/
structure World.SameMarkers (w w' : World) : Prop where
  used (k : Key .unit) :
    (w'.units.get k).variant.usedDynamic = (w.units.get k).variant.usedDynamic
  period (k : Key .unit) :
    (w'.units.get k).variant.period? = (w.units.get k).variant.period?
  usage (k : Key .work) : (w'.works.get k).dynamicUsage = (w.works.get k).dynamicUsage

namespace Moment

/-- The steps that change no marker. A fetch of draft mode in a live request is not among them. -/
inductive Unmarked (m : Moment) : Prop where
  | draftRead (b : Binding) (hu : m.before.draftUse? m.step = some (b, .isEnabled))
  | draftFetch (b : Binding) (ha : m.attempt? = some (.ofFetch b .draftMode))
      (hv : (m.before.world.units.get b.unit).variant.phase ≠ .request)
  | forceStatic (a : Attempt) (ha : m.attempt? = some a)
      (hf : (m.before.world.workOf a).forceStatic = true)
  | refused (e : AccessError) (hr : m.reply = .failed e) (he : e.bailout? = none)
  | noAttempt (ha : m.attempt? = none)

/-- What a step does to the markers. -/
structure Marks (m : Moment) : Prop where
  stays (k : Key .unit) (h : (m.before.world.units.get k).variant.usedDynamic = true) :
    (m.after.session.world.units.get k).variant.usedDynamic = true
  /-- Static generation is given up for an attempt only. -/
  bailout (e : AccessError) (hr : m.reply = .failed e) (he : e.bailout?.isSome = true) :
    ∃ a, m.attempt? = some a ∧ m.usage? a.work = e.bailout? ∧ m.bailsOut a.unit = true
  unmarked (h : m.Unmarked) : m.before.world.SameMarkers m.after.session.world

end Moment

/-! ## Giving up static generation -/

theorem AccessError.bailout?_of_not_recorded {e : AccessError} (h : e.isRecorded = false) :
    e.bailout? = none := by
  cases e <;> first | rfl | cases h

theorem AccessError.isRecorded_of_bailout {e : AccessError} (h : e.bailout?.isSome = true) :
    e.isRecorded = true := by
  cases e <;> first | rfl | cases h

namespace World

variable {w w' : World} {a : Attempt} {e : AccessError} {events : List Event}

theorem Refused.usage (hr : w.Refused a e events w') (k : Key .work) :
    (w'.works.get k).dynamicUsage =
      (if a.work = k then e.bailout? else none).or (w.works.get k).dynamicUsage := by
  cases hr with
  | latching scope _ _ =>
    simp only [withLatch, Table.get_modify, AccessError.bailout?, ite_self, Option.none_or]
    split
    · rename_i h
      rw [h]
    · rfl
  | dynamicServer period hv =>
    simp only [withBailout, Table.get_modify, AccessError.bailout?]
    by_cases h : a.work = k
    · simp [h]
    · simp [h, Ne.symm h]
  | interrupted p _ => cases p.log <;> simp [withSignalFired, withRecord, AccessError.bailout?]
  | _ => simp [AccessError.bailout?, AccessError.inClientComponent, withRecord, withLog]

theorem Refused.period (hr : w.Refused a e events w') (k : Key .unit) :
    (w'.units.get k).variant.period? =
      if a.unit = k && e.bailout?.isSome then some (some 0)
      else (w.units.get k).variant.period? := by
  cases hr with
  | dynamicServer period hv =>
    simp only [withBailout, Table.get_modify, AccessError.bailout?]
    by_cases h : a.unit = k
    · simp [h, Variant.period?]
    · simp [h, Ne.symm h]
  | interrupted p _ => cases p.log <;> simp [withSignalFired, withRecord, AccessError.bailout?]
  | _ => simp [AccessError.bailout?, AccessError.inClientComponent, withRecord, withLog, withLatch]

theorem Refused.usedDynamic (hr : w.Refused a e events w') (k : Key .unit) :
    (w'.units.get k).variant.usedDynamic = (w.units.get k).variant.usedDynamic := by
  cases hr with
  | dynamicServer period hv =>
    simp only [withBailout, Table.get_modify]
    split
    · rename_i h
      rw [h, show (w.units.get a.unit).variant = _ from hv]
      rfl
    · rfl
  | interrupted p _ => cases p.log <;> rfl
  | _ => rfl

/-! ## Using dynamic data -/

theorem usedDynamic_markDynamic_of_ne {unit k : Key .unit} (h : unit ≠ k) :
    ((w.markDynamic unit).units.get k).variant.usedDynamic =
      (w.units.get k).variant.usedDynamic := by
  simp only [markDynamic, Table.get_modify, if_neg (Ne.symm h)]

theorem usedDynamic_markDynamic_of_phase {unit : Key .unit}
    (h : (w.units.get unit).variant.phase = .request) :
    ((w.markDynamic unit).units.get unit).variant.usedDynamic = true := by
  cases hv : (w.units.get unit).variant with
  | request q => simp [markDynamic, hv, Variant.mapRequest, Variant.usedDynamic]
  | _ => simp [hv, Variant.phase] at h

theorem usedDynamic_of_untouched {v : Variant} (h : v.isUntouched = true) :
    v.usedDynamic = false := by
  cases v with
  | request q =>
    simp only [Variant.isUntouched, Bool.and_eq_true, Bool.not_eq_true'] at h
    exact h.1
  | _ => rfl

/-- A scope in which a live request counts what it gets as a use of dynamic data. -/
structure Counts (w : World) (b : Binding) (k : Key .unit) : Prop where
  unit : b.unit = k
  forceStatic : (w.works.get b.work).forceStatic = false
  phase : (w.units.get k).variant.phase = .request

theorem Given.usedDynamic {b : Binding} {r : Resource} {h : Handle} (hg : w.Given b r h w')
    (k : Key .unit) :
    (w'.units.get k).variant.usedDynamic = (w.units.get k).variant.usedDynamic ∧ ¬ w.Counts b k ∨
      w.Counts b k ∧ (w'.units.get k).variant.usedDynamic = true := by
  cases hg with
  | blank hf => exact .inl ⟨rfl, fun hc => Bool.eq_false_iff.mp hc.forceStatic hf⟩
  | live q hf hv hp =>
    have hphase : (w.units.get b.unit).variant.phase = .request := by rw [hv, Variant.phase]
    subst hp
    rw [memoize_variant]
    by_cases hk : b.unit = k
    · subst hk
      exact .inr ⟨⟨rfl, hf, hphase⟩, usedDynamic_markDynamic_of_phase hphase⟩
    · exact .inl ⟨usedDynamic_markDynamic_of_ne hk, fun hc => hk hc.unit⟩
  | untracked state hf hv hk hs hp =>
    subst hp
    rw [memoize_variant]
    exact .inl ⟨rfl, fun hc => hv (hc.unit ▸ hc.phase)⟩

variable {w : World} {u : Use}

theorem decide_usedDynamic (hd : (w.decide u.value u.call).result = .ok ()) (k : Key .unit) :
    ((w.decide u.value u.call).world.units.get k).variant.usedDynamic =
        (w.units.get k).variant.usedDynamic ∨
      ∃ a, u.value.attempt? u.call = some a ∧ w.Counts a.binding k ∧
        ((w.decide u.value u.call).world.units.get k).variant.usedDynamic = true := by
  cases ha : u.value.attempt? u.call with
  | none =>
    rw [decide_of_no_attempt ha]
    exact .inl rfl
  | some a =>
    rw [(decide_of_attempt ha).1] at hd ⊢
    obtain ⟨-, ⟨-, hw⟩ | ⟨hf, hw, hv, -⟩⟩ := decideSwitch_ok hd
    · exact .inl (by rw [hw])
    · rw [hw]
      by_cases hk : a.binding.unit = k
      · subst hk
        exact .inr ⟨a, rfl, ⟨rfl, hf, hv⟩, usedDynamic_markDynamic_of_phase hv⟩
      · exact .inl (usedDynamic_markDynamic_of_ne hk)

theorem usedDynamic_use (hd : (w.decide u.value u.call).result = .ok ()) (k : Key .unit) :
    ((w.use u).world.units.get k).variant.usedDynamic =
      ((w.decide u.value u.call).world.units.get k).variant.usedDynamic := by
  rw [(use_ok hd).1, perform_frame]
  exact usedDynamic_seen _ u k

end World

/-! ## Fetches that count -/

namespace Moment

variable {m : Moment} {b : Binding} {r : Resource} {h : Handle} {k : Key .unit}

theorem attempt_of_grant {g : Grant} (hg : m.grant? = some g) :
    m.attempt? = some (.ofFetch g.binding g.resource) := by
  obtain ⟨b, r, ha, -⟩ := gives_cases (granted hg).gives
  obtain ⟨saveAs, same, hstep, -, -⟩ := grant_fetches hg
  rw [Moment.attempt?, hstep] at ha ⊢
  obtain ⟨scope, hscope, -⟩ := Option.map_eq_some_iff.mp ha
  have hs : scope = ⟨g.binding.work, g.binding.unit⟩ := by
    simp only [World.scope?, Option.ite_none_right_eq_some, Option.some.injEq] at hscope
    exact hscope.2.symm
  simp only [Session.attempt?, hscope, hs]
  rfl

theorem fills_of_gives (hm : m.gives? = some h) (ha : m.attempt? = some (.ofFetch b r)) :
    m.fills k r = true ↔
      (m.before.world.works.get b.work).forceStatic = false ∧ b.unit = k := by
  cases hg : m.grant? with
  | none => cases (gives_of_no_grant hg).symm.trans hm
  | some g =>
    have hattempt := Option.some.inj (ha.symm.trans (attempt_of_grant hg))
    obtain rfl : b = g.binding := congrArg Attempt.binding hattempt
    obtain rfl : r = g.resource := api_injective (congrArg Attempt.expression hattempt)
    rw [← (granted hg).blank, fills_iff]
    constructor
    · rintro ⟨g', hg', hb, hu, -⟩
      cases hg.symm.trans hg'
      exact ⟨hb, hu⟩
    · exact fun h => ⟨g, hg, h.1, h.2, rfl⟩

theorem gives_of_fills (hf : m.fills k r = true) :
    ∃ h b, m.gives? = some h ∧ m.attempt? = some (.ofFetch b r) := by
  obtain ⟨g, hg, -, -, rfl⟩ := fills_iff.mp hf
  exact ⟨_, _, (granted hg).gives, attempt_of_grant hg⟩

end Moment

namespace Session

variable {s : Session} {step : Step} {k : Key .unit}

/-- What a step does to the marker of a unit. -/
inductive Counted (s : Session) (step : Step) (k : Key .unit) : Prop where
  | kept
      (hu : ((s.step step).session.world.units.get k).variant.usedDynamic =
        (s.world.units.get k).variant.usedDynamic)
      (hn : (s.world.units.get k).variant.phase = .request →
        ∀ r, Moment.fills ⟨s, step⟩ k r = false)
  | filled (b : Binding) (r : Resource) (h : Handle) (hm : Moment.gives? ⟨s, step⟩ = some h)
      (ha : s.attempt? step = some (.ofFetch b r)) (hc : s.world.Counts b k)
      (hu : ((s.step step).session.world.units.get k).variant.usedDynamic = true)
  | switched (source : Source .draft) (a : Attempt) (hr : s.Reads (.draft source a.binding))
      (ha : s.attempt? step = some a) (hs : a.use = .mutation) (hc : s.world.Counts a.binding k)
      (hd : ∃ x, (s.step step).reply = .answer x)
      (hu : ((s.step step).session.world.units.get k).variant.usedDynamic = true)

theorem not_fills_of_no_give (hm : Moment.gives? ⟨s, step⟩ = none) (r : Resource) :
    Moment.fills ⟨s, step⟩ k r = false := by
  refine Bool.eq_false_iff.mpr fun hf => ?_
  obtain ⟨h, b, hg, -⟩ := Moment.gives_of_fills hf
  cases hm.symm.trans hg

theorem counted_use {u : Use} (hu : s.use? step = some u)
    (hd : (s.world.decide u.value u.call).result = .ok ())
    (h : s.step step = s.answered (s.world.use u)) (hm : Moment.gives? ⟨s, step⟩ = none) :
    s.Counted step k := by
  have hworld : (s.step step).session.world = (s.world.use u).world := by
    rw [h]
    rfl
  have hused := World.usedDynamic_use hd k
  rw [← hworld] at hused
  rcases World.decide_usedDynamic hd k with hsame | ⟨a, ha, hc, hmark⟩
  · exact .kept (hused.trans hsame) fun _ r => not_fills_of_no_give hm r
  · obtain ⟨source, call, hv, hcall, hswitch⟩ := Value.of_attempt ha
    refine .switched source a (hv ▸ use_reads hu) ((step_use hu).2.trans ha) ?_ hc ?_
      (hused.trans hmark)
    · rw [hswitch]
      rfl
    · obtain ⟨x, hx⟩ := World.perform_draft
        ((s.world.decide u.value u.call).world.seen u).1 u.value call
      have hresult : (s.world.use u).result = .ok x := by
        rw [← hcall] at hx
        rw [(World.use_ok hd).2, hx]
        rfl
      refine ⟨x, ?_⟩
      rw [h]
      simp only [answered, hresult]

theorem counted (s : Session) (step : Step) (k : Key .unit) : s.Counted step k := by
  cases hm : Moment.gives? ⟨s, step⟩ with
  | some h =>
    obtain ⟨b, r, ha, hg, -⟩ := Moment.gives_cases hm
    rcases hg.usedDynamic k with ⟨hsame, hc⟩ | ⟨hc, hu⟩
    · -- A fetch that fills the unit would count there.
      refine .kept hsame fun hv r' => Bool.eq_false_iff.mpr fun hf => ?_
      obtain ⟨h', b', hm', ha'⟩ := Moment.gives_of_fills hf
      have hattempt := Option.some.inj (ha.symm.trans ha')
      obtain rfl : b = b' := congrArg Attempt.binding hattempt
      obtain ⟨hstatic, hunit⟩ := (Moment.fills_of_gives hm' ha').mp hf
      exact hc ⟨hunit, hstatic, hv⟩
    · exact .filled b r h hm ha hc hu
  | none =>
    have same {w : World} (hw : (s.step step).session.world = w)
        (hu : (w.units.get k).variant = (s.world.units.get k).variant) : s.Counted step k :=
      .kept (by rw [hw, hu]) fun _ r => not_fills_of_no_give hm r
    cases s.effect step with
    | refused a e events w ha hr h =>
      refine .kept ?_ fun _ r => not_fills_of_no_give hm r
      rw [h]
      exact hr.usedDynamic k
    | given b r h ha hg hgives => cases hm.symm.trans hgives
    | used u hu hd h => exact counted_use hu hd h hm
    | listened h => exact same (listened_frame h) rfl
    | aborted key h | workDropped key h =>
      subst h
      exact same rfl rfl
    | unitDropped key h =>
      subst h
      refine same (w := s.world.dropUnit key) rfl ?_
      simp only [World.dropUnit, Table.get_modify]
      split
      · rename_i hk
        rw [hk]
      · rfl
    | hostJar key call h | hostHeaders key call h | hostDraft key call h =>
      subst h
      exact same (host_frame rfl) rfl

/-! ## Runs -/

/-- The marker of a live request, and why a switching of draft mode adds nothing to it: the value
was fetched on the unit before. -/
structure Tallied (run : List Moment) (s : Session) : Prop where
  used (k : Key .unit) (hk : (s.world.units.get k).variant.phase = .request) :
    (s.world.units.get k).variant.usedDynamic = true ↔ ∃ m ∈ run, ∃ r, m.fills k r = true
  drafts (source : Source .draft) (b : Binding) (hr : s.Reads (.draft source b))
    (hf : (s.world.works.get b.work).forceStatic = false) :
    ∃ m ∈ run, m.fills b.unit .draftMode = true

theorem phase_step (s : Session) (step : Step) (k : Key .unit) :
    ((s.step step).session.world.units.get k).variant.phase =
      (s.world.units.get k).variant.phase := by
  rw [← Variant.phase_asMade, ((s.step_evolves step).unit k).made, Variant.phase_asMade]

theorem fills_of_makes {b b' : Binding} {r : Resource} {h : Handle} {source : Source .draft}
    (hm : Moment.Makes ⟨s, step⟩ b' r h) (hv : h.state = .resolved (.draft source b))
    (hf : (s.world.works.get b.work).forceStatic = false) :
    Moment.fills ⟨s, step⟩ b.unit .draftMode = true := by
  have hmade : s.world.Makes b' r h := hm.made
  cases hmade with
  | blank hstatic =>
    cases r <;> cases hv
    exact absurd hstatic (Bool.eq_false_iff.mp hf)
  | remembered key state hstatic ho hn =>
    cases ho with
    | draft =>
      cases hv
      exact (Moment.fills_of_gives hm.gives hm.attempt).mpr ⟨hf, rfl⟩
    | _ => cases hv

theorem Tallied.snoc {run : List Moment} (hs : s.Tallied run) (step : Step) :
    Tallied (run ++ [⟨s, step⟩]) (s.step step).session where
  used k hk := by
    rw [phase_step] at hk
    have hbefore := hs.used k hk
    simp only [List.mem_append, List.mem_singleton, or_and_right, exists_or, exists_eq_left]
    cases s.counted step k with
    | kept hu hn =>
      rw [hu, hbefore]
      simp [hn hk]
    | filled b r h hm ha hc hu =>
      have hfills := (Moment.fills_of_gives (k := k) hm ha).mpr ⟨hc.forceStatic, hc.unit⟩
      exact iff_of_true hu (.inr ⟨r, hfills⟩)
    | switched source a hr ha hm hc hd hu =>
      -- The fetch that gave the value was on the same unit, and counts since.
      obtain ⟨m, hm, hfills⟩ := hs.drafts source a.binding hr hc.forceStatic
      rw [hc.unit] at hfills
      exact iff_of_true hu (.inl ⟨m, hm, .draftMode, hfills⟩)
  drafts source b hr hf := by
    rw [World.Evolves.forceStatic (s.step_evolves step)] at hf
    rcases reads_step hr with hold | ⟨b', r, h, hm, hv⟩
    · obtain ⟨m, hm, hfills⟩ := hs.drafts source b hold hf
      exact ⟨m, List.mem_append_left _ hm, hfills⟩
    · exact ⟨_, List.mem_append_right _ (List.mem_singleton.mpr rfl), fills_of_makes hm hv hf⟩

theorem Tallied.ofWorld {w : World} (hw : w.Fresh) : Tallied [] (Session.ofWorld w) where
  used k hk := by
    have hu := World.usedDynamic_of_untouched (hw.unit k).2
    simp [Session.ofWorld, hu]
  drafts source b hr hf := by
    cases hr with
    | value name hn => cases hn
    | handle h hh hv => exact absurd hh (not_holds_of_fresh hw)

end Session

namespace Moment

variable {m : Moment}

theorem usage_of_failed {a : Attempt} {e : AccessError} (ha : m.attempt? = some a)
    (hr : m.reply = .failed e) (k : Key .work) :
    m.usage? k = if a.work = k then e.bailout? else none := by
  simp only [usage?, ha, hr]

theorem bailsOut_of_failed {a : Attempt} {e : AccessError} (ha : m.attempt? = some a)
    (hr : m.reply = .failed e) (k : Key .unit) :
    m.bailsOut k = (a.unit = k && e.bailout?.isSome) := by
  simp only [bailsOut, ha, hr]

/-- Static generation is not given up for the attempt of a step, if it has one. -/
def GivesNothingUp (m : Moment) : Prop :=
  ∀ a e, m.attempt? = some a → m.reply = .failed e → e.bailout? = none

theorem GivesNothingUp.usage (h : m.GivesNothingUp) (k : Key .work) : m.usage? k = none := by
  unfold usage?
  split
  · rename_i a e ha hr
    rw [h a e ha hr, ite_self]
  · rfl

theorem GivesNothingUp.bailsOut (h : m.GivesNothingUp) (k : Key .unit) : m.bailsOut k = false := by
  unfold Moment.bailsOut
  split
  · rename_i a e ha hr
    rw [h a e ha hr]
    exact Bool.and_false _
  · rfl

theorem usage_step (m : Moment) (k : Key .work) :
    (m.after.session.world.works.get k).dynamicUsage =
      (m.usage? k).or (m.before.world.works.get k).dynamicUsage := by
  cases m.before.writes m.step with
  | recorded a e ha he hr h =>
    rw [usage_of_failed ha hr]
    exact h.usage k
  | nothing he h =>
    have hn : m.GivesNothingUp := fun a e _ hr => AccessError.bailout?_of_not_recorded (he e hr)
    rw [hn.usage]
    exact h.usage k

theorem period_step (m : Moment) (k : Key .unit) :
    (m.after.session.world.units.get k).variant.period? =
      if m.bailsOut k then some (some 0)
      else (m.before.world.units.get k).variant.period? := by
  cases m.before.writes m.step with
  | recorded a e ha he hr h =>
    rw [bailsOut_of_failed ha hr]
    exact h.period k
  | nothing he h =>
    have hn : m.GivesNothingUp := fun a e _ hr => AccessError.bailout?_of_not_recorded (he e hr)
    rw [hn.bailsOut]
    exact h.period k

theorem stays_used (m : Moment) (k : Key .unit)
    (h : (m.before.world.units.get k).variant.usedDynamic = true) :
    (m.after.session.world.units.get k).variant.usedDynamic = true := by
  cases m.before.counted m.step k with
  | kept hu _ => exact hu.trans h
  | filled _ _ _ _ _ _ hu | switched _ _ _ _ _ _ _ hu => exact hu

theorem GivesNothingUp.sameMarkers (h : m.GivesNothingUp)
    (hc : ∀ a k, m.attempt? = some a → m.before.world.Counts a.binding k →
      ∃ e, m.reply = .failed e) :
    m.before.world.SameMarkers m.after.session.world where
  used k := by
    cases m.before.counted m.step k with
    | kept hu _ => exact hu
    | filled b r x hm ha hcounts _ =>
      obtain ⟨e, he⟩ := hc _ k ha hcounts
      simp only [Moment.gives?] at hm
      split at hm
      · cases (he ▸ hm : (Reply.failed e).handle? = some x)
      · cases hm
    | switched source a _ ha _ hcounts hd _ =>
      obtain ⟨e, he⟩ := hc a k ha hcounts
      obtain ⟨x, hx⟩ := hd
      cases he.symm.trans hx
  period k := by rw [period_step, h.bailsOut, if_neg (by decide)]
  usage k := by rw [usage_step, h.usage, Option.none_or]

theorem step_of_draftFetch {b : Binding} (ha : m.attempt? = some (.ofFetch b .draftMode)) :
    ∃ c work unit saveAs, m.step = .fetch .draftMode c work unit saveAs := by
  rcases Session.attempt_cases ha with ⟨r, c, work, unit, saveAs, scope, hs, -, heq⟩ | ⟨-, hu⟩
  · obtain rfl : .draftMode = r := api_injective (congrArg Attempt.expression heq)
    exact ⟨c, work, unit, saveAs, hs⟩
  · cases hu

theorem Unmarked.sameMarkers (h : m.Unmarked) :
    m.before.world.SameMarkers m.after.session.world := by
  have quiet (ha : m.attempt? = none) : m.before.world.SameMarkers m.after.session.world :=
    GivesNothingUp.sameMarkers (fun a e hs => by cases ha.symm.trans hs)
      fun a k hs => by cases ha.symm.trans hs
  cases h with
  | draftRead b hu => exact quiet (Session.attempt_of_draftRead hu)
  | noAttempt ha => exact quiet ha
  | draftFetch b ha hv =>
    apply GivesNothingUp.sameMarkers
    · intro a e _ hr
      obtain ⟨s, step⟩ := m
      obtain ⟨c, work, unit, saveAs, hs⟩ := step_of_draftFetch ha
      change step = _ at hs
      subst hs
      exact AccessError.bailout?_of_not_recorded (Session.not_recorded_of_draftFetch hr)
    · intro a k ha' hc
      cases ha.symm.trans ha'
      exact absurd (hc.unit ▸ hc.phase) hv
  | forceStatic a ha hf =>
    apply GivesNothingUp.sameMarkers
    · intro a' e _ hr
      exact AccessError.bailout?_of_not_recorded (Session.not_recorded_of_static ha hf hr)
    · intro a' k ha' hc
      cases ha.symm.trans ha'
      exact absurd hf (Bool.eq_false_iff.mp hc.forceStatic)
  | refused e hr he =>
    apply GivesNothingUp.sameMarkers
    · intro a e' _ hr'
      cases hr.symm.trans hr'
      exact he
    · exact fun _ _ _ _ => ⟨e, hr⟩

theorem marks (m : Moment) : m.Marks where
  stays k h := m.stays_used k h
  bailout e hr he := by
    obtain ⟨a, ha, -⟩ := Session.refused_of_recorded hr (AccessError.isRecorded_of_bailout he)
    refine ⟨a, ha, ?_, ?_⟩
    · rw [usage_of_failed ha hr, if_pos rfl]
    · rw [bailsOut_of_failed ha hr, he]
      simp
  unmarked h := h.sameMarkers

end Moment

namespace Session

variable {w : World} {run : List Moment} {s : Session}

/-- Every run sums up in its markers. -/
structure Marked (w : World) (run : List Moment) (s : Session) : Prop where
  tallied : s.Tallied run
  phase (k : Key .unit) : (s.world.units.get k).variant.phase = (w.units.get k).variant.phase
  period (k : Key .unit) :
    (s.world.units.get k).variant.period? =
      if run.any (·.bailsOut k) then some (some 0) else (w.units.get k).variant.period?
  usage (k : Key .work) :
    (s.world.works.get k).dynamicUsage = (run.filterMap (·.usage? k)).getLast?

theorem Marked.ofWorld (hw : w.Fresh) : Marked w [] (Session.ofWorld w) where
  tallied := .ofWorld hw
  phase _ := rfl
  period _ := rfl
  usage k := (hw.work k).2.2

theorem Marked.snoc (hs : s.Marked w run) (step : Step) :
    Marked w (run ++ [⟨s, step⟩]) (s.step step).session where
  tallied := hs.tallied.snoc step
  phase k := (s.phase_step step k).trans (hs.phase k)
  period k := by
    have h : ((s.step step).session.world.units.get k).variant.period? = _ :=
      Moment.period_step ⟨s, step⟩ k
    rw [h, hs.period k, List.any_append]
    cases hb : Moment.bailsOut k ⟨s, step⟩ <;> simp [hb]
  usage k := by
    have h : ((s.step step).session.world.works.get k).dynamicUsage = _ :=
      Moment.usage_step ⟨s, step⟩ k
    rw [h, hs.usage k]
    cases hu : Moment.usage? k ⟨s, step⟩ <;> simp [hu]

/-- In every run from where nothing was asked for yet, the markers sum up the run: a live request
has used dynamic data if a fetch on it has succeeded under a work that is not force-static, a page
is never kept once static generation was given up on its unit, and a work tells the use for which
static generation was given up last. -/
theorem markers_sum_up (hw : w.Fresh) (steps : List Step) :
    let run := (Session.ofWorld w).moments steps
    ((Session.ofWorld w).run steps).1.SumsUp w run ∧ ∀ m ∈ run, m.Marks := by
  intro run
  have hs : Marked w run ((Session.ofWorld w).run steps).1 := by
    have h := run_with_moments (P := Marked w) (fun _ _ step h => h.snoc step)
      (Session.ofWorld w) []
      steps (.ofWorld hw)
    rwa [List.nil_append] at h
  refine ⟨⟨?_, ?_, hs.usage⟩, fun m _ => m.marks⟩
  · exact fun k hk => hs.tallied.used k ((hs.phase k).trans hk)
  · intro k r hk hr
    have hperiod : periodOf r = r := by
      unfold periodOf
      split
      · rename_i seconds
        rw [if_neg fun h => hr (congrArg some h)]
      · rfl
    rw [hs.period k, hk, hperiod, Variant.period?]
    split <;> rfl

/-- Static generation is given up twice for one page, and the later use is the one that is told. -/
theorem markers_sum_up_of_two_uses :
    let w : World :=
      { works := ⟨[{ route := "/" }]⟩
        units := ⟨[{ variant := .prerenderLegacy (periodOf (some 60)) },
          { variant := .request { cookies := ⟨0⟩, mutableCookies := ⟨0⟩, headers := ⟨0⟩ } }]⟩ }
    let steps : List Step :=
      [.fetch .draftMode ⟨0⟩ (some ⟨0⟩) (some ⟨1⟩) none,
        .fetch .draftMode ⟨0⟩ (some ⟨0⟩) (some ⟨0⟩) (some "d"), .callHandle "d" (.draft .enable),
        .fetch .headers ⟨0⟩ (some ⟨0⟩) (some ⟨0⟩) none]
    let s := ((ofWorld w).run steps).1
    w.Fresh ∧ (s.world.units.get ⟨1⟩).variant.usedDynamic = true ∧
      (s.world.units.get ⟨0⟩).variant.period? = some (some 0) ∧
      (s.world.works.get ⟨0⟩).dynamicUsage = some "headers" := by
  intro w steps s
  have hw : w.Fresh := by
    refine fresh_of_rows w ?_ ?_ rfl
    · intro work hwork
      rw [List.mem_singleton.mp hwork]
      exact ⟨rfl, rfl, rfl⟩
    · intro u hu
      rcases List.mem_cons.mp hu with rfl | hu
      · exact ⟨rfl, rfl⟩
      · rw [List.mem_singleton.mp hu]
        exact ⟨rfl, rfl⟩
  obtain ⟨hsum, -⟩ := markers_sum_up hw steps
  refine ⟨hw, ?_, ?_, ?_⟩
  · rw [hsum.used ⟨1⟩ rfl]
    exact ⟨_, .head _, .draftMode, by decide +kernel⟩
  · rw [hsum.period ⟨0⟩ (some 60) rfl (by decide)]
    decide +kernel
  · rw [hsum.usage ⟨0⟩]
    decide +kernel

end Session

end RequestAccess
