import RequestAccess.Proofs.Records

/-!
# The audit trail

A tracking log holds the expressions of the errors that have ended a prerender attached to it, in
the order they were answered. Nothing else was added to it.
-/

namespace RequestAccess

/-! ## The trail of a run -/

/-- The log that a unit is attached to. -/
def Variant.log? : Variant → Option (Key .log)
  | .prerender p | .prerenderClient p | .prerenderRuntime p => p.log
  | .prerenderPartial log => some log
  | _ => none

/-- The expression that an error leaves in a log. -/
def AccessError.logged? : AccessError → Option String
  | .postponed p => some p.expression
  | .prerenderInterrupted _ expression => some expression
  | _ => none

/-- What an attempt that ends in an error adds to a log. -/
def World.note? (w : World) (log : Key .log) (a : Attempt) (e : AccessError) : Option String :=
  if (w.unitOf a).variant.log? = some log then e.logged? else none

def Tracking.noting (t : Tracking) (note? : Option String) : Tracking :=
  note?.elim t fun expression => t.record { expression }

namespace Moment

def note? (log : Key .log) (m : Moment) : Option String :=
  match m.attempt?, m.reply with
  | some a, .failed e => m.before.world.note? log a e
  | _, _ => none

def logBefore (m : Moment) (log : Key .log) : Tracking := m.before.world.logs.get log

def logAfter (m : Moment) (log : Key .log) : Tracking := m.after.session.world.logs.get log

/-- The steps that add nothing to a log. -/
inductive Silent (m : Moment) (log : Key .log) : Prop where
  | draftRead (b : Binding) (hu : m.before.draftUse? m.step = some (b, .isEnabled))
  | draftFetch (c : Key .coordinator) (work : Option (Key .work)) (unit : Option (Key .unit))
      (saveAs : Option String) (h : m.step = .fetch .draftMode c work unit saveAs)
  | deferred (b : Binding) (r : Resource) (p : Prerender) (h : m.Defers b r p)
  | forceStatic (a : Attempt) (ha : m.attempt? = some a)
      (hf : (m.before.world.workOf a).forceStatic = true)
  | client (a : Attempt) (p : Prerender) (ha : m.attempt? = some a)
      (hv : (m.before.world.unitOf a).variant = .prerenderClient p)
  | elsewhere (h : ∀ a, m.attempt? = some a → (m.before.world.unitOf a).variant.log? ≠ some log)

/-- What a step does to a log. -/
structure Audited (m : Moment) (log : Key .log) : Prop where
  appends : (m.logBefore log).uses <+: (m.logAfter log).uses
  /-- Whether the signal of the dry run had fired before makes no difference. -/
  logged (e : AccessError) (expression : String) (hr : m.reply = .failed e)
    (he : e.logged? = some expression) :
    ∃ a, m.attempt? = some a ∧
      ((m.before.world.unitOf a).variant.log? = some log →
        (m.logAfter log).expressions = (m.logBefore log).expressions ++ [expression])
  silent (h : m.Silent log) : m.logAfter log = m.logBefore log

end Moment

/-- The expressions of the errors that a run has answered on units attached to a log. -/
def trail (log : Key .log) (run : List Moment) : List String := run.filterMap (·.note? log)

/-- The postponer of every coordinator is the one that keeps the tracking log. -/
def World.Tracks (w : World) : Prop := ∀ c, (w.coordinators.get c).postponer = .tracking

/-! ## Logs -/

namespace Tracking

@[simp] theorem noting_none (t : Tracking) : t.noting none = t := rfl

@[simp] theorem noting_some (t : Tracking) (expression : String) :
    t.noting (some expression) = t.record { expression } := rfl

theorem uses_noting (t : Tracking) (note? : Option String) :
    (t.noting note?).uses = t.uses ++ note?.toList.map fun expression =>
      ({ expression } : DynamicUse) := by
  cases note? <;> simp [record]

end Tracking

theorem Variant.log?_of_deferring {v : Variant} {p : Prerender} (h : v.deferring? = some p) :
    v.log? = p.log := by
  cases v <;> cases h <;> rfl

theorem AccessError.isRecorded_of_logged {e : AccessError} {expression : String}
    (h : e.logged? = some expression) : e.isRecorded = true := by
  cases e <;> cases h <;> rfl

theorem AccessError.logged?_of_not_recorded {e : AccessError} (h : e.isRecorded = false) :
    e.logged? = none := by
  cases e <;> first | rfl | cases h

namespace World

variable {w w' : World} {a : Attempt} {e : AccessError} {events : List Event}

theorem log_withRecord (w : World) (own log : Key .log) (expression : String) :
    (w.withRecord own expression).logs.get log =
      (w.logs.get log).noting (if own = log then some expression else none) := by
  simp only [withRecord, Table.get_modify]
  by_cases h : own = log
  · simp [h]
  · simp [h, Ne.symm h]

theorem Refused.logs (hr : w.Refused a e events w') (hp : w.Tracks) (log : Key .log) :
    w'.logs.get log = (w.logs.get log).noting (w.note? log a e) := by
  unfold note?
  cases hr with
  | missingStore | afterNotSupported _ | staticBailout _ | inClientComponent _ _ _
  | latched _ _ _ _ | latching _ _ _ | dynamicServer _ _ =>
    split <;> rfl
  | postponed own hv _ =>
    rw [log_withRecord, hv]
    simp [Variant.log?, AccessError.logged?, Postponement.standard]
  | postponedByHost own reason hv hh => cases (hp _).symm.trans hh
  | interrupted p hd =>
    rw [Variant.log?_of_deferring hd]
    cases hl : p.log with
    | none => rfl
    | some own =>
      change (w.withRecord own _).logs.get log = _
      rw [log_withRecord]
      simp [AccessError.logged?]

end World

/-! ## Steps -/

namespace Moment

variable {m : Moment} {log : Key .log}

theorem note?_of_failed {a : Attempt} {e : AccessError} (ha : m.attempt? = some a)
    (hr : m.reply = .failed e) : m.note? log = m.before.world.note? log a e := by
  simp only [note?, ha, hr]

theorem note?_of_not_recorded (he : ∀ e, m.reply = .failed e → e.isRecorded = false) :
    m.note? log = none := by
  unfold note?
  split
  · rename_i a e ha hr
    unfold World.note?
    rw [AccessError.logged?_of_not_recorded (he e hr), ite_self]
  · rfl

theorem logs_step (hp : m.before.world.Tracks) (log : Key .log) :
    m.logAfter log = (m.logBefore log).noting (m.note? log) := by
  cases m.before.writes m.step with
  | recorded a e ha he hr h =>
    rw [note?_of_failed ha hr]
    exact h.logs hp log
  | nothing he h =>
    rw [note?_of_not_recorded he]
    exact congrArg (·.get log) h.logs

theorem Silent.note? (h : m.Silent log) : m.note? log = none := by
  obtain ⟨s, step⟩ := m
  cases h with
  | draftRead b hu =>
    have ha : Moment.attempt? ⟨s, step⟩ = none := Session.attempt_of_draftRead hu
    simp only [Moment.note?, ha]
  | draftFetch c work unit saveAs h =>
    subst h
    exact note?_of_not_recorded fun e hr => Session.not_recorded_of_draftFetch hr
  | deferred b r p h =>
    exact note?_of_not_recorded fun e hr => Session.not_recorded_of_deferred h hr
  | forceStatic a ha hf =>
    exact note?_of_not_recorded fun e hr => Session.not_recorded_of_static ha hf hr
  | client a p ha hv =>
    exact note?_of_not_recorded fun e hr => Session.not_recorded_of_client ha hv hr
  | elsewhere h =>
    unfold Moment.note?
    split
    · rename_i a e ha hr
      exact if_neg (h a ha)
    · rfl

theorem audited (hp : m.before.world.Tracks) (log : Key .log) : m.Audited log where
  appends := by
    rw [logs_step hp, Tracking.uses_noting]
    exact List.prefix_append _ _
  logged e expression hr he := by
    obtain ⟨a, ha, -⟩ := Session.refused_of_recorded hr (AccessError.isRecorded_of_logged he)
    refine ⟨a, ha, fun hl => ?_⟩
    rw [logs_step hp, note?_of_failed ha hr, World.note?, if_pos hl, he]
    simp [Tracking.expressions, Tracking.record]
  silent h := by
    rw [logs_step hp, h.note?, Tracking.noting_none]

end Moment

/-! ## Runs -/

namespace Session

theorem tracks_step (s : Session) (step : Step) (hp : s.world.Tracks) :
    (s.step step).session.world.Tracks := by
  unfold World.Tracks
  rw [(s.step_evolves step).coordinators]
  exact hp

theorem run_trail (s : Session) (steps : List Step) (hp : s.world.Tracks) (log : Key .log) :
    ∃ added, ((s.run steps).1.world.logs.get log).uses = (s.world.logs.get log).uses ++ added ∧
      added.map (·.expression) = trail log (s.moments steps) := by
  induction steps generalizing s with
  | nil => exact ⟨[], by simp [run, moments, trail]⟩
  | cons step rest ih =>
    obtain ⟨added, huses, hexpressions⟩ := ih _ (s.tracks_step step hp)
    have hstep : (s.step step).session.world.logs.get log =
        (s.world.logs.get log).noting (Moment.note? log ⟨s, step⟩) :=
      Moment.logs_step (m := ⟨s, step⟩) hp log
    -- What the first step notes stands before what the rest add.
    rw [hstep, Tracking.uses_noting, List.append_assoc] at huses
    refine ⟨_, huses, ?_⟩
    rw [List.map_append, hexpressions]
    cases h : Moment.note? log ⟨s, step⟩ <;> simp [trail, moments, h]

/-- Under the tracking postponer, a log holds what it held before and, behind it, the expressions of
the errors that a run has answered on units attached to it. A step whose attempt is not of that kind
adds nothing. -/
theorem log_is_audit_trail (s : Session) (hp : s.world.Tracks) (steps : List Step)
    (log : Key .log) :
    (∃ added, ((s.run steps).1.world.logs.get log).uses = (s.world.logs.get log).uses ++ added ∧
        added.map (·.expression) = trail log (s.moments steps)) ∧
      ∀ m ∈ s.moments steps, m.Audited log := by
  refine ⟨s.run_trail steps hp log, ?_⟩
  intro m hm
  exact Moment.audited (moments_keep (P := fun s => s.world.Tracks) tracks_step hp hm) log

/-- Two prerenders share a log. The second switching of draft mode finds the signal fired, and is in
the log all the same. -/
theorem log_is_audit_trail_of_two_prerenders :
    let w : World :=
      { works := ⟨[{ route := "/" }]⟩
        logs := ⟨[⟨[{ expression := "headers" }]⟩]⟩
        units := ⟨[{ variant := .prerenderPartial ⟨0⟩ },
          { variant := .prerender { signal := ⟨0⟩, log := some ⟨0⟩ } }]⟩ }
    let steps : List Step :=
      [.fetch .draftMode ⟨0⟩ (some ⟨0⟩) (some ⟨1⟩) (some "d"), .callHandle "d" (.draft .enable),
        .fetch .cookies ⟨0⟩ (some ⟨0⟩) (some ⟨1⟩) none,
        .fetch .cookies ⟨0⟩ (some ⟨0⟩) (some ⟨0⟩) none, .callHandle "d" (.draft .disable)]
    w.Tracks ∧ (((ofWorld w).run steps).1.world.logs.get ⟨0⟩).expressions =
      ["headers", "`draftMode().enable()`", "cookies", "`draftMode().disable()`"] := by
  intro w steps
  have hp : (ofWorld w).world.Tracks := fun _ => rfl
  obtain ⟨⟨added, huses, htrail⟩, -⟩ := log_is_audit_trail (ofWorld w) hp steps ⟨0⟩
  refine ⟨hp, ?_⟩
  rw [Tracking.expressions, huses, List.map_append, htrail]
  decide +kernel

end Session

end RequestAccess
