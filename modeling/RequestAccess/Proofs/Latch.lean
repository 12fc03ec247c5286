import RequestAccess.Proofs.Memory

/-!
# The latch of a work

The first use of dynamic data in a cache scope is the only one for which a work builds an error. The
work keeps it, and answers every later such use with it.
-/

namespace RequestAccess

/-! ## Errors of a run -/

def Reply.usageError? : Reply → Option UsageError
  | .failed (.invalidDynamicUsage e) => some e
  | _ => none

theorem Reply.usageError?_eq_some {r : Reply} {e : UsageError} :
    r.usageError? = some e ↔ r = .failed (.invalidDynamicUsage e) := by
  unfold usageError?
  split <;> simp_all

/-- The error that a step is answered with, if it is a use in a cache scope decided against a
work. -/
def Moment.usageError? (k : Key .work) (m : Moment) : Option UsageError :=
  match m.attempt? with
  | some a => if a.work = k then m.reply.usageError? else none
  | none => none

/-- The errors of a work that a run has answered with, in their order. -/
def usageErrors (k : Key .work) (run : List Moment) : List UsageError :=
  run.filterMap (·.usageError? k)

/-- The step is a use in a cache scope, and the error is the one that is built for it. -/
def Moment.Builds (k : Key .work) (m : Moment) (e : UsageError) : Prop :=
  ∃ a scope, m.attempt? = some a ∧ a.work = k ∧
    (m.before.world.unitOf a).variant.phase.cacheScope? = some scope ∧
    e = m.before.world.ownError a scope

/-! ## What leaves latches -/

namespace World

/-- A change after which every work has the latch that it had, and has built no error. -/
def KeepsLatches (w w' : World) : Prop :=
  ∀ k, (w'.works.get k).latch = (w.works.get k).latch ∧
    (w'.works.get k).errorsBuilt = (w.works.get k).errorsBuilt

variable {w w' : World}

theorem keepsLatches_of_works (h : w'.works = w.works) : w.KeepsLatches w' := by
  intro k
  rw [h]
  exact ⟨rfl, rfl⟩

theorem keepsLatches_set_work (k : Key .work) {work : Work}
    (h : work.latch = (w.works.get k).latch ∧ work.errorsBuilt = (w.works.get k).errorsBuilt) :
    w.KeepsLatches { w with works := w.works.set k work } :=
  Table.forall_set (P := fun j (new : Work) => new.latch = (w.works.get j).latch ∧
    new.errorsBuilt = (w.works.get j).errorsBuilt) h fun _ => ⟨rfl, rfl⟩

theorem memoize_works (w : World) (unit : Key .unit) (r : Resource) (key : MemoKey)
    (state : HandleState) (guard? : Option Guard) :
    (w.memoize unit r key state guard?).1.works = w.works := by
  unfold memoize
  cases hk : (w.units.get unit).handles.get? (r, key) <;> simp [hk]

theorem Given.keepsLatches {b : Binding} {r : Resource} {h : Handle} (hg : w.Given b r h w') :
    w.KeepsLatches w' := by
  cases hg with
  | blank hf => exact keepsLatches_set_work b.work ⟨rfl, rfl⟩
  | live q hf hv hp =>
    subst hp
    exact keepsLatches_of_works (memoize_works _ _ _ _ _ _)
  | untracked state hf hv hk hs hp =>
    subst hp
    exact keepsLatches_of_works (memoize_works _ _ _ _ _ _)

theorem Refused.latches {a : Attempt} {e : AccessError} {events : List Event}
    (h : w.Refused a e events w') (k : Key .work) :
    (∃ own scope, e = .invalidDynamicUsage own ∧ a.work = k ∧ own = w.ownError a scope ∧
        (w.unitOf a).variant.phase.cacheScope? = some scope ∧
        (w.works.get k).latch = none ∧ (w'.works.get k).latch = some own ∧
        (w'.works.get k).errorsBuilt = (w.works.get k).errorsBuilt + 1) ∨
      ((w'.works.get k).latch = (w.works.get k).latch ∧
        (w'.works.get k).errorsBuilt = (w.works.get k).errorsBuilt ∧
        ∀ own, e = .invalidDynamicUsage own → a.work = k → (w.works.get k).latch = some own) := by
  cases h with
  | missingStore | afterNotSupported _ | staticBailout _ | inClientComponent _ _ _
  | postponedByHost _ _ _ _ => exact .inr ⟨rfl, rfl, fun _ he => by cases he⟩
  | postponed log _ _ => exact .inr ⟨rfl, rfl, fun _ he => by cases he⟩
  | interrupted p _ => cases hl : p.log <;> exact .inr ⟨rfl, rfl, fun _ he => by cases he⟩
  | latched old scope hl hs =>
    refine .inr ⟨rfl, rfl, ?_⟩
    intro own ho hk
    cases ho
    exact hk ▸ hl
  | dynamicServer period hv =>
    have hkeep : w.KeepsLatches (w.withBailout a.work a.unit a.expression) :=
      keepsLatches_set_work a.work ⟨rfl, rfl⟩
    exact .inr ⟨(hkeep k).1, (hkeep k).2, fun _ he => by cases he⟩
  | latching scope hl hs =>
    by_cases hk : a.work = k
    · subst hk
      refine .inl ⟨w.ownError a scope, scope, rfl, rfl, rfl, hs, hl, ?_, ?_⟩ <;> simp [withLatch]
    · refine .inr ⟨?_, ?_, fun _ _ hw => absurd hw hk⟩ <;> simp [withLatch, Ne.symm hk]

end World

/-! ## Steps -/

namespace Session

/-- A step that leaves every latch, and answers with none of the errors in them. -/
def After.Quiet (s : Session) (a : After) : Prop :=
  s.world.KeepsLatches a.session.world ∧ a.reply.usageError? = none

/-- What a step is, for the latches: an attempt that is refused, or nothing to them. -/
inductive Stepped (s : Session) (step : Step) : Prop where
  | refused (a : Attempt) (e : AccessError) (events : List Event) (w : World)
      (ha : s.attempt? step = some a) (hr : s.world.Refused a e events w)
      (h : s.step step = { session := { s with world := w }, events, reply := .failed e })
  | quiet (h : (s.step step).Quiet s)

variable {s : Session}

theorem quiet_of_works {a : After} (hw : a.session.world.works = s.world.works)
    (hr : a.reply.usageError? = none) : a.Quiet s :=
  ⟨World.keepsLatches_of_works hw, hr⟩

theorem quiet_unknown (s : Session) : s.unknown.Quiet s := quiet_of_works rfl rfl

/-! ## Fetches and calls -/

theorem stepped_answered {step : Step} (call : Call) {o : Outcome (Except AccessError Answer)}
    (h : s.step step = s.answered o) (hc : s.world.Called (s.attempt? step) call o) :
    s.Stepped step := by
  cases hc with
  | refused a e events after ha hr => exact .refused a e events after ha hr h
  | carried v before hk hr =>
    refine .quiet ?_
    rw [h]
    refine quiet_of_works hk.works ?_
    simp only [answered, hr]
    cases (before.perform v call).2 <;> rfl
  | early route expression api ha =>
    refine .quiet ?_
    rw [h]
    exact quiet_of_works rfl rfl

theorem stepped_fetch (s : Session) (r : Resource) (c : Key .coordinator)
    (work : Option (Key .work)) (unit : Option (Key .unit)) (saveAs : Option String) :
    s.Stepped (.fetch r c work unit saveAs) := by
  have hf := s.fetch_fetched r c work unit saveAs
  generalize hs : s.fetch r c work unit saveAs = after at hf
  cases hf with
  | nowhere hc =>
    refine .quiet ?_
    rw [step, hs]
    exact quiet_of_works rfl rfl
  | refused scope e events w hc hr =>
    refine .refused (.ofFetch (scope.binding c) r) e events w ?_ hr hs
    simp [attempt?, hc]
  | given scope h events w hc hg =>
    refine .quiet ?_
    rw [step, hs]
    refine ⟨?_, rfl⟩
    cases saveAs <;> exact hg.keepsLatches

theorem stepped_callHandle (s : Session) (name : String) (call : Call) :
    s.Stepped (.callHandle name call) := by
  cases hn : s.handles.get? name with
  | none =>
    refine .quiet ?_
    simp only [step, withHandle, hn]
    exact quiet_unknown s
  | some h =>
    obtain ⟨hstep, hc⟩ := step_callHandle call hn
    exact stepped_answered call hstep hc

theorem stepped_callValue (s : Session) (name : String) (call : Call) :
    s.Stepped (.callValue name call) := by
  cases hn : s.values.get? name with
  | none =>
    refine .quiet ?_
    simp only [step, hn]
    exact quiet_unknown s
  | some v =>
    obtain ⟨hstep, hc⟩ := step_callValue call hn
    exact stepped_answered call hstep hc

/-! ## Awaiting -/

theorem poll_error {w : World} {f : Future} {e : AccessError}
    (h : (w.poll f).2.2 = some (.error e)) :
    ∃ route expression, e = .hangingPromiseRejection route expression := by
  unfold World.poll at h
  cases hs : f.handle.state with
  | resolved v => simp [hs] at h
  | pending r key route =>
    simp only [hs, Option.ite_none_right_eq_some] at h
    obtain ⟨-, h⟩ := h
    cases h
    exact ⟨_, _, rfl⟩

theorem works_forget (s : Session) (name : String) :
    (s.forget name).world.works = s.world.works := by
  unfold forget
  split
  · exact (s.world.keeps_dropFuture _).works
  · rfl

theorem quiet_asked {t : Session} (saveAs : Option String)
    {result : Option (Except AccessError Value)} (hw : t.world.works = s.world.works)
    (hr : ∀ e, result = some (.error e) → ∃ route expression,
      e = .hangingPromiseRejection route expression) :
    (t.asked saveAs result).Quiet s := by
  unfold asked
  split
  · exact quiet_of_works hw rfl
  · refine quiet_of_works ?_ rfl
    cases saveAs <;> exact hw
  · obtain ⟨route, expression, rfl⟩ := hr _ rfl
    exact quiet_of_works hw rfl

theorem quiet_poll (s : Session) (name : String) (f : Future) (saveAs : Option String) :
    (s.poll name f saveAs).Quiet s := by
  have hp := (s.world.keeps_poll f).works
  simp only [Session.poll]
  refine quiet_asked saveAs ?_ fun e => poll_error
  split
  · exact (works_forget _ name).trans hp
  · exact hp

/-! ## Every step -/

theorem stepped (s : Session) (step : Step) : s.Stepped step := by
  cases step with
  | fetch r c work unit saveAs => exact s.stepped_fetch r c work unit saveAs
  | callHandle name call => exact s.stepped_callHandle name call
  | callValue name call => exact s.stepped_callValue name call
  | now name saveAs =>
    refine .quiet (withHandle_of (fun h _ => ?_) (quiet_unknown s))
    exact quiet_asked saveAs (s.world.keeps_pollOnce h s.nextWaker).works fun e => poll_error
  | start name future =>
    refine .quiet (withHandle_of (fun h _ => ?_) (quiet_unknown s))
    exact quiet_of_works (s.works_forget future) rfl
  | poll name saveAs =>
    refine .quiet ?_
    simp only [Session.step]
    split
    · exact s.quiet_poll name _ saveAs
    · exact quiet_unknown s
  | clone name saveAs =>
    exact .quiet (withHandle_of (fun h _ => quiet_of_works rfl rfl) (quiet_unknown s))
  | abort key | dropUnit key => exact .quiet (quiet_of_works rfl rfl)
  | dropWork key => exact .quiet ⟨World.keepsLatches_set_work key ⟨rfl, rfl⟩, rfl⟩
  | dropHandle name | dropValue name => exact .quiet (quiet_of_works rfl rfl)
  | dropFuture name => exact .quiet (quiet_of_works (s.works_forget name) rfl)
  | callJar key call =>
    refine .quiet (quiet_of_works (s.world.keeps_callJar (.shared key) call).works ?_)
    simp only [Session.step, stored]
    split <;> rfl
  | callHeaders key call =>
    refine .quiet (quiet_of_works (s.world.keeps_callHeaders (.shared key) call).works ?_)
    simp only [Session.step, stored]
    split <;> rfl
  | callDraft key call =>
    exact .quiet (quiet_of_works (s.world.keeps_callDraft (.shared key) call).works rfl)

end Session

/-! ## Moments -/

namespace Moment

def workBefore (m : Moment) (k : Key .work) : Work := m.before.world.works.get k

def workAfter (m : Moment) (k : Key .work) : Work := m.after.session.world.works.get k

variable {m : Moment} {k : Key .work} {e : UsageError}

theorem usageError?_eq_some :
    m.usageError? k = some e ↔
      ∃ a, m.attempt? = some a ∧ a.work = k ∧ m.reply = .failed (.invalidDynamicUsage e) := by
  unfold usageError?
  cases ha : m.attempt? with
  | none => simp
  | some a => simp [Reply.usageError?_eq_some]

/-- An error of a work is what the latch of the work says afterwards. It is built where the latch
was empty, and nowhere else. -/
theorem latch_of_usageError (h : m.usageError? k = some e) :
    (m.workAfter k).latch = some e ∧
      ((m.workBefore k).latch = some e ∧
          (m.workAfter k).errorsBuilt = (m.workBefore k).errorsBuilt ∨
        (m.workBefore k).latch = none ∧ m.Builds k e ∧
          (m.workAfter k).errorsBuilt = (m.workBefore k).errorsBuilt + 1) := by
  obtain ⟨a, ha, hk, hr⟩ := usageError?_eq_some.mp h
  cases m.before.stepped m.step with
  | quiet hq =>
    have hnone : m.reply.usageError? = none := hq.2
    simp [hr, Reply.usageError?] at hnone
  | refused a' e' events w ha' href hs =>
    cases ha.symm.trans ha'
    unfold reply after at hr
    unfold workAfter workBefore after
    rw [hs] at hr ⊢
    cases hr
    rcases href.latches k with ⟨own, scope, ho, -, hown, hscope, hnone, hsome, hbuilt⟩ | hkept
    · cases ho
      exact ⟨hsome, .inr ⟨hnone, ⟨a, scope, ha, hk, hscope, hown⟩, hbuilt⟩⟩
    · obtain ⟨hl, hb, hown⟩ := hkept
      have hbefore := hown e rfl hk
      exact ⟨hl.trans hbefore, .inl ⟨hbefore, hb⟩⟩

theorem latch_of_no_usageError (h : m.usageError? k = none) :
    (m.workAfter k).latch = (m.workBefore k).latch ∧
      (m.workAfter k).errorsBuilt = (m.workBefore k).errorsBuilt := by
  unfold workAfter workBefore after
  cases m.before.stepped m.step with
  | quiet hq => exact hq.1 k
  | refused a e events w ha href hs =>
    rw [hs]
    rcases href.latches k with ⟨own, scope, ho, hk, -⟩ | ⟨hl, hb, -⟩
    · have hr : m.reply = .failed (.invalidDynamicUsage own) := by
        unfold reply after
        rw [hs, ho]
      rw [usageError?_eq_some.mpr ⟨a, ha, hk, hr⟩] at h
      cases h
    · exact ⟨hl, hb⟩

end Moment

/-! ## Runs -/

section Runs

variable {k : Key .work} {e : UsageError}

theorem usageErrors_cons (m : Moment) (run : List Moment) :
    usageErrors k (m :: run) = (m.usageError? k).toList ++ usageErrors k run := by
  unfold usageErrors
  cases h : m.usageError? k <;> simp [h]

theorem run_latched (s : Session) (steps : List Step) (h : (s.world.works.get k).latch = some e) :
    ((s.run steps).1.world.works.get k).latch = some e ∧
      ((s.run steps).1.world.works.get k).errorsBuilt = (s.world.works.get k).errorsBuilt ∧
      (∀ own ∈ usageErrors k (s.moments steps), own = e) ∧
      ∀ m ∈ s.moments steps, (m.workAfter k).latch = some e := by
  -- On the steps: one answers with the error that the work has, or leaves the work alone.
  induction steps generalizing s with
  | nil => exact ⟨h, rfl, by simp [Session.moments, usageErrors], by simp [Session.moments]⟩
  | cons step rest ih =>
    have hstep : ((⟨s, step⟩ : Moment).workAfter k).latch = some e ∧
        ((⟨s, step⟩ : Moment).workAfter k).errorsBuilt = (s.world.works.get k).errorsBuilt ∧
        ∀ own, Moment.usageError? k ⟨s, step⟩ = some own → own = e := by
      cases hm : Moment.usageError? k ⟨s, step⟩ with
      | none =>
        obtain ⟨hl, hb⟩ := Moment.latch_of_no_usageError hm
        exact ⟨hl.trans h, hb, by simp⟩
      | some own =>
        obtain ⟨hafter, ⟨hbefore, hb⟩ | ⟨hnone, -⟩⟩ := Moment.latch_of_usageError hm
        · have heq : own = e := Option.some.inj (hbefore.symm.trans h)
          refine ⟨heq ▸ hafter, hb, ?_⟩
          rintro _ ⟨⟩
          exact heq
        · cases hnone.symm.trans h
    obtain ⟨hafter, hb, herr⟩ := hstep
    obtain ⟨hlast, hbuilt, hall, hmoments⟩ := ih _ hafter
    refine ⟨hlast, hbuilt.trans hb, ?_, ?_⟩
    · intro own hown
      rw [Session.moments, usageErrors_cons, List.mem_append, Option.mem_toList] at hown
      rcases hown with hown | hown
      · exact herr own hown
      · exact hall own hown
    · intro m hm
      rcases List.mem_cons.mp hm with rfl | hm
      · exact hafter
      · exact hmoments m hm

/-- What the errors of a work come to over a run. -/
structure LatchLaw (k : Key .work) (run : List Moment) (work : Work) : Prop where
  /-- The work has the first error, or none if there was none. -/
  first : work.latch = (usageErrors k run).head?
  /-- Every error is the one that the work has. -/
  same (e : UsageError) (he : e ∈ usageErrors k run) : work.latch = some e
  /-- No other error was ever built. -/
  built : work.errorsBuilt = work.latch.toList.length
  /-- The error was built for the step that it answered first. Before the step the work had none,
  and it has the error from then on. -/
  origin (e : UsageError) (he : work.latch = some e) :
    ∃ earlier m later, run = earlier ++ m :: later ∧
      (usageErrors k earlier = [] ∧ ∀ x ∈ earlier, (x.workAfter k).latch = none) ∧
      (m.usageError? k = some e ∧ m.Builds k e) ∧ ∀ x ∈ m :: later, (x.workAfter k).latch = some e

theorem run_latchLaw (s : Session) (steps : List Step)
    (hl : (s.world.works.get k).latch = none) (hb : (s.world.works.get k).errorsBuilt = 0) :
    LatchLaw k (s.moments steps) ((s.run steps).1.world.works.get k) := by
  -- On the steps up to the first error. From there on `run_latched` has the rest.
  induction steps generalizing s with
  | nil =>
    refine ⟨hl, ?_, ?_, ?_⟩
    · simp [Session.moments, usageErrors]
    · simp [Session.run, hl, hb]
    · simp [Session.run, hl]
  | cons step rest ih =>
    rw [Session.moments]
    cases hm : Moment.usageError? k ⟨s, step⟩ with
    | none =>
      obtain ⟨hl', hb'⟩ := Moment.latch_of_no_usageError hm
      have hnone := hl'.trans hl
      have law := ih _ hnone (hb'.trans hb)
      have herrors (run : List Moment) : usageErrors k (⟨s, step⟩ :: run) = usageErrors k run := by
        simp [usageErrors_cons, hm]
      refine ⟨?_, ?_, law.built, ?_⟩
      · rw [herrors]
        exact law.first
      · rw [herrors]
        exact law.same
      · intro e he
        obtain ⟨earlier, m, later, hrun, ⟨hearlier, hall⟩, hfirst, hlater⟩ := law.origin e he
        refine ⟨⟨s, step⟩ :: earlier, m, later, congrArg (_ :: ·) hrun, ⟨?_, ?_⟩, hfirst, hlater⟩
        · rw [herrors, hearlier]
        · exact List.forall_mem_cons.mpr ⟨hnone, hall⟩
    | some e =>
      obtain ⟨hafter, ⟨hbefore, -⟩ | ⟨-, hbuilds, hb'⟩⟩ := Moment.latch_of_usageError hm
      · cases hl.symm.trans hbefore
      · obtain ⟨hlast, hbuilt, hall, hmoments⟩ := run_latched _ rest hafter
        have hlatch : ((s.run (step :: rest)).1.world.works.get k).latch = some e := hlast
        have hone : ((s.run (step :: rest)).1.world.works.get k).errorsBuilt = 1 :=
          hbuilt.trans (hb'.trans (congrArg (· + 1) hb))
        refine ⟨?_, ?_, ?_, ?_⟩
        · simp [hlatch, usageErrors_cons, hm]
        · intro own hown
          rw [usageErrors_cons, hm, List.mem_append, Option.mem_toList] at hown
          rcases hown with hown | hown
          · exact hlatch.trans hown
          · rw [hlatch, hall own hown]
        · simp [hlatch, hone]
        · intro own hown
          cases hlatch.symm.trans hown
          refine ⟨[], ⟨s, step⟩, _, rfl, ⟨rfl, by simp⟩, ⟨hm, hbuilds⟩, ?_⟩
          exact List.forall_mem_cons.mpr ⟨hafter, hmoments⟩

end Runs

/-! ## The law -/

theorem latch_of_other_work {m : Moment} {k : Key .work}
    (h : ∀ a, m.attempt? = some a → a.work ≠ k) :
    (m.workAfter k).latch = (m.workBefore k).latch := by
  refine (Moment.latch_of_no_usageError ?_).1
  cases hm : m.usageError? k with
  | none => rfl
  | some e =>
    obtain ⟨a, ha, hk, -⟩ := Moment.usageError?_eq_some.mp hm
    exact absurd hk (h a ha)

theorem usageError_of_reply {m : Moment} {e : UsageError}
    (h : m.reply = .failed (.invalidDynamicUsage e)) :
    ∃ a, m.attempt? = some a ∧ m.usageError? a.work = some e := by
  cases m.before.stepped m.step with
  | quiet hq =>
    have hnone : m.reply.usageError? = none := hq.2
    simp [h, Reply.usageError?] at hnone
  | refused a e' events w ha href hs =>
    exact ⟨a, ha, Moment.usageError?_eq_some.mpr ⟨a, ha, rfl, h⟩⟩

/-- From a session in which a work has met no error, every run answers the uses in cache scopes that
are decided against the work with one error: the one built for the first of them. The work has it
from then on, and what is decided elsewhere neither sets nor changes it. -/
theorem work_latches_first_error (s : Session) (k : Key .work) (steps : List Step)
    (hl : (s.world.works.get k).latch = none) (hb : (s.world.works.get k).errorsBuilt = 0) :
    LatchLaw k (s.moments steps) ((s.run steps).1.world.works.get k) ∧
      (∀ m ∈ s.moments steps, ∀ e, m.reply = .failed (.invalidDynamicUsage e) →
        ∃ a, m.attempt? = some a ∧ m.usageError? a.work = some e) ∧
      ∀ m ∈ s.moments steps, (∀ a, m.attempt? = some a → a.work ≠ k) →
        (m.workAfter k).latch = (m.workBefore k).latch :=
  ⟨run_latchLaw s steps hl hb, fun _ _ _ => usageError_of_reply, fun _ _ => latch_of_other_work⟩

/-- A read in a cache scope, and later a switching of draft mode in a private one. -/
theorem work_latches_first_error_of_two :
    let w : World :=
      { works := ⟨[{ route := "/" }]⟩
        units := ⟨[{ variant := .cache none }, { variant := .privateCache ⟨0⟩ ⟨0⟩ none }]⟩ }
    let steps : List Step :=
      [.fetch .cookies ⟨0⟩ (some ⟨0⟩) (some ⟨0⟩) none,
        .fetch .draftMode ⟨0⟩ (some ⟨0⟩) (some ⟨1⟩) (some "d"),
        .callHandle "d" (.draft .enable)]
    let e : UsageError :=
      { work := ⟨0⟩, serial := 0, use := .read, route := "/", expression := "cookies",
        scope := .useCache }
    usageErrors ⟨0⟩ ((Session.ofWorld w).moments steps) = [e, e] ∧
      (((Session.ofWorld w).run steps).1.world.works.get ⟨0⟩).latch = some e := by
  intro w steps e
  have herrors : usageErrors ⟨0⟩ ((Session.ofWorld w).moments steps) = [e, e] := by decide +kernel
  have law := (work_latches_first_error (.ofWorld w) ⟨0⟩ steps rfl rfl).1
  exact ⟨herrors, law.first.trans (herrors ▸ rfl)⟩

end RequestAccess
