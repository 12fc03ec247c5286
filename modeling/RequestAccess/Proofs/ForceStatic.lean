import RequestAccess.Proofs.Alike
import RequestAccess.Proofs.EmptyResource

/-!
# Force-static works

What is asked for under a force-static work reads as empty. It changes no unit and shows nothing of
one, except that draft mode cannot be switched after a response.
-/

namespace RequestAccess

/-! ## Scripts -/

/-- Where a script is carried out: a world, a work in it and the units that the script is made
under. -/
structure Venue where
  world : World
  work : Key .work
  unit : Nat → Key .unit

/-- A force-static work with live units. Nothing else is asked of the work or of the units. -/
structure Venue.IsStatic (v : Venue) : Prop where
  forceStatic : (v.world.works.get v.work).forceStatic = true
  alive : (v.world.works.get v.work).alive = true
  unit (i : Nat) : (v.world.units.get (v.unit i)).alive = true

/-- What is done under a work: fetches, awaits and calls, and the keeping of what they give. -/
inductive Act where
  | fetch (r : Resource) (coordinator : Key .coordinator) (unit : Nat) (saveAs : Option String)
  | callHandle (handle : String) (call : Call)
  | callValue (value : String) (call : Call)
  | now (handle : String) (saveAs : Option String)
  | start (handle future : String)
  | poll (future : String) (saveAs : Option String)
  | clone (handle saveAs : String)
  | dropHandle (handle : String)
  | dropValue (value : String)
  | dropFuture (future : String)

def Act.step (v : Venue) : Act → Step
  | .fetch r c i saveAs => .fetch r c (some v.work) (some (v.unit i)) saveAs
  | .callHandle name call => .callHandle name call
  | .callValue name call => .callValue name call
  | .now name saveAs => .now name saveAs
  | .start name future => .start name future
  | .poll name saveAs => .poll name saveAs
  | .clone name saveAs => .clone name saveAs
  | .dropHandle name => .dropHandle name
  | .dropValue name => .dropValue name
  | .dropFuture name => .dropFuture name

namespace Venue

variable (v : Venue)

/-- The session that a script starts in. -/
def opened : Session := .ofWorld v.world

def moments (acts : List Act) : List Moment := v.opened.moments (acts.map (·.step v))

/-- The world after so many fetches: the work has counted them, and nothing else has changed. -/
def after (n : Nat) : World :=
  let work := v.world.works.get v.work
  { v.world with
    works := v.world.works.set v.work { work with detached := work.detached + n } }

end Venue

/-! ## What is shown -/

/-- The switching of draft mode that a step is, if it is one. -/
def Moment.switch? (m : Moment) : Option Attempt := m.attempt?.filter fun a => a.use = .mutation

/-- The step switches draft mode. It is refused if the response was sent, and does nothing
otherwise. -/
def Moment.SwitchesNothing (m : Moment) : Prop :=
  ∃ a, m.switch? = some a ∧
    m.reply =
      if (m.before.world.unitOf a).variant.isAfter then
        .failed (.afterNotSupported (m.before.world.workOf a).route a.expression)
      else .answer .done

/-- Two replies that show the same. Two handles may differ in who they were made for. -/
inductive Reply.Alike : Reply → Reply → Prop where
  | same (r : Reply) : Alike r r
  | handle (h₁ h₂ : Handle) (names : List String) (hr : h₁.resource = h₂.resource)
      (hs : h₁.isResolved = h₂.isResolved) (hg : h₁.isGuarded = h₂.isGuarded) :
    Alike (.handle h₁ names) (.handle h₂ names)

/-- Two steps that show the same, or both switch draft mode. -/
inductive Moment.Alike (m₁ m₂ : Moment) : Prop where
  | shown (h₁ : m₁.switch? = none) (h₂ : m₂.switch? = none) (h : m₁.reply.Alike m₂.reply)
  | switched (h₁ : m₁.SwitchesNothing) (h₂ : m₂.SwitchesNothing)

/-! ## What a script leaves -/

namespace Venue

variable {v : Venue}

def binding (v : Venue) (c : Key .coordinator) (i : Nat) : Binding :=
  { coordinator := c, work := v.work, unit := v.unit i }

/-- The handle that the fetch of a number gives. -/
def handle (v : Venue) (n : Nat) (b : Binding) (r : Resource) : Handle :=
  { id := .detached v.work ((v.world.works.get v.work).detached + n)
    state := .resolved (World.blankValue b r) }

/-- What a call on an empty resource answers. -/
def answer (v : Venue) (i : Nat) (r : Resource) (call : Call) : Except AccessError Answer :=
  if World.switches r call && (v.world.units.get (v.unit i)).variant.isAfter then
    .error (.afterNotSupported (v.world.works.get v.work).route call.expression)
  else (v.world.perform (World.blankValue (v.binding ⟨0⟩ i) r) call).2.mapError .store

theorem after_zero (hv : v.IsStatic) : v.after 0 = v.world := by
  have hne : v.world.works.get v.work ≠ default := by
    intro h
    have alive := hv.alive
    rw [h] at alive
    cases alive
  have hset := v.world.works.set_get v.work hne
  simp only [after, Nat.add_zero, hset]

@[simp] theorem work_after (v : Venue) (n : Nat) :
    (v.after n).works.get v.work =
      { v.world.works.get v.work with detached := (v.world.works.get v.work).detached + n } := by
  simp [after]

@[simp] theorem units_after (v : Venue) (n : Nat) : (v.after n).units = v.world.units := rfl

theorem performed_after (v : Venue) (n : Nat) (c : Key .coordinator) (i : Nat) (r : Resource)
    (call : Call) :
    (v.after n).performed (World.blankValue (v.binding c i) r) call =
      { world := v.after n
        result := (v.world.perform (World.blankValue (v.binding ⟨0⟩ i) r) call).2.mapError
          .store } := by
  obtain ⟨hworld, hanswer⟩ := World.perform_blank (v.after n) (v.binding c i) r call
  simp only [World.performed, hworld, hanswer v.world (v.binding ⟨0⟩ i)]

section Static

variable (hv : v.IsStatic) (n : Nat) (c : Key .coordinator) (i : Nat) (r : Resource) (call : Call)

include hv

theorem scope_after :
    (v.after n).scope? (some v.work) (some (v.unit i)) =
      some { work := v.work, unit := v.unit i } := by
  simp [World.scope?, hv.alive, hv.unit]

theorem fetch_after :
    (v.after n).fetch c (some { work := v.work, unit := v.unit i }) r =
      { world := v.after (n + 1), result := .ok (v.handle n (v.binding c i) r) } := by
  have hf : ((v.after n).works.get v.work).forceStatic = true := by simp [hv.forceStatic]
  simp only [World.fetch]
  rw [if_pos hf]
  simp only [World.giveBlank, work_after, handle, binding]
  simp [after, Nat.add_assoc]

theorem decide_after :
    (v.after n).decide (World.blankValue (v.binding c i) r) call =
      { world := v.after n
        result :=
          if World.switches r call && (v.world.units.get (v.unit i)).variant.isAfter then
            .error (.afterNotSupported (v.world.works.get v.work).route call.expression)
          else .ok () } := by
  have hattempt := World.attempt_blank (v.binding c i) r call
  cases hs : World.switches r call with
  | false =>
    rw [hs] at hattempt
    exact World.decide_of_no_attempt hattempt
  | true =>
    rw [hs] at hattempt
    rw [(World.decide_of_attempt hattempt).1]
    simp only [Attempt.ofSwitch, World.decideSwitch, binding, work_after, units_after, hv.alive,
      hv.unit, hv.forceStatic]
    cases (v.world.units.get (v.unit i)).variant.isAfter <;> rfl

theorem callValue_after :
    (v.after n).callValue (World.blankValue (v.binding c i) r) call =
      { world := v.after n, result := v.answer i r call } := by
  simp only [World.callValue, decide_after hv, answer]
  split
  · rfl
  · simp only [Outcome.next, performed_after, List.nil_append]

theorem callHandle_after (k : Nat) :
    (v.after n).callHandle (v.handle k (v.binding c i) r) call =
      { world := v.after n, result := v.answer i r call } := by
  simp only [World.callHandle, handle, decide_after hv, answer]
  split
  · rfl
  · simp only [Outcome.next, World.observe, performed_after, List.nil_append]

end Static

theorem poll_blank (w : World) {f : Future} {n : Nat} {b : Binding} {r : Resource}
    (hf : f.handle = v.handle n b r) : w.poll f = (w, f, some (.ok (World.blankValue b r))) := by
  simp [World.poll, World.markAwaited, hf, handle, Handle.isGuarded]

theorem dropFuture_blank (w : World) {f : Future} {n : Nat} {b : Binding} {r : Resource}
    (hf : f.handle = v.handle n b r) : w.dropFuture f = w := by
  simp [World.dropFuture, hf, handle]

/-! ## Two runs -/

/-- What one fetch gives in two venues. -/
def AlikeHandles (v₁ v₂ : Venue) (h₁ h₂ : Handle) : Prop :=
  ∃ n c i r, h₁ = v₁.handle n (v₁.binding c i) r ∧ h₂ = v₂.handle n (v₂.binding c i) r

def AlikeValues (v₁ v₂ : Venue) (x₁ x₂ : Value) : Prop :=
  ∃ c i r, x₁ = World.blankValue (v₁.binding c i) r ∧ x₂ = World.blankValue (v₂.binding c i) r

/-- Two sessions that one script has come to in two venues. -/
structure Paired (v₁ v₂ : Venue) (s₁ s₂ : Session) : Prop where
  world : ∃ n, s₁.world = v₁.after n ∧ s₂.world = v₂.after n
  handles : s₁.handles.Alike (AlikeHandles v₁ v₂) s₂.handles
  values : s₁.values.Alike (AlikeValues v₁ v₂) s₂.values
  futures : s₁.futures.Alike (fun f g => AlikeHandles v₁ v₂ f.handle g.handle) s₂.futures

/-- Two steps that leave such sessions, with no event and one reply. -/
structure PairedAfter (v₁ v₂ : Venue) (a₁ a₂ : Session.After) : Prop where
  session : Paired v₁ v₂ a₁.session a₂.session
  quiet : a₁.events = [] ∧ a₂.events = []
  reply : a₁.reply.Alike a₂.reply

variable {v₁ v₂ : Venue} {s₁ s₂ : Session} {h₁ h₂ : Handle} {x₁ x₂ : Value}

theorem AlikeValues.resource (hx : AlikeValues v₁ v₂ x₁ x₂) : x₁.resource = x₂.resource := by
  obtain ⟨c, i, r, rfl, rfl⟩ := hx
  cases r <;> rfl

theorem AlikeHandles.reply (hh : AlikeHandles v₁ v₂ h₁ h₂) (names : List String) :
    (Reply.handle h₁ names).Alike (.handle h₂ names) := by
  obtain ⟨n, c, i, r, rfl, rfl⟩ := hh
  refine .handle _ _ names ?_ rfl rfl
  cases r <;> rfl

theorem AlikeHandles.poll {f₁ f₂ : Future} (hh : AlikeHandles v₁ v₂ f₁.handle f₂.handle) :
    ∃ x₁ x₂, AlikeValues v₁ v₂ x₁ x₂ ∧
      (∀ w : World, w.poll f₁ = (w, f₁, some (.ok x₁)) ∧ w.dropFuture f₁ = w) ∧
      ∀ w : World, w.poll f₂ = (w, f₂, some (.ok x₂)) ∧ w.dropFuture f₂ = w := by
  obtain ⟨n, c, i, r, hf₁, hf₂⟩ := hh
  exact ⟨_, _, ⟨c, i, r, rfl, rfl⟩, fun w => ⟨poll_blank w hf₁, dropFuture_blank w hf₁⟩,
    fun w => ⟨poll_blank w hf₂, dropFuture_blank w hf₂⟩⟩

theorem paired_opened (hv₁ : v₁.IsStatic) (hv₂ : v₂.IsStatic) :
    Paired v₁ v₂ v₁.opened v₂.opened where
  world := ⟨0, (after_zero hv₁).symm, (after_zero hv₂).symm⟩
  handles := NameMap.alike_empty
  values := NameMap.alike_empty
  futures := NameMap.alike_empty

namespace Paired

variable (hp : Paired v₁ v₂ s₁ s₂)

include hp

theorem namesOf (hh : AlikeHandles v₁ v₂ h₁ h₂) : s₁.namesOf h₁ = s₂.namesOf h₂ := by
  refine Entries.names_match (Entries.filter_match hp.handles ?_)
  rintro ⟨name, h⟩ ⟨name', h'⟩ ⟨-, m, c', i', r', heq, heq'⟩
  obtain ⟨n, c, i, r, rfl, rfl⟩ := hh
  cases heq
  cases heq'
  simp [handle]

theorem unknown : PairedAfter v₁ v₂ s₁.unknown s₂.unknown := ⟨hp, ⟨rfl, rfl⟩, .same _⟩

theorem keepHandle (name : Option String) (hh : AlikeHandles v₁ v₂ h₁ h₂) :
    Paired v₁ v₂ (s₁.keepHandle name h₁) (s₂.keepHandle name h₂) := by
  cases name with
  | none => exact hp
  | some name => exact ⟨hp.world, hp.handles.insert name hh, hp.values, hp.futures⟩

theorem asked (name : Option String) (hx : AlikeValues v₁ v₂ x₁ x₂) :
    PairedAfter v₁ v₂ (s₁.asked name (some (.ok x₁))) (s₂.asked name (some (.ok x₂))) := by
  refine ⟨?_, ⟨rfl, rfl⟩, ?_⟩
  · cases name with
    | none => exact hp
    | some name => exact ⟨hp.world, hp.handles, hp.values.insert name hx, hp.futures⟩
  · simp only [Session.asked, hx.resource]
    exact .same _

theorem forget (name : String) : Paired v₁ v₂ (s₁.forget name) (s₂.forget name) := by
  unfold Session.forget
  have hrel := hp.futures.get? name
  generalize s₁.futures.get? name = x, s₂.futures.get? name = y at hrel
  cases hrel with
  | none => exact hp
  | some hh =>
    obtain ⟨x₁, x₂, -, hf₁, hf₂⟩ := hh.poll
    simp only [(hf₁ s₁.world).2, (hf₂ s₂.world).2]
    exact ⟨hp.world, hp.handles, hp.values, hp.futures.erase name⟩

theorem keepFuture (name : String) {f₁ f₂ : Future} (w₁ w₂ : Waker)
    (hh : AlikeHandles v₁ v₂ f₁.handle f₂.handle) :
    Paired v₁ v₂ { s₁ with futures := s₁.futures.insert name f₁, nextWaker := w₁ }
      { s₂ with futures := s₂.futures.insert name f₂, nextWaker := w₂ } :=
  ⟨hp.world, hp.handles, hp.values, hp.futures.insert name hh⟩

/-! ## Steps without calls -/

theorem fetch (hv₁ : v₁.IsStatic) (hv₂ : v₂.IsStatic) (r : Resource) (c : Key .coordinator)
    (i : Nat) (saveAs : Option String) :
    PairedAfter v₁ v₂ (s₁.fetch r c (some v₁.work) (some (v₁.unit i)) saveAs)
      (s₂.fetch r c (some v₂.work) (some (v₂.unit i)) saveAs) := by
  obtain ⟨n, hw₁, hw₂⟩ := hp.world
  have hh : AlikeHandles v₁ v₂ (v₁.handle n (v₁.binding c i) r) (v₂.handle n (v₂.binding c i) r) :=
    ⟨n, c, i, r, rfl, rfl⟩
  simp only [Session.fetch, hw₁, hw₂, scope_after hv₁, scope_after hv₂, fetch_after hv₁,
    fetch_after hv₂]
  refine ⟨?_, ⟨rfl, rfl⟩, ?_⟩
  · refine keepHandle ?_ saveAs hh
    exact ⟨⟨n + 1, rfl, rfl⟩, hp.handles, hp.values, hp.futures⟩
  · rw [hp.namesOf hh]
    exact hh.reply _

theorem now (hh : AlikeHandles v₁ v₂ h₁ h₂) (saveAs : Option String) :
    PairedAfter v₁ v₂ (s₁.now h₁ saveAs) (s₂.now h₂ saveAs) := by
  have hf : AlikeHandles v₁ v₂ (Future.mk h₁ s₁.nextWaker none).handle
      (Future.mk h₂ s₂.nextWaker none).handle := hh
  obtain ⟨x₁, x₂, hx, hf₁, hf₂⟩ := hf.poll
  simp only [Session.now, World.pollOnce, (hf₁ _).1, (hf₁ _).2, (hf₂ _).1, (hf₂ _).2]
  refine asked ?_ saveAs hx
  exact ⟨hp.world, hp.handles, hp.values, hp.futures⟩

theorem start (hh : AlikeHandles v₁ v₂ h₁ h₂) (future : String) :
    PairedAfter v₁ v₂ (s₁.start h₁ future) (s₂.start h₂ future) :=
  ⟨(hp.forget future).keepFuture future _ _ hh, ⟨rfl, rfl⟩, .same _⟩

theorem poll (name : String) {f₁ f₂ : Future} (hh : AlikeHandles v₁ v₂ f₁.handle f₂.handle)
    (saveAs : Option String) :
    PairedAfter v₁ v₂ (s₁.poll name f₁ saveAs) (s₂.poll name f₂ saveAs) := by
  obtain ⟨x₁, x₂, hx, hf₁, hf₂⟩ := hh.poll
  simp only [Session.poll, (hf₁ _).1, (hf₂ _).1, Option.isSome_some, ↓reduceIte]
  exact ((hp.keepFuture name s₁.nextWaker s₂.nextWaker hh).forget name).asked saveAs hx

theorem clone (hh : AlikeHandles v₁ v₂ h₁ h₂) (saveAs : String) :
    PairedAfter v₁ v₂
      { session := s₁.keepHandle (some saveAs) h₁, reply := .handle h₁ (s₁.namesOf h₁) }
      { session := s₂.keepHandle (some saveAs) h₂, reply := .handle h₂ (s₂.namesOf h₂) } := by
  refine ⟨hp.keepHandle (some saveAs) hh, ⟨rfl, rfl⟩, ?_⟩
  rw [hp.namesOf hh]
  exact hh.reply _

theorem withHandle (name : String) {f₁ f₂ : Handle → Session.After}
    (hf : ∀ h₁ h₂, AlikeHandles v₁ v₂ h₁ h₂ → PairedAfter v₁ v₂ (f₁ h₁) (f₂ h₂)) :
    PairedAfter v₁ v₂ (s₁.withHandle name f₁) (s₂.withHandle name f₂) := by
  unfold Session.withHandle
  have hrel := hp.handles.get? name
  generalize s₁.handles.get? name = x, s₂.handles.get? name = y at hrel
  cases hrel with
  | none => exact hp.unknown
  | some hh => exact hf _ _ hh

end Paired

/-! ## Calls -/

theorem answer_of_no_switch {i : Nat} {r : Resource} {call : Call}
    (h : World.switches r call = false) : v₁.answer i r call = v₂.answer i r call := by
  obtain ⟨-, hanswer⟩ := World.perform_blank v₁.world (v₁.binding ⟨0⟩ i) r call
  simp only [answer, h, Bool.false_and, Bool.false_eq_true, ↓reduceIte,
    hanswer v₂.world (v₂.binding ⟨0⟩ i)]

section Call

variable {v : Venue} {s : Session} {step : Step} {n : Nat} {c : Key .coordinator} {i : Nat}
  {r : Resource} {call : Call}

theorem no_switch (hsw : World.switches r call = false)
    (ha : s.attempt? step = (World.blankValue (v.binding c i) r).attempt? call) :
    Moment.switch? ⟨s, step⟩ = none := by
  simp [Moment.switch?, Moment.attempt?, ha, World.attempt_blank, hsw]

theorem switches_nothing (hw : s.world = v.after n) (hsw : World.switches r call = true)
    (ha : s.attempt? step = (World.blankValue (v.binding c i) r).attempt? call)
    (hs : s.step step = s.answered { world := s.world, result := v.answer i r call }) :
    Moment.SwitchesNothing ⟨s, step⟩ := by
  refine ⟨.ofSwitch (v.binding c i) call.expression, ?_, ?_⟩
  · simp [Moment.switch?, Moment.attempt?, ha, World.attempt_blank, hsw, Attempt.ofSwitch]
  · have hunit : s.world.unitOf (.ofSwitch (v.binding c i) call.expression) =
        v.world.units.get (v.unit i) := by
      rw [hw]
      rfl
    have hroute : (s.world.workOf (.ofSwitch (v.binding c i) call.expression)).route =
        (v.world.works.get v.work).route := by
      simp [hw, World.workOf, Attempt.work, Attempt.ofSwitch, binding]
    simp only [Moment.reply, Moment.after, hs, hunit, hroute, Session.answered, answer, hsw,
      Bool.true_and, World.perform_switch _ _ hsw]
    cases (v.world.units.get (v.unit i)).variant.isAfter <;> rfl

end Call

/-- Two steps of one act in two venues. -/
structure Matched (v₁ v₂ : Venue) (m₁ m₂ : Moment) : Prop where
  session : Paired v₁ v₂ m₁.after.session m₂.after.session
  quiet : m₁.after.events = [] ∧ m₂.after.events = []
  alike : m₁.Alike m₂

theorem PairedAfter.matched {m₁ m₂ : Moment} (ha : PairedAfter v₁ v₂ m₁.after m₂.after)
    (h₁ : m₁.switch? = none) (h₂ : m₂.switch? = none) : Matched v₁ v₂ m₁ m₂ :=
  ⟨ha.session, ha.quiet, .shown h₁ h₂ ha.reply⟩

theorem Paired.call (hp : Paired v₁ v₂ s₁ s₂) {step : Step} (c : Key .coordinator) (i : Nat)
    (r : Resource) (call : Call)
    (ha₁ : s₁.attempt? step = (World.blankValue (v₁.binding c i) r).attempt? call)
    (ha₂ : s₂.attempt? step = (World.blankValue (v₂.binding c i) r).attempt? call)
    (hs₁ : s₁.step step = s₁.answered { world := s₁.world, result := v₁.answer i r call })
    (hs₂ : s₂.step step = s₂.answered { world := s₂.world, result := v₂.answer i r call }) :
    Matched v₁ v₂ ⟨s₁, step⟩ ⟨s₂, step⟩ := by
  refine ⟨?_, ?_, ?_⟩
  · simp only [Moment.after, hs₁, hs₂]
    exact ⟨hp.world, hp.handles, hp.values, hp.futures⟩
  · simp only [Moment.after, hs₁, hs₂]
    exact ⟨rfl, rfl⟩
  · obtain ⟨n, hw₁, hw₂⟩ := hp.world
    cases hsw : World.switches r call with
    | true =>
      exact .switched (switches_nothing hw₁ hsw ha₁ hs₁) (switches_nothing hw₂ hsw ha₂ hs₂)
    | false =>
      have heq : v₁.answer i r call = v₂.answer i r call := answer_of_no_switch hsw
      refine .shown (no_switch hsw ha₁) (no_switch hsw ha₂) ?_
      simp only [Moment.reply, Moment.after, hs₁, hs₂, Session.answered, heq]
      exact .same _

theorem Paired.nothing (hp : Paired v₁ v₂ s₁ s₂) {step : Step} (ha₁ : s₁.attempt? step = none)
    (ha₂ : s₂.attempt? step = none) (hs₁ : s₁.step step = s₁.unknown)
    (hs₂ : s₂.step step = s₂.unknown) : Matched v₁ v₂ ⟨s₁, step⟩ ⟨s₂, step⟩ := by
  refine PairedAfter.matched ?_ ?_ ?_
  · simp only [Moment.after, hs₁, hs₂]
    exact hp.unknown
  · simp [Moment.switch?, Moment.attempt?, ha₁]
  · simp [Moment.switch?, Moment.attempt?, ha₂]

theorem Paired.callHandle (hv₁ : v₁.IsStatic) (hv₂ : v₂.IsStatic) (hp : Paired v₁ v₂ s₁ s₂)
    (name : String) (call : Call) :
    Matched v₁ v₂ ⟨s₁, .callHandle name call⟩ ⟨s₂, .callHandle name call⟩ := by
  obtain ⟨n, hw₁, hw₂⟩ := hp.world
  have hrel := hp.handles.get? name
  cases hx₁ : s₁.handles.get? name <;> cases hx₂ : s₂.handles.get? name <;>
    rw [hx₁, hx₂] at hrel <;> cases hrel
  · apply hp.nothing <;> simp [Session.attempt?, Session.step, Session.withHandle, hx₁, hx₂]
  · rename_i hh
    obtain ⟨k, c, i, r, rfl, rfl⟩ := hh
    refine hp.call c i r call ?_ ?_ ?_ ?_
    · simp [Session.attempt?, hx₁, Handle.attempt?, handle]
    · simp [Session.attempt?, hx₂, Handle.attempt?, handle]
    · simp [Session.step, Session.withHandle, hx₁, hw₁, callHandle_after hv₁]
    · simp [Session.step, Session.withHandle, hx₂, hw₂, callHandle_after hv₂]

theorem Paired.callValue (hv₁ : v₁.IsStatic) (hv₂ : v₂.IsStatic) (hp : Paired v₁ v₂ s₁ s₂)
    (name : String) (call : Call) :
    Matched v₁ v₂ ⟨s₁, .callValue name call⟩ ⟨s₂, .callValue name call⟩ := by
  obtain ⟨n, hw₁, hw₂⟩ := hp.world
  have hrel := hp.values.get? name
  cases hx₁ : s₁.values.get? name <;> cases hx₂ : s₂.values.get? name <;>
    rw [hx₁, hx₂] at hrel <;> cases hrel
  · apply hp.nothing <;> simp [Session.attempt?, Session.step, hx₁, hx₂]
  · rename_i hx
    obtain ⟨c, i, r, rfl, rfl⟩ := hx
    refine hp.call c i r call ?_ ?_ ?_ ?_
    · simp [Session.attempt?, hx₁]
    · simp [Session.attempt?, hx₂]
    · simp [Session.step, hx₁, hw₁, callValue_after hv₁]
    · simp [Session.step, hx₂, hw₂, callValue_after hv₂]

theorem fetch_no_switch (s : Session) (r : Resource) (c : Key .coordinator)
    (work : Option (Key .work)) (unit : Option (Key .unit)) (saveAs : Option String) :
    Moment.switch? ⟨s, .fetch r c work unit saveAs⟩ = none := by
  simp only [Moment.switch?, Moment.attempt?, Session.attempt?]
  cases s.world.scope? work unit <;> rfl

/-! ## Runs -/

/-- One act leaves paired sessions paired, and shows the same in both. -/
theorem Paired.matched (hv₁ : v₁.IsStatic) (hv₂ : v₂.IsStatic) (hp : Paired v₁ v₂ s₁ s₂)
    (act : Act) : Matched v₁ v₂ ⟨s₁, act.step v₁⟩ ⟨s₂, act.step v₂⟩ := by
  cases act with
  | fetch r c i saveAs =>
    exact (hp.fetch hv₁ hv₂ r c i saveAs).matched (fetch_no_switch ..) (fetch_no_switch ..)
  | callHandle name call => exact hp.callHandle hv₁ hv₂ name call
  | callValue name call => exact hp.callValue hv₁ hv₂ name call
  | now name saveAs => exact (hp.withHandle name fun _ _ hh => hp.now hh saveAs).matched rfl rfl
  | start name future => exact (hp.withHandle name fun _ _ hh => hp.start hh future).matched rfl rfl
  | poll name saveAs =>
    refine PairedAfter.matched ?_ rfl rfl
    simp only [Moment.after, Act.step, Session.step]
    have hrel := hp.futures.get? name
    generalize s₁.futures.get? name = x, s₂.futures.get? name = y at hrel
    cases hrel with
    | none => exact hp.unknown
    | some hh => exact hp.poll name hh saveAs
  | clone name saveAs => exact (hp.withHandle name fun _ _ hh => hp.clone hh saveAs).matched rfl rfl
  | dropHandle name =>
    refine PairedAfter.matched ⟨?_, ⟨rfl, rfl⟩, ?_⟩ rfl rfl
    · exact ⟨hp.world, hp.handles.erase name, hp.values, hp.futures⟩
    · simp only [Moment.after, Act.step, Session.step, hp.handles.contains name]
      exact .same _
  | dropValue name =>
    refine PairedAfter.matched ⟨?_, ⟨rfl, rfl⟩, ?_⟩ rfl rfl
    · exact ⟨hp.world, hp.handles, hp.values.erase name, hp.futures⟩
    · simp only [Moment.after, Act.step, Session.step, hp.values.contains name]
      exact .same _
  | dropFuture name =>
    refine PairedAfter.matched ⟨hp.forget name, ⟨rfl, rfl⟩, ?_⟩ rfl rfl
    simp only [Moment.after, Act.step, Session.step, hp.futures.contains name]
    exact .same _

theorem Paired.run (hv₁ : v₁.IsStatic) (hv₂ : v₂.IsStatic) (hp : Paired v₁ v₂ s₁ s₂)
    (acts : List Act) :
    Paired v₁ v₂ (s₁.run (acts.map (·.step v₁))).1 (s₂.run (acts.map (·.step v₂))).1 ∧
      List.Forall₂ (Matched v₁ v₂) (s₁.moments (acts.map (·.step v₁)))
        (s₂.moments (acts.map (·.step v₂))) := by
  induction acts generalizing s₁ s₂ with
  | nil => exact ⟨hp, .nil⟩
  | cons act rest ih =>
    have hm := hp.matched hv₁ hv₂ act
    obtain ⟨hlast, hrest⟩ := ih hm.session
    exact ⟨hlast, .cons hm hrest⟩

/-- What is done under a force-static work changes nothing but the number of handles that the work
has counted, and is told nowhere. Done anywhere else it shows the same step by step, but for the
switching of draft mode, which is refused after the response and otherwise does nothing. -/
theorem force_static_shows_no_unit (hv₁ : v₁.IsStatic) (hv₂ : v₂.IsStatic) (acts : List Act) :
    (∃ n, (v₁.opened.run (acts.map (·.step v₁))).1.world = v₁.after n) ∧
      (∀ m ∈ v₁.moments acts, m.after.events = []) ∧
      List.Forall₂ Moment.Alike (v₁.moments acts) (v₂.moments acts) := by
  obtain ⟨hlast, hrun⟩ := (paired_opened hv₁ hv₂).run hv₁ hv₂ acts
  refine ⟨?_, ?_, ?_⟩
  · obtain ⟨n, hw, -⟩ := hlast.world
    exact ⟨n, hw⟩
  · intro m hm
    obtain ⟨i, hi, rfl⟩ := List.mem_iff_getElem.mp hm
    have hi' : i < (v₂.moments acts).length := hrun.length_eq ▸ hi
    exact (hrun.get hi hi').quiet.1
  · exact hrun.imp fun _ _ h => h.alike

/-- After the response and in a cache scope, only the switching tells the two apart. -/
theorem force_static_shows_no_unit_but_after :
    let work : Work := { route := "/", forceStatic := true, dynamicShouldError := true }
    let sent : LiveRequest :=
      { cookies := ⟨0⟩, mutableCookies := ⟨1⟩, headers := ⟨0⟩, phase := .after }
    let v₁ : Venue :=
      { world := .ofPage work (.request sent), work := ⟨0⟩, unit := fun _ => ⟨0⟩ }
    let v₂ : Venue :=
      { world := .ofPage work (.cache none), work := ⟨0⟩, unit := fun _ => ⟨0⟩ }
    let acts : List Act :=
      [.fetch .cookies ⟨0⟩ 0 (some "c"), .callHandle "c" (.cookies .size),
        .fetch .draftMode ⟨0⟩ 0 (some "d"), .callHandle "d" (.draft .enable)]
    v₁.IsStatic ∧ v₂.IsStatic ∧
      (v₁.moments acts).getLast?.map (·.reply) =
        some (.failed (.afterNotSupported "/" "draftMode().enable()")) ∧
      (v₂.moments acts).getLast?.map (·.reply) = some (.answer .done) ∧
      List.Forall₂ Moment.Alike (v₁.moments acts) (v₂.moments acts) := by
  intro work sent v₁ v₂ acts
  have hv₁ : v₁.IsStatic := ⟨rfl, rfl, fun _ => rfl⟩
  have hv₂ : v₂.IsStatic := ⟨rfl, rfl, fun _ => rfl⟩
  exact ⟨hv₁, hv₂, rfl, rfl, (force_static_shows_no_unit hv₁ hv₂ acts).2.2⟩

end Venue

end RequestAccess
