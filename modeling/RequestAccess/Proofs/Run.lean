import RequestAccess.Session

/-!
# Runs of a session

A run starts where nothing was asked for yet. What one step keeps, every run keeps.
-/

namespace RequestAccess

/-! ## Where a run starts -/

/-- No work has met an error yet. -/
def Work.IsFresh (work : Work) : Prop :=
  work.latch = none ∧ work.errorsBuilt = 0 ∧ work.dynamicUsage = none

/-- A live request that was not used, and a dry run that was not ended. -/
def Variant.isUntouched : Variant → Bool
  | .request r => !r.usedDynamic && !r.dryRun.isEscalated
  | _ => true

def WorkUnit.IsFresh (u : WorkUnit) : Prop := u.handles.entries = [] ∧ u.variant.isUntouched = true

/-- A world in which nothing was asked for yet, whatever is in its stores. -/
structure World.Fresh (w : World) : Prop where
  work (k : Key .work) : (w.works.get k).IsFresh
  unit (k : Key .unit) : (w.units.get k).IsFresh
  awaited : w.awaited = []

theorem fresh_of_rows (w : World) (hw : ∀ work ∈ w.works.rows, work.IsFresh)
    (hu : ∀ u ∈ w.units.rows, u.IsFresh) (ha : w.awaited = []) : w.Fresh where
  work := Table.forall_get hw ⟨rfl, rfl, rfl⟩
  unit := Table.forall_get hu ⟨rfl, rfl⟩
  awaited := ha

/-- A world with one work and one unit. -/
def World.ofPage (work : Work) (v : Variant) : World :=
  { works := ⟨[work]⟩, units := ⟨[{ variant := v }]⟩ }

theorem fresh_of_one {w : World} {work : Work} {v : Variant} (hworks : w.works = ⟨[work]⟩)
    (hunits : w.units = ⟨[{ variant := v }]⟩) (ha : w.awaited = []) (hw : work.IsFresh)
    (hv : v.isUntouched = true) : w.Fresh := by
  refine fresh_of_rows w ?_ ?_ ha
  · intro x hx
    rw [hworks] at hx
    rw [List.mem_singleton.mp hx]
    exact hw
  · intro u hu
    rw [hunits] at hu
    rw [List.mem_singleton.mp hu]
    exact ⟨rfl, hv⟩

theorem fresh_ofPage {work : Work} {v : Variant} (hw : work.IsFresh) (hv : v.isUntouched = true) :
    (World.ofPage work v).Fresh := fresh_of_one rfl rfl rfl hw hv

namespace Session

def ofWorld (w : World) : Session := { world := w }

/-- The sessions that come of running steps in a fresh world. -/
inductive Reachable : Session → Prop where
  | fresh {w : World} (h : w.Fresh) : Reachable (ofWorld w)
  | step {s : Session} (step : Step) (h : Reachable s) : Reachable (s.step step).session

/-! ## Steps and runs -/

theorem run_keeps {P : Session → Prop} (hstep : ∀ s step, P s → P (s.step step).session)
    (s : Session) (steps : List Step) (h : P s) : P (s.run steps).1 := by
  induction steps generalizing s with
  | nil => exact h
  | cons step rest ih => exact ih _ (hstep s step h)

theorem Reachable.run {s : Session} (h : s.Reachable) (steps : List Step) :
    (s.run steps).1.Reachable :=
  run_keeps (fun _ step h => h.step step) s steps h

theorem withHandle_of {P : After → Prop} {s : Session} {name : String} {f : Handle → After}
    (hf : ∀ h, s.handles.get? name = some h → P (f h)) (hn : P s.unknown) :
    P (s.withHandle name f) := by
  unfold withHandle
  split
  · rename_i h hh
    exact hf h hh
  · exact hn

end Session

/-- A step of a run, with the session it was made in. -/
structure Moment where
  before : Session
  step : Step

namespace Moment

def after (m : Moment) : Session.After := m.before.step m.step

def reply (m : Moment) : Reply := m.after.reply

end Moment

namespace Session

/-- The moments of a run, in their order. -/
def moments (s : Session) : List Step → List Moment
  | [] => []
  | step :: rest => ⟨s, step⟩ :: (s.step step).session.moments rest

theorem step_mem_of_moments {s : Session} {steps : List Step} {m : Moment}
    (hm : m ∈ s.moments steps) : m.step ∈ steps := by
  induction steps generalizing s with
  | nil => cases hm
  | cons step rest ih =>
    rcases List.mem_cons.mp hm with rfl | hrest
    · exact List.mem_cons_self
    · exact List.mem_cons_of_mem _ (ih hrest)

/-- What every step keeps holds before every step of a run. -/
theorem moments_keep {P : Session → Prop} (hstep : ∀ s step, P s → P (s.step step).session)
    {s : Session} {steps : List Step} (h : P s) {m : Moment} (hm : m ∈ s.moments steps) :
    P m.before := by
  induction steps generalizing s with
  | nil => cases hm
  | cons step rest ih =>
    rcases List.mem_cons.mp hm with rfl | hrest
    · exact h
    · exact ih (hstep s step h) hrest

end Session

/-! ## Attempts -/

/-- An access that is decided: where, how and under which expression. -/
structure Attempt where
  binding : Binding
  use : CacheUse
  expression : String

namespace Attempt

def work (a : Attempt) : Key .work := a.binding.work

def unit (a : Attempt) : Key .unit := a.binding.unit

def ofFetch (b : Binding) (r : Resource) : Attempt :=
  { binding := b, use := .read, expression := r.api }

def ofSwitch (b : Binding) (expression : String) : Attempt :=
  { binding := b, use := .mutation, expression }

end Attempt

def Scope.binding (s : Scope) (c : Key .coordinator) : Binding :=
  { coordinator := c, work := s.work, unit := s.unit }

def DraftCall.isSwitch : DraftCall → Bool
  | .enable | .disable => true
  | .isEnabled => false

/-- The switching of draft mode is decided where the value was fetched. -/
def Value.attempt? : Value → Call → Option Attempt
  | .draft _ b, .draft call =>
    if call.isSwitch then some (.ofSwitch b call.expression) else none
  | _, _ => none

theorem Value.of_attempt {v : Value} {call : Call} {a : Attempt} (ha : v.attempt? call = some a) :
    ∃ source draftCall, v = .draft source a.binding ∧ call = .draft draftCall ∧
      a = .ofSwitch a.binding draftCall.expression := by
  unfold attempt? at ha
  split at ha
  · rename_i source b draftCall
    split at ha
    · cases ha
      exact ⟨source, draftCall, rfl, rfl, rfl⟩
    · cases ha
  · cases ha

def Handle.attempt? (h : Handle) (call : Call) : Option Attempt :=
  match h.state with
  | .resolved v => v.attempt? call
  | .pending .. => none

theorem Handle.attempt?_resolved {h : Handle} {v : Value} (hs : h.state = .resolved v)
    (call : Call) : h.attempt? call = v.attempt? call := by
  simp only [attempt?, hs]

theorem Handle.resolved_of_attempt {h : Handle} {call : Call} {a : Attempt}
    (ha : h.attempt? call = some a) : ∃ v, h.state = .resolved v ∧ v.attempt? call = some a := by
  unfold attempt? at ha
  split at ha
  · next v hs => exact ⟨v, hs, ha⟩
  · cases ha

namespace Session

/-- The access that a step is, if it is one that is decided in a scope. -/
def attempt? (s : Session) : Step → Option Attempt
  | .fetch r c work unit _ =>
    (s.world.scope? work unit).map fun scope => .ofFetch (scope.binding c) r
  | .callHandle name call => (s.handles.get? name).bind (·.attempt? call)
  | .callValue name call => (s.values.get? name).bind (·.attempt? call)
  | _ => none

end Session

def Moment.attempt? (m : Moment) : Option Attempt := m.before.attempt? m.step

end RequestAccess
