import RequestAccess.Proofs.Refusal

/-!
# What outlives its context

A handle, a value or a future keeps what it reads from, and only points to the work and to the unit
that it was fetched in. When a caller lets go of one of the two, draft mode cannot be switched there
any more. All else goes on as if nobody had let go.
-/

namespace RequestAccess

/-- What a caller can let go of. -/
inductive Context where
  | work (key : Key .work)
  | unit (key : Key .unit)
deriving DecidableEq

def Scope.contexts (s : Scope) : List Context := [.work s.work, .unit s.unit]

def Attempt.contexts (a : Attempt) : List Context := [.work a.work, .unit a.unit]

/-! ## Letting go -/

/-- What a caller lets go of in a step. -/
def Step.letsGo? : Step → Option Context
  | .dropWork key => some (.work key)
  | .dropUnit key => some (.unit key)
  | _ => none

def Work.heldIf (b : Bool) (work : Work) : Work := { work with alive := work.alive && b }

def WorkUnit.heldIf (b : Bool) (u : WorkUnit) : WorkUnit := { u with alive := u.alive && b }

def World.letGo (w : World) : Context → World
  | .work key => w.dropWork key
  | .unit key => w.dropUnit key

/-- Whether a caller still has a work or a unit. -/
def World.holds (w : World) : Context → Bool
  | .work key => (w.works.get key).alive
  | .unit key => (w.units.get key).alive

def Outcome.letGo {α : Type} (o : Outcome α) (x : Context) : Outcome α :=
  { o with world := o.world.letGo x }

def Session.letGo (s : Session) (x : Context) : Session := { s with world := s.world.letGo x }

def Session.After.letGo (a : After) (x : Context) : After :=
  { a with session := a.session.letGo x }

namespace World

variable {α : Type} (w : World) (x : Context)

@[simp] theorem jars_letGo : (w.letGo x).jars = w.jars := by cases x <;> rfl

@[simp] theorem headers_letGo : (w.letGo x).headers = w.headers := by cases x <;> rfl

@[simp] theorem drafts_letGo : (w.letGo x).drafts = w.drafts := by cases x <;> rfl

@[simp] theorem signals_letGo : (w.letGo x).signals = w.signals := by cases x <;> rfl

@[simp] theorem logs_letGo : (w.letGo x).logs = w.logs := by cases x <;> rfl

@[simp] theorem coordinators_letGo : (w.letGo x).coordinators = w.coordinators := by
  cases x <;> rfl

@[simp] theorem reporters_letGo : (w.letGo x).reporters = w.reporters := by cases x <;> rfl

@[simp] theorem awaited_letGo : (w.letGo x).awaited = w.awaited := by cases x <;> rfl

@[simp] theorem work_letGo (k : Key .work) :
    (w.letGo x).works.get k = (w.works.get k).heldIf (x ≠ .work k) := by
  cases x with
  | unit j => simp [letGo, dropUnit, Work.heldIf]
  | work j =>
    by_cases h : k = j
    · simp [letGo, dropWork, Work.heldIf, h]
    · simp [letGo, dropWork, Work.heldIf, h, Ne.symm h]

@[simp] theorem unit_letGo (k : Key .unit) :
    (w.letGo x).units.get k = (w.units.get k).heldIf (x ≠ .unit k) := by
  cases x with
  | work j => simp [letGo, dropWork, WorkUnit.heldIf]
  | unit j =>
    by_cases h : k = j
    · simp [letGo, dropUnit, WorkUnit.heldIf, h]
    · simp [letGo, dropUnit, WorkUnit.heldIf, h, Ne.symm h]

theorem set_work_letGo (k : Key .work) (work : Work) :
    ({ w with works := w.works.set k work } : World).letGo x =
      { w.letGo x with
        works := (w.letGo x).works.set k (work.heldIf (x ≠ .work k)) } := by
  cases x with
  | unit j => simp [letGo, dropUnit, Work.heldIf]
  | work j =>
    by_cases h : k = j
    · simp [letGo, dropWork, Table.modify_set, Work.heldIf, h]
    · simp [letGo, dropWork, Table.modify_set, Work.heldIf, h, Ne.symm h]

theorem set_unit_letGo (k : Key .unit) (u : WorkUnit) :
    ({ w with units := w.units.set k u } : World).letGo x =
      { w.letGo x with
        units := (w.letGo x).units.set k (u.heldIf (x ≠ .unit k)) } := by
  cases x with
  | work j => simp [letGo, dropWork, WorkUnit.heldIf]
  | unit j =>
    by_cases h : k = j
    · simp [letGo, dropUnit, Table.modify_set, WorkUnit.heldIf, h]
    · simp [letGo, dropUnit, Table.modify_set, WorkUnit.heldIf, h, Ne.symm h]

/-! ## Asking for a resource -/

theorem markDynamic_letGo (k : Key .unit) :
    (w.letGo x).markDynamic k = (w.markDynamic k).letGo x := by
  simp only [markDynamic, Table.modify, set_unit_letGo, unit_letGo]
  rfl

theorem refuse_letGo (e : AccessError) :
    ((w.letGo x).refuse e : Outcome (Except AccessError α)) = (w.refuse e).letGo x := rfl

theorem refuseInCache_letGo (k : Key .work) (use : CacheUse) (expression : String)
    (scope : CacheScope) :
    ((w.letGo x).refuseInCache k use expression scope : Outcome (Except AccessError α)) =
      (w.refuseInCache k use expression scope).letGo x := by
  simp only [refuseInCache, latchUsage, work_letGo, Work.heldIf]
  cases (w.works.get k).latch with
  | some e => rfl
  | none =>
    simp only [Outcome.letGo, set_work_letGo]
    rfl

theorem unlessStatic_letGo (k : Key .work) (expression : String)
    (o : Outcome (Except AccessError α)) :
    (w.letGo x).unlessStatic k expression (o.letGo x) =
      (w.unlessStatic k expression o).letGo x := by
  simp only [unlessStatic, work_letGo, Work.heldIf]
  split <;> rfl

theorem postpone_letGo (c : Key .coordinator) (k : Key .work) (log : Key .log)
    (expression : String) :
    ((w.letGo x).postpone c k log expression : Outcome (Except AccessError α)) =
      (w.postpone c k log expression).letGo x := by
  simp only [postpone, work_letGo, Work.heldIf, coordinators_letGo, logs_letGo]
  cases (w.coordinators.get c).postponer with
  | byHost host => cases x <;> rfl
  | tracking => cases x <;> rfl

theorem giveUp_letGo (k : Key .work) (unit : Key .unit) (expression : String) :
    ((w.letGo x).giveUp k unit expression : Outcome (Except AccessError α)) =
      (w.giveUp k unit expression).letGo x := by
  -- Two tables are written, one after the other.
  have hworks := w.set_work_letGo x k { w.works.get k with dynamicUsage := some expression }
  have hunits := set_unit_letGo
    { w with works := w.works.set k { w.works.get k with dynamicUsage := some expression } } x unit
    { w.units.get unit with variant := .prerenderLegacy (some 0) }
  rw [hworks] at hunits
  simp only [giveUp, Table.modify, unit_letGo, Outcome.letGo, hunits, work_letGo]
  rfl

theorem interrupt_letGo (k : Key .work) (p : Prerender) (expression : String) :
    ((w.letGo x).interrupt k p expression : Outcome (Except AccessError α)) =
      (w.interrupt k p expression).letGo x := by
  simp only [interrupt, work_letGo, Work.heldIf]
  cases p.log <;> cases x <;> rfl

theorem memoize_letGo (unit : Key .unit) (r : Resource) (key : MemoKey) (state : HandleState)
    (guard? : Option Guard) :
    (w.letGo x).memoize unit r key state guard? =
      ((w.memoize unit r key state guard?).1.letGo x, (w.memoize unit r key state guard?).2) := by
  simp only [memoize, unit_letGo, WorkUnit.heldIf]
  cases (w.units.get unit).handles.get? (r, key) with
  | some h => rfl
  | none =>
    simp only [set_unit_letGo]
    rfl

theorem give_letGo (unit : Key .unit) (r : Resource) (key : MemoKey) (state : HandleState)
    (guard? : Option Guard) :
    (w.letGo x).give unit r key state guard? = (w.give unit r key state guard?).letGo x := by
  simp only [give, memoize_letGo]
  rfl

theorem giveBlank_letGo (b : Binding) (r : Resource) :
    (w.letGo x).giveBlank b r = (w.giveBlank b r).letGo x := by
  simp only [giveBlank, work_letGo, Outcome.letGo, set_work_letGo]
  rfl

theorem giveDraft_letGo (b : Binding) (provider : Option (Key .draft)) :
    (w.letGo x).giveDraft b provider = (w.giveDraft b provider).letGo x := by
  cases provider with
  | some key => exact w.give_letGo x ..
  | none => exact w.give_letGo x ..

theorem draftOr_letGo (b : Binding) (r : Resource) (o : Outcome (Except AccessError Handle)) :
    (w.letGo x).draftOr b r (o.letGo x) = (w.draftOr b r o).letGo x := by
  cases r with
  | draftMode => exact w.giveDraft_letGo x b none
  | cookies | headers => rfl

theorem guardFor_letGo (b : Binding) : (w.letGo x).guardFor b = w.guardFor b := by
  simp only [guardFor, coordinators_letGo, work_letGo, Work.heldIf]

theorem fetchLive_letGo (b : Binding) (q : LiveRequest) (r : Resource) :
    (w.letGo x).fetchLive b q r = (w.fetchLive b q r).letGo x := by
  simp only [fetchLive, markDynamic_letGo, give_letGo, guardFor_letGo]

theorem fetchDeferred_letGo (b : Binding) (p : Prerender) (r : Resource) :
    (w.letGo x).fetchDeferred b p r = (w.fetchDeferred b p r).letGo x := by
  cases r with
  | draftMode => exact w.giveDraft_letGo x b none
  | cookies | headers => simp only [fetchDeferred, work_letGo, Work.heldIf, give_letGo]

theorem draftIn_letGo (b : Binding) : (w.letGo x).draftIn b = w.draftIn b := by
  unfold draftIn
  rw [coordinators_letGo, work_letGo, unit_letGo]
  have made (held : Bool) (work : Work) : (work.heldIf held).asMade = work.asMade := rfl
  exact Coordinator.draftFor_of_made _ (made ..) rfl

theorem fetchPrivate_letGo (b : Binding) (cookies : Key .jar) (headers : Key .headers)
    (r : Resource) :
    (w.letGo x).fetchPrivate b cookies headers r =
      (w.fetchPrivate b cookies headers r).letGo x := by
  cases r with
  | draftMode => simp only [fetchPrivate, draftIn_letGo, giveDraft_letGo]
  | cookies | headers => exact w.give_letGo x ..

theorem fetchCached_letGo (b : Binding) (r : Resource) :
    (w.letGo x).fetchCached b r = (w.fetchCached b r).letGo x := by
  unfold fetchCached
  rw [draftIn_letGo]
  cases r <;> cases w.draftIn b <;>
    first | exact w.giveDraft_letGo x .. | exact w.refuseInCache_letGo x ..

theorem fetchIn_letGo (b : Binding) (r : Resource) :
    (w.letGo x).fetchIn b r = (w.fetchIn b r).letGo x := by
  unfold fetchIn
  rw [unit_letGo]
  simp only [WorkUnit.heldIf]
  cases (w.units.get b.unit).variant with
  | request q => simp only [fetchLive_letGo, unlessStatic_letGo]
  | cache forwarded => exact w.fetchCached_letGo x b r
  | privateCache cookies headers forwarded => simp only [fetchPrivate_letGo, unlessStatic_letGo]
  | unstableCache => exact w.refuseInCache_letGo x ..
  | prerender p | prerenderRuntime p => simp only [fetchDeferred_letGo, unlessStatic_letGo]
  | prerenderClient p => simp only [refuse_letGo, draftOr_letGo, unlessStatic_letGo]
  | prerenderPartial log => simp only [postpone_letGo, draftOr_letGo, unlessStatic_letGo]
  | prerenderLegacy period => simp only [giveUp_letGo, draftOr_letGo, unlessStatic_letGo]

theorem fetch_letGo (c : Key .coordinator) (scope : Option Scope) (r : Resource) :
    (w.letGo x).fetch c scope r = (w.fetch c scope r).letGo x := by
  cases scope with
  | none => rfl
  | some scope =>
    simp only [fetch, work_letGo, Work.heldIf, giveBlank_letGo, fetchIn_letGo]
    split <;> rfl

/-! ## Calls -/

theorem decideIn_letGo (b : Binding) (expression : String) :
    (w.letGo x).decideIn b expression = (w.decideIn b expression).letGo x := by
  unfold decideIn
  rw [unit_letGo]
  simp only [WorkUnit.heldIf]
  cases (w.units.get b.unit).variant with
  | request q =>
    rw [markDynamic_letGo]
    exact w.unlessStatic_letGo x _ _ { world := w.markDynamic b.unit, result := .ok () }
  | cache _ | privateCache _ _ _ | unstableCache => exact w.refuseInCache_letGo x ..
  | prerender p | prerenderRuntime p => simp only [interrupt_letGo, unlessStatic_letGo]
  | prerenderClient p => simp only [refuse_letGo, unlessStatic_letGo]
  | prerenderPartial log => simp only [postpone_letGo, unlessStatic_letGo]
  | prerenderLegacy period => simp only [giveUp_letGo, unlessStatic_letGo]

theorem decideSwitch_letGo {a : Attempt} (h : x ∉ a.contexts) :
    (w.letGo x).decideSwitch a.binding a.expression =
      (w.decideSwitch a.binding a.expression).letGo x := by
  simp only [Attempt.contexts, List.mem_cons, List.not_mem_nil, or_false, not_or] at h
  obtain ⟨hwork, hunit⟩ := h
  have hw : (w.letGo x).works.get a.binding.work = w.works.get a.binding.work := by
    simp [Work.heldIf, show x ≠ .work a.binding.work from hwork]
  have hu : (w.letGo x).units.get a.binding.unit = w.units.get a.binding.unit := by
    simp [WorkUnit.heldIf, show x ≠ .unit a.binding.unit from hunit]
  simp only [decideSwitch, hw, hu, refuse_letGo, decideIn_letGo, apply_ite (Outcome.letGo · x)]
  rfl

theorem decide_letGo {v : Value} {call : Call}
    (h : ∀ a, v.attempt? call = some a → x ∉ a.contexts) :
    (w.letGo x).decide v call = (w.decide v call).letGo x := by
  cases ha : v.attempt? call with
  | none =>
    rw [decide_of_no_attempt ha, decide_of_no_attempt ha]
    rfl
  | some a =>
    rw [(decide_of_attempt ha).1, (decide_of_attempt ha).1]
    exact w.decideSwitch_letGo x (h a ha)

theorem callJar_letGo (source : Source .jar) (call : CookieCall) :
    (w.letGo x).callJar source call =
      ((w.callJar source call).1.letGo x, (w.callJar source call).2) := by
  have hjar : (w.letGo x).jarOf source = w.jarOf source := by cases source <;> simp [jarOf]
  unfold callJar
  rw [hjar]
  split <;> cases x <;> rfl

theorem callHeaders_letGo (source : Source .headers) (call : HeaderCall) :
    (w.letGo x).callHeaders source call =
      ((w.callHeaders source call).1.letGo x, (w.callHeaders source call).2) := by
  have hheaders : (w.letGo x).headersOf source = w.headersOf source := by
    cases source <;> simp [headersOf]
  unfold callHeaders
  rw [hheaders]
  split <;> cases x <;> rfl

theorem switchDraft_letGo (key : Key .draft) (on : Bool) :
    (w.letGo x).switchDraft key on = (w.switchDraft key on).letGo x := by
  simp only [switchDraft, drafts_letGo, jars_letGo]
  cases w.drafts.get key <;> cases x <;> rfl

theorem callDraft_letGo (source : Source .draft) (call : DraftCall) :
    (w.letGo x).callDraft source call =
      ((w.callDraft source call).1.letGo x, (w.callDraft source call).2) := by
  cases call <;> cases source <;> simp only [callDraft, switchDraft_letGo, draftOf, drafts_letGo]

theorem performed_letGo (v : Value) (call : Call) :
    (w.letGo x).performed v call = (w.performed v call).letGo x := by
  have hperform : (w.letGo x).perform v call =
      ((w.perform v call).1.letGo x, (w.perform v call).2) := by
    cases v <;> cases call <;>
      first
        | exact w.callJar_letGo x ..
        | exact w.callHeaders_letGo x ..
        | exact congrArg (fun p : World × Answer => (p.1, Except.ok p.2)) (w.callDraft_letGo x ..)
        | rfl
  simp only [performed, hperform]
  rfl

theorem next_letGo {β : Type} (o : Outcome (Except AccessError α))
    {k k' : World → α → Outcome (Except AccessError β)}
    (hk : ∀ w a, k' (w.letGo x) a = (k w a).letGo x) :
    (o.letGo x).next k' = (o.next k).letGo x := by
  obtain ⟨world, events, result⟩ := o
  cases result with
  | error e => rfl
  | ok a =>
    simp only [Outcome.next, Outcome.letGo, hk]

theorem escalate_letGo (unit : Key .unit) :
    (w.letGo x).escalate unit = ((w.escalate unit).1.letGo x, (w.escalate unit).2) := by
  simp only [escalate, unit_letGo, WorkUnit.heldIf]
  cases (w.units.get unit).variant with
  | request q =>
    dsimp only
    split
    · simp only [set_unit_letGo]
      rfl
    · rfl
  | _ => rfl

theorem observe_letGo (h : Handle) (expression : String) :
    (w.letGo x).observe h expression =
      ((w.observe h expression).1.letGo x, (w.observe h expression).2) := by
  simp only [observe, awaited_letGo]
  cases h.guard? with
  | none => rfl
  | some g =>
    dsimp only
    split
    · rfl
    · simp only [tell, escalate_letGo, reporters_letGo]
      cases x <;> rfl

theorem callValue_letGo {v : Value} {call : Call}
    (h : ∀ a, v.attempt? call = some a → x ∉ a.contexts) :
    (w.letGo x).callValue v call = (w.callValue v call).letGo x := by
  unfold callValue
  rw [decide_letGo w x h]
  exact next_letGo x _ fun w _ => w.performed_letGo x v call

theorem callHandle_letGo {h : Handle} {call : Call}
    (ha : ∀ a, h.attempt? call = some a → x ∉ a.contexts) :
    (w.letGo x).callHandle h call = (w.callHandle h call).letGo x := by
  unfold callHandle
  cases hs : h.state with
  | pending r key route => rfl
  | resolved v =>
    rw [Handle.attempt?_resolved hs] at ha
    dsimp only
    rw [decide_letGo w x ha]
    refine next_letGo x _ fun w _ => ?_
    simp only [observe_letGo, performed_letGo]
    rfl

/-! ## Awaiting -/

theorem markAwaited_letGo (h : Handle) :
    (w.letGo x).markAwaited h = (w.markAwaited h).letGo x := by
  simp only [markAwaited, awaited_letGo]
  split
  · cases x <;> rfl
  · rfl

theorem poll_letGo (f : Future) :
    (w.letGo x).poll f = ((w.poll f).1.letGo x, (w.poll f).2) := by
  simp only [poll, markAwaited_letGo, signals_letGo]
  cases f.handle.state with
  | resolved v => rfl
  | pending r key route => cases f.listener <;> cases x <;> rfl

theorem dropFuture_letGo (f : Future) :
    (w.letGo x).dropFuture f = (w.dropFuture f).letGo x := by
  simp only [dropFuture, signals_letGo]
  split <;> cases x <;> rfl

theorem pollOnce_letGo (h : Handle) (waker : Waker) :
    (w.letGo x).pollOnce h waker =
      ((w.pollOnce h waker).1.letGo x, (w.pollOnce h waker).2) := by
  simp only [pollOnce, poll_letGo, dropFuture_letGo]

theorem abortSignal_letGo (key : Key .signal) :
    (w.letGo x).abortSignal key = ((w.abortSignal key).1.letGo x, (w.abortSignal key).2) := by
  cases x <;> rfl

/-! ## What is still held -/

theorem holds_letGo (y : Context) : (w.letGo x).holds y = (w.holds y && x ≠ y) := by
  cases y with
  | work k => simp [holds, Work.heldIf]
  | unit k => simp [holds, WorkUnit.heldIf]

theorem all_holds_letGo (l : List Context) :
    l.all (w.letGo x).holds = true ↔ l.all w.holds = true ∧ x ∉ l := by
  simp only [List.all_eq_true, holds_letGo, Bool.and_eq_true, decide_eq_true_eq]
  constructor
  · exact fun h => ⟨fun y hy => (h y hy).1, fun hx => (h x hx).2 rfl⟩
  · exact fun ⟨hall, hx⟩ y hy => ⟨hall y hy, fun same => hx (same ▸ hy)⟩

theorem scope?_eq_some {work : Option (Key .work)} {unit : Option (Key .unit)} {scope : Scope} :
    w.scope? work unit = some scope ↔
      work = some scope.work ∧ unit = some scope.unit ∧ scope.contexts.all w.holds = true := by
  obtain ⟨k, j⟩ := scope
  cases work with
  | none => simp [scope?]
  | some work =>
    cases unit with
    | none => simp [scope?]
    | some unit =>
      simp only [scope?, Scope.contexts, List.all_cons, List.all_nil, holds]
      grind

theorem scope?_letGo {work : Option (Key .work)} {unit : Option (Key .unit)}
    (h : ∀ scope, w.scope? work unit = some scope → x ∉ scope.contexts) :
    (w.letGo x).scope? work unit = w.scope? work unit := by
  ext scope
  rw [scope?_eq_some, scope?_eq_some, all_holds_letGo]
  constructor
  · exact fun ⟨hwork, hunit, hall, _⟩ => ⟨hwork, hunit, hall⟩
  · exact fun ⟨hwork, hunit, hall⟩ =>
      ⟨hwork, hunit, hall, h scope (w.scope?_eq_some.mpr ⟨hwork, hunit, hall⟩)⟩

/-! ## Switching draft mode where something is gone -/

variable {w}

theorem decideSwitch_missing {a : Attempt} (h : a.contexts.all w.holds = false) :
    w.decideSwitch a.binding a.expression = w.refuse (.missingStore a.expression) := by
  have hgone :
      ((w.works.get a.binding.work).alive && (w.units.get a.binding.unit).alive) = false := by
    simpa [Attempt.contexts, holds, Attempt.work, Attempt.unit] using h
  simp only [decideSwitch, hgone]
  rfl

theorem decide_missing {v : Value} {call : Call} {a : Attempt} (ha : v.attempt? call = some a)
    (h : a.contexts.all w.holds = false) :
    w.decide v call = w.refuse (.missingStore a.expression) := by
  rw [(decide_of_attempt ha).1, decideSwitch_missing h]

theorem callValue_missing {v : Value} {call : Call} {a : Attempt} (ha : v.attempt? call = some a)
    (h : a.contexts.all w.holds = false) :
    w.callValue v call = w.refuse (.missingStore a.expression) := by
  rw [callValue, decide_missing ha h]
  rfl

theorem callHandle_missing {k : Handle} {call : Call} {a : Attempt} (ha : k.attempt? call = some a)
    (h : a.contexts.all w.holds = false) :
    w.callHandle k call = w.refuse (.missingStore a.expression) := by
  obtain ⟨v, hs, hv⟩ := Handle.resolved_of_attempt ha
  simp only [callHandle, hs, decide_missing hv h]
  rfl

end World

namespace Session

variable (s : Session) (x : Context)

/-! ## Steps -/

theorem asked_letGo (saveAs : Option String) (result : Option (Except AccessError Value)) :
    (s.letGo x).asked saveAs result = (s.asked saveAs result).letGo x := by
  cases result with
  | none => rfl
  | some result =>
    cases result with
    | error e => rfl
    | ok v => cases saveAs <;> rfl

theorem forget_letGo (name : String) : (s.letGo x).forget name = (s.forget name).letGo x := by
  have hn : (s.letGo x).futures.get? name = s.futures.get? name := rfl
  unfold forget
  rw [hn]
  cases s.futures.get? name with
  | none => rfl
  | some f =>
    have hw : (s.letGo x).world = s.world.letGo x := rfl
    simp only [hw, World.dropFuture_letGo]
    rfl

theorem withHandle_letGo {name : String} {f g : Handle → After}
    (h : ∀ k, s.handles.get? name = some k → g k = (f k).letGo x) :
    (s.letGo x).withHandle name g = (s.withHandle name f).letGo x := by
  have hn : (s.letGo x).handles.get? name = s.handles.get? name := rfl
  unfold withHandle
  rw [hn]
  cases hk : s.handles.get? name with
  | none => rfl
  | some k => exact h k hk

theorem fetch_letGo (r : Resource) (c : Key .coordinator) {work : Option (Key .work)}
    {unit : Option (Key .unit)} (saveAs : Option String)
    (h : ∀ scope, s.world.scope? work unit = some scope → x ∉ scope.contexts) :
    (s.letGo x).fetch r c work unit saveAs = (s.fetch r c work unit saveAs).letGo x := by
  have hw : (s.letGo x).world = s.world.letGo x := rfl
  unfold fetch
  simp only [hw, World.scope?_letGo s.world x h, World.fetch_letGo, Outcome.letGo]
  cases (s.world.fetch c (s.world.scope? work unit) r).result with
  | error e => rfl
  | ok k => cases saveAs <;> rfl

theorem now_letGo (h : Handle) (saveAs : Option String) :
    (s.letGo x).now h saveAs = (s.now h saveAs).letGo x := by
  have hw : (s.letGo x).world = s.world.letGo x := rfl
  have hk : (s.letGo x).nextWaker = s.nextWaker := rfl
  simp only [now, hw, hk, World.pollOnce_letGo, ← asked_letGo]
  rfl

theorem start_letGo (h : Handle) (future : String) :
    (s.letGo x).start h future = (s.start h future).letGo x := by
  simp only [start, forget_letGo]
  rfl

theorem poll_letGo (name : String) (f : Future) (saveAs : Option String) :
    (s.letGo x).poll name f saveAs = (s.poll name f saveAs).letGo x := by
  have hw : (s.letGo x).world = s.world.letGo x := rfl
  simp only [Session.poll, hw, World.poll_letGo, ← asked_letGo]
  split
  · rw [← forget_letGo]
    rfl
  · rfl

theorem attempt?_letGo {step : Step} {a : Attempt} (h : (s.letGo x).attempt? step = some a) :
    s.attempt? step = some a := by
  cases step with
  | fetch r c work unit saveAs =>
    obtain ⟨scope, hscope, ha⟩ := Option.map_eq_some_iff.mp h
    obtain ⟨hwork, hunit, hall⟩ := (World.scope?_eq_some _).mp hscope
    have hheld := (World.all_holds_letGo s.world x _).mp hall
    exact Option.map_eq_some_iff.mpr
      ⟨scope, (World.scope?_eq_some _).mpr ⟨hwork, hunit, hheld.1⟩, ha⟩
  | _ => exact h

theorem step_letGo {step : Step} (hl : step.letsGo? = none)
    (h : ∀ a, s.attempt? step = some a → x ∉ a.contexts) :
    (s.letGo x).step step = (s.step step).letGo x := by
  have hw : (s.letGo x).world = s.world.letGo x := rfl
  cases step with
  | fetch r c work unit saveAs =>
    refine s.fetch_letGo x r c saveAs fun scope hscope => ?_
    exact h (.ofFetch (scope.binding c) r) (Option.map_eq_some_iff.mpr ⟨scope, hscope, rfl⟩)
  | callHandle name call =>
    refine s.withHandle_letGo x fun k hk => ?_
    have hcall : (s.world.letGo x).callHandle k call = (s.world.callHandle k call).letGo x :=
      World.callHandle_letGo _ x fun a ha => h a (Option.bind_eq_some_iff.mpr ⟨k, hk, ha⟩)
    rw [hw, hcall]
    rfl
  | callValue name call =>
    have hv : (s.letGo x).values = s.values := rfl
    simp only [Session.step, hv]
    cases hk : s.values.get? name with
    | none => rfl
    | some v =>
      have hcall : (s.world.letGo x).callValue v call = (s.world.callValue v call).letGo x :=
        World.callValue_letGo _ x fun a ha => h a (Option.bind_eq_some_iff.mpr ⟨v, hk, ha⟩)
      dsimp only
      rw [hw, hcall]
      rfl
  | now name saveAs => exact s.withHandle_letGo x fun k _ => s.now_letGo x k saveAs
  | start name future => exact s.withHandle_letGo x fun k _ => s.start_letGo x k future
  | poll name saveAs =>
    have hf : (s.letGo x).futures = s.futures := rfl
    simp only [Session.step, hf]
    cases s.futures.get? name with
    | none => rfl
    | some f => exact s.poll_letGo x name f saveAs
  | clone name saveAs => exact s.withHandle_letGo x fun k _ => rfl
  | abort key =>
    simp only [Session.step, hw, World.abortSignal_letGo]
    rfl
  | dropWork key => cases hl
  | dropUnit key => cases hl
  | dropHandle name => rfl
  | dropValue name => rfl
  | dropFuture name =>
    simp only [Session.step, forget_letGo]
    rfl
  | callJar key call =>
    simp only [Session.step, hw, World.callJar_letGo]
    rfl
  | callHeaders key call =>
    simp only [Session.step, hw, World.callHeaders_letGo]
    rfl
  | callDraft key call =>
    simp only [Session.step, hw, World.callDraft_letGo]
    rfl

/-! ## Where something is gone -/

/-- The session after its callers let go of some works and units. -/
def without (s : Session) (gone : List Context) : Session := gone.foldr (fun x s => s.letGo x) s

theorem without_frame (gone : List Context) :
    s.without gone = { s with world := (s.without gone).world } := by
  induction gone with
  | nil => rfl
  | cons x rest ih => exact congrArg (letGo · x) ih

theorem holds_without (gone : List Context) (y : Context) :
    (s.without gone).world.holds y = (s.world.holds y && y ∉ gone) := by
  induction gone with
  | nil => simp [without]
  | cons x rest ih =>
    have hcons : (s.without (x :: rest)).world = (s.without rest).world.letGo x := rfl
    rw [hcons, World.holds_letGo, ih]
    simp [Bool.and_assoc, Bool.and_comm, eq_comm]

theorem attempt?_without {gone : List Context} {step : Step} {a : Attempt}
    (h : (s.without gone).attempt? step = some a) : s.attempt? step = some a := by
  induction gone with
  | nil => exact h
  | cons x rest ih => exact ih (attempt?_letGo _ x h)

theorem step_without {gone : List Context} {step : Step} (hl : step.letsGo? = none)
    (h : ∀ a, s.attempt? step = some a → ∀ x ∈ a.contexts, x ∉ gone) :
    (s.without gone).step step =
      { s.step step with session := (s.step step).session.without gone } := by
  induction gone with
  | nil => rfl
  | cons x rest ih =>
    have hrest := ih fun a ha y hy hmem => h a ha y hy (List.mem_cons_of_mem x hmem)
    have hx := step_letGo (s.without rest) x hl fun a ha hmem =>
      h a (s.attempt?_without ha) x hmem List.mem_cons_self
    exact hx.trans (congrArg (After.letGo · x) hrest)

variable {s}

theorem step_missing {step : Step} {a : Attempt} (ha : s.attempt? step = some a)
    (h : a.contexts.all s.world.holds = false) :
    s.step step = { session := s, reply := .failed (.missingStore a.expression) } := by
  cases step with
  | fetch r c work unit saveAs =>
    obtain ⟨scope, hscope, rfl⟩ := Option.map_eq_some_iff.mp ha
    have hheld := ((World.scope?_eq_some _).mp hscope).2.2
    exact absurd (hheld.symm.trans h) (by decide)
  | callHandle name call =>
    obtain ⟨k, hk, hcall⟩ := Option.bind_eq_some_iff.mp ha
    simp only [Session.step, withHandle, hk, World.callHandle_missing hcall h]
    rfl
  | callValue name call =>
    obtain ⟨v, hv, hcall⟩ := Option.bind_eq_some_iff.mp ha
    simp only [Session.step, hv, World.callValue_missing hcall h]
    rfl
  | _ => cases ha

theorem step_lost {gone : List Context} {step : Step} {a : Attempt} {x : Context}
    (ha : s.attempt? step = some a) (hx : x ∈ a.contexts) (hgone : x ∈ gone) :
    (s.without gone).step step =
      { session := s.without gone, reply := .failed (.missingStore a.expression) } := by
  have hlost : a.contexts.all (s.without gone).world.holds = false := by
    rw [List.all_eq_false]
    exact ⟨x, hx, by simp [holds_without, hgone]⟩
  cases step with
  | fetch r c work unit saveAs =>
    -- No scope is found any more, so the fetch is not even an attempt in what is left.
    obtain ⟨scope, hscope, rfl⟩ := Option.map_eq_some_iff.mp ha
    obtain ⟨rfl, rfl, -⟩ := (World.scope?_eq_some _).mp hscope
    have hnone : (s.without gone).world.scope? (some scope.work) (some scope.unit) = none := by
      refine Option.eq_none_iff_forall_ne_some.mpr fun found hfound => ?_
      obtain ⟨hwork, hunit, hheld⟩ := (World.scope?_eq_some _).mp hfound
      have hsame : found.contexts = (Attempt.ofFetch (scope.binding c) r).contexts := by
        simp only [Scope.contexts, ← Option.some.inj hwork, ← Option.some.inj hunit]
        rfl
      exact absurd ((hsame ▸ hheld).symm.trans hlost) (by decide)
    simp only [Session.step, fetch, hnone]
    rfl
  | callHandle name call | callValue name call =>
    refine step_missing ?_ hlost
    rw [s.without_frame gone]
    exact ha
  | _ => cases ha

end Session

/-! ## Runs -/

/-- A session whose works and units last. What its callers let go of is only noted. -/
structure Lasting where
  session : Session
  gone : List Context := []

namespace Lasting

/-- The session that the callers are left with. -/
def left (l : Lasting) : Session := l.session.without l.gone

/-- What a step would have decided in a work or a unit that is gone. -/
def lost? (l : Lasting) (step : Step) : Option Attempt :=
  (l.session.attempt? step).filter fun a => a.contexts.any (· ∈ l.gone)

/-- Refuses what would be decided where something is gone, and does everything else as if nobody
had let go. -/
def step (l : Lasting) (step : Step) : Lasting × List Event × Reply :=
  match step.letsGo?, l.lost? step with
  | some x, _ =>
    ({ l with gone := x :: l.gone }, [], .existed (l.session.world.holds x && x ∉ l.gone))
  | none, some a => (l, [], .failed (.missingStore a.expression))
  | none, none =>
    let after := l.session.step step
    ({ l with session := after.session }, after.events, after.reply)

def run (l : Lasting) : List Step → Lasting × List (List Event × Reply)
  | [] => (l, [])
  | step :: rest =>
    let (next, shown) := l.step step
    let (last, replies) := next.run rest
    (last, shown :: replies)

variable (l : Lasting)

theorem step_letsGo {step : Step} {x : Context} (h : step.letsGo? = some x) :
    l.left.step step =
      { session := { l with gone := x :: l.gone }.left
        reply := .existed (l.session.world.holds x && x ∉ l.gone) } := by
  rw [← l.session.holds_without l.gone x]
  cases step <;> cases h <;> rfl

/-- A step in the session that the callers are left with comes to what it does where everything
lasts. -/
theorem step_left (step : Step) :
    l.left.step step =
      { session := (l.step step).1.left
        events := (l.step step).2.1
        reply := (l.step step).2.2 } := by
  cases hl : step.letsGo? with
  | some x =>
    simp only [Lasting.step, hl]
    exact l.step_letsGo hl
  | none =>
    cases ha : l.lost? step with
    | some a =>
      obtain ⟨hattempt, hgone⟩ := Option.filter_eq_some_iff.mp ha
      obtain ⟨x, hx, hmem⟩ := List.any_eq_true.mp hgone
      simp only [Lasting.step, hl, ha]
      exact Session.step_lost hattempt hx (of_decide_eq_true hmem)
    | none =>
      simp only [Lasting.step, hl, ha]
      refine l.session.step_without hl fun a hattempt x hx hgone => ?_
      exact Option.filter_eq_none_iff.mp ha a hattempt
        (List.any_eq_true.mpr ⟨x, hx, decide_eq_true hgone⟩)

theorem run_left (steps : List Step) :
    l.left.run steps = ((l.run steps).1.left, (l.run steps).2) := by
  induction steps generalizing l with
  | nil => rfl
  | cons step rest ih =>
    simp only [Session.run, step_left, ih]
    rfl

end Lasting

namespace Session

/-- Handles, values and futures outlive their works and units. Where one of the two is gone, draft
mode is not switched and nothing else happens. In every run, all that is shown and all that is left
is what would be if nobody had let go of anything, but for those refusals. -/
theorem handles_outlive_contexts (s : Session) (steps : List Step) :
    (∀ m ∈ s.moments steps, ∀ a, m.attempt? = some a →
      a.contexts.all m.before.world.holds = false →
      m.after = { session := m.before, reply := .failed (.missingStore a.expression) }) ∧
    s.run steps =
      ((({ session := s } : Lasting).run steps).1.left,
        (({ session := s } : Lasting).run steps).2) :=
  ⟨fun _ _ _ ha h => step_missing ha h, Lasting.run_left { session := s } steps⟩

/-- Draft mode of a static page, fetched after the response. Once the work is gone, only that
counts. -/
theorem handles_outlive_contexts_after_static :
    let w : World :=
      { drafts := ⟨[.switch true]⟩
        works := ⟨[{ route := "/", forceStatic := true }]⟩
        units := ⟨[{ variant := .request {
          cookies := ⟨0⟩, mutableCookies := ⟨0⟩, headers := ⟨0⟩, draft := some ⟨0⟩,
          phase := .after } }]⟩ }
    let steps : List Step :=
      [.fetch .draftMode ⟨0⟩ (some ⟨0⟩) (some ⟨0⟩) (some "d"), .dropWork ⟨0⟩,
        .callHandle "d" (.draft .enable)]
    ∃ m ∈ (ofWorld w).moments steps, m.step = .callHandle "d" (.draft .enable) ∧
      m.before.world.holds (.work ⟨0⟩) = false ∧
      m.after =
        { session := m.before, reply := .failed (.missingStore "draftMode().enable()") } := by
  intro w steps
  let b : Binding := { coordinator := ⟨0⟩, work := ⟨0⟩, unit := ⟨0⟩ }
  have hlast : _ ∈ (ofWorld w).moments steps := .tail _ (.tail _ (.head _))
  refine ⟨_, hlast, rfl, rfl, ?_⟩
  exact (handles_outlive_contexts (ofWorld w) steps).1 _ hlast
    (.ofSwitch b DraftCall.enable.expression) rfl rfl

end Session

end RequestAccess
