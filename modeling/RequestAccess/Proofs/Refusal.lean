import RequestAccess.Proofs.Run

/-!
# What a refusal does

One rule for each kind of refusal: when it can come, what it says, and the world it leaves. Every
decision of the protocol that ends in an error follows one of the rules.
-/

namespace RequestAccess

/-! ## The rules -/

def Phase.cacheScope? : Phase → Option CacheScope
  | .cache => some .useCache
  | .privateCache => some .privateCache
  | .unstableCache => some .unstableCache
  | _ => none

/-- The dry runs that give handles which wait for their signal. -/
def Variant.deferring? : Variant → Option Prerender
  | .prerender p | .prerenderRuntime p => some p
  | _ => none

namespace World

variable (w : World) (a : Attempt)

def workOf : Work := w.works.get a.work

def unitOf : WorkUnit := w.units.get a.unit

/-- The error that an attempt in a cache scope builds, if its work has none yet. -/
def ownError (scope : CacheScope) : UsageError :=
  { work := a.work, serial := (w.workOf a).errorsBuilt, use := a.use, route := (w.workOf a).route,
    expression := a.expression, scope }

/-- The work keeps its first error. -/
def withLatch (k : Key .work) (e : UsageError) : World :=
  { w with works := w.works.modify k fun work =>
      { work with latch := some e, errorsBuilt := work.errorsBuilt + 1 } }

def withRecord (log : Key .log) (expression : String) : World :=
  { w with logs := w.logs.modify log fun t => t.record { expression } }

def withLog (log : Key .log) (t : Tracking) : World := { w with logs := w.logs.set log t }

def withSignalFired (signal : Key .signal) : World :=
  { w with signals := w.signals.modify signal fun s => s.abort.1 }

/-- The page of a legacy unit is never kept, and the work notes why. -/
def withBailout (k : Key .work) (unit : Key .unit) (expression : String) : World :=
  { w with
    works := w.works.modify k fun work => { work with dynamicUsage := some expression }
    units := w.units.modify unit fun u => { u with variant := .prerenderLegacy (some 0) } }

/-- How an attempt is refused: the error, what is seen of it, and the world after it. -/
inductive Refused : AccessError → List Event → World → Prop where
  | missingStore : Refused (.missingStore a.expression) [] w
  | afterNotSupported (h : (w.unitOf a).variant.isAfter = true) :
    Refused (.afterNotSupported (w.workOf a).route a.expression) [] w
  | staticBailout (h : (w.workOf a).dynamicShouldError = true) :
    Refused (.staticBailout (w.workOf a).route a.expression)
      [.staticBailout (w.workOf a).route a.expression] w
  | inClientComponent (api : String) (p : Prerender)
    (h : (w.unitOf a).variant = .prerenderClient p) : Refused (.inClientComponent api) [] w
  | latched (e : UsageError) (scope : CacheScope) (h : (w.workOf a).latch = some e)
    (hs : (w.unitOf a).variant.phase.cacheScope? = some scope) :
    Refused (.invalidDynamicUsage e)
      [.cacheUse a.use (w.workOf a).route a.expression scope] w
  | latching (scope : CacheScope) (h : (w.workOf a).latch = none)
    (hs : (w.unitOf a).variant.phase.cacheScope? = some scope) :
    Refused (.invalidDynamicUsage (w.ownError a scope))
      [.cacheUse a.use (w.workOf a).route a.expression scope]
      (w.withLatch a.work (w.ownError a scope))
  | postponed (log : Key .log) (h : (w.unitOf a).variant = .prerenderPartial log)
    (hp : (w.coordinators.get a.binding.coordinator).postponer = .tracking) :
    Refused (.postponed (.standard (w.workOf a).route a.expression))
      [.postponed (w.workOf a).route a.expression] (w.withRecord log a.expression)
  | postponedByHost (log : Key .log) (host : Host)
    (h : (w.unitOf a).variant = .prerenderPartial log)
    (hp : (w.coordinators.get a.binding.coordinator).postponer = .byHost host) :
    Refused (.postponed (host.suspend (w.workOf a).route a.expression (w.logs.get log)).2) []
      (w.withLog log (host.suspend (w.workOf a).route a.expression (w.logs.get log)).1)
  | dynamicServer (period : Option UInt64) (h : (w.unitOf a).variant = .prerenderLegacy period) :
    Refused (.dynamicServer (w.workOf a).route a.expression)
      [.legacyBailout (w.workOf a).route a.expression] (w.withBailout a.work a.unit a.expression)
  | interrupted (p : Prerender) (h : (w.unitOf a).variant.deferring? = some p) :
    Refused (.prerenderInterrupted (w.workOf a).route ("`" ++ a.expression ++ "`"))
      (if (w.signals.get p.signal).abort.2 then
        [.dryRunAborted (w.workOf a).route ("`" ++ a.expression ++ "`")] else [])
      ((p.log.elim w fun log => w.withRecord log ("`" ++ a.expression ++ "`")).withSignalFired
        p.signal)

end World

/-- An outcome that, if it is an error, refuses an attempt by the rules. -/
def Outcome.Refuses {α : Type} (o : Outcome (Except AccessError α)) (w : World) (a : Attempt) :
    Prop :=
  ∀ e, o.result = .error e → w.Refused a e o.events o.world

/-! ## Each way of refusing -/

namespace World

variable {α : Type} {w : World} {a : Attempt}

theorem refuse_refuses {e : AccessError} (h : w.Refused a e [] w) :
    (w.refuse e : Outcome (Except AccessError α)).Refuses w a := by
  intro e' he
  cases he
  exact h

theorem refuseInCache_refuses {v : Variant} (scope : CacheScope) (h : (w.unitOf a).variant = v)
    (hs : v.phase.cacheScope? = some scope) :
    (w.refuseInCache a.work a.use a.expression scope :
      Outcome (Except AccessError α)).Refuses w a := by
  subst h
  intro e he
  unfold refuseInCache latchUsage at he ⊢
  cases hl : (w.works.get a.work).latch with
  | some old =>
    simp only [hl] at he ⊢
    cases he
    exact .latched old scope hl hs
  | none =>
    simp only [hl] at he ⊢
    cases he
    exact .latching scope hl hs

theorem unlessStatic_refuses {o : Outcome (Except AccessError α)} (h : o.Refuses w a) :
    (w.unlessStatic a.work a.expression o).Refuses w a := by
  simp only [unlessStatic]
  split
  · rename_i hs
    intro e he
    cases he
    exact .staticBailout hs
  · exact h

theorem unlessStatic_ok {k : Key .work} {expression : String} {o : Outcome (Except AccessError α)}
    {x : α} (h : (w.unlessStatic k expression o).result = .ok x) :
    w.unlessStatic k expression o = o := by
  revert h
  simp only [unlessStatic]
  split
  · intro h
    cases h
  · exact fun _ => rfl

theorem postpone_refuses (log : Key .log) (h : (w.unitOf a).variant = .prerenderPartial log) :
    (w.postpone a.binding.coordinator a.work log a.expression :
      Outcome (Except AccessError α)).Refuses w a := by
  intro e he
  unfold postpone at he ⊢
  cases hp : (w.coordinators.get a.binding.coordinator).postponer with
  | tracking =>
    simp only [hp] at he ⊢
    cases he
    exact .postponed log h hp
  | byHost host =>
    simp only [hp] at he ⊢
    cases he
    exact .postponedByHost log host h hp

theorem giveUp_refuses (period : Option UInt64)
    (h : (w.unitOf a).variant = .prerenderLegacy period) :
    (w.giveUp a.work a.unit a.expression : Outcome (Except AccessError α)).Refuses w a := by
  intro e he
  cases he
  exact .dynamicServer period h

theorem interrupt_refuses {v : Variant} (p : Prerender) (h : (w.unitOf a).variant = v)
    (hp : v.deferring? = some p) :
    (w.interrupt a.work p ("`" ++ a.expression ++ "`") :
      Outcome (Except AccessError α)).Refuses w a := by
  subst h
  intro e he
  cases he
  obtain ⟨signal, log⟩ := p
  cases log with
  | none => exact .interrupted ⟨signal, none⟩ hp
  | some log => exact .interrupted ⟨signal, some log⟩ hp

/-! ## Fetching -/

theorem give_refuses {w' : World} {unit : Key .unit} {r : Resource} {key : MemoKey}
    {state : HandleState} {guard? : Option Guard} :
    (w'.give unit r key state guard?).Refuses w a := by
  intro e he
  cases he

theorem giveDraft_refuses {b : Binding} {provider : Option (Key .draft)} :
    (w.giveDraft b provider).Refuses w a := by
  cases provider with
  | some key => exact give_refuses
  | none => exact give_refuses

theorem draftOr_refuses (b : Binding) (r : Resource) {o : Outcome (Except AccessError Handle)}
    (h : o.Refuses w a) : (w.draftOr b r o).Refuses w a := by
  cases r with
  | draftMode => exact giveDraft_refuses
  | cookies | headers => exact h

theorem fetchCached_refuses (b : Binding) {forwarded : Option (Key .draft)} (r : Resource)
    (h : (w.units.get b.unit).variant = .cache forwarded) :
    (w.fetchCached b r).Refuses w (.ofFetch b r) := by
  unfold fetchCached
  split
  · exact giveDraft_refuses
  · exact refuseInCache_refuses (a := .ofFetch b _) .useCache h rfl

theorem fetchDeferred_refuses (b : Binding) (p : Prerender) (r : Resource) :
    (w.fetchDeferred b p r).Refuses w a := by
  cases r with
  | draftMode => exact giveDraft_refuses
  | cookies | headers => exact give_refuses

theorem fetchPrivate_refuses (b : Binding) (cookies : Key .jar) (headers : Key .headers)
    (r : Resource) : (w.fetchPrivate b cookies headers r).Refuses w a := by
  cases r with
  | draftMode => exact giveDraft_refuses
  | cookies | headers => exact give_refuses

theorem fetchIn_refuses (w : World) (b : Binding) (r : Resource) :
    (w.fetchIn b r).Refuses w (.ofFetch b r) := by
  unfold fetchIn
  cases h : (w.units.get b.unit).variant with
  | cache forwarded => exact fetchCached_refuses b r h
  | unstableCache => exact refuseInCache_refuses (a := .ofFetch b r) .unstableCache h rfl
  | prerender p | prerenderRuntime p =>
    apply unlessStatic_refuses (a := .ofFetch b r)
    exact fetchDeferred_refuses b p r
  | prerenderClient p =>
    apply unlessStatic_refuses (a := .ofFetch b r)
    exact draftOr_refuses b r (refuse_refuses (.inClientComponent r.api p h))
  | prerenderPartial log =>
    apply unlessStatic_refuses (a := .ofFetch b r)
    exact draftOr_refuses b r (postpone_refuses (a := .ofFetch b r) log h)
  | prerenderLegacy period =>
    apply unlessStatic_refuses (a := .ofFetch b r)
    exact draftOr_refuses b r (giveUp_refuses (a := .ofFetch b r) period h)
  | request q =>
    apply unlessStatic_refuses (a := .ofFetch b r)
    exact give_refuses
  | privateCache cookies headers forwarded =>
    apply unlessStatic_refuses (a := .ofFetch b r)
    exact fetchPrivate_refuses b cookies headers r

/-- A fetch in a scope is refused by the rules. -/
theorem fetch_refuses (w : World) (c : Key .coordinator) (scope : Scope) (r : Resource) :
    (w.fetch c (some scope) r).Refuses w (.ofFetch (scope.binding c) r) := by
  simp only [fetch]
  split
  · intro e he
    cases he
  · exact w.fetchIn_refuses (scope.binding c) r

/-! ## Switching draft mode -/

theorem decideIn_refuses (w : World) (b : Binding) (expression : String) :
    (w.decideIn b expression).Refuses w (.ofSwitch b expression) := by
  unfold decideIn
  cases h : (w.units.get b.unit).variant with
  | cache forwarded => exact refuseInCache_refuses (a := .ofSwitch b expression) .useCache h rfl
  | privateCache cookies headers forwarded =>
    exact refuseInCache_refuses (a := .ofSwitch b expression) .privateCache h rfl
  | unstableCache =>
    exact refuseInCache_refuses (a := .ofSwitch b expression) .unstableCache h rfl
  | prerender p | prerenderRuntime p =>
    apply unlessStatic_refuses (a := .ofSwitch b expression)
    exact interrupt_refuses (a := .ofSwitch b expression) p h rfl
  | prerenderClient p =>
    apply unlessStatic_refuses (a := .ofSwitch b expression)
    exact refuse_refuses (.inClientComponent _ p h)
  | prerenderPartial log =>
    apply unlessStatic_refuses (a := .ofSwitch b expression)
    exact postpone_refuses (a := .ofSwitch b expression) log h
  | prerenderLegacy period =>
    apply unlessStatic_refuses (a := .ofSwitch b expression)
    exact giveUp_refuses (a := .ofSwitch b expression) period h
  | request q =>
    apply unlessStatic_refuses (a := .ofSwitch b expression)
    intro e he
    cases he

theorem decideSwitch_refuses (w : World) (b : Binding) (expression : String) :
    (w.decideSwitch b expression).Refuses w (.ofSwitch b expression) := by
  simp only [decideSwitch]
  split
  · exact refuse_refuses .missingStore
  split
  · rename_i h
    exact refuse_refuses (.afterNotSupported h)
  split
  · intro e he
    cases he
  · exact w.decideIn_refuses b expression

/-! ## Calls -/

theorem next_error {β : Type} {o : Outcome (Except AccessError α)} {e : AccessError}
    (h : o.result = .error e) (f : World → α → Outcome (Except AccessError β)) :
    o.next f = { world := o.world, events := o.events, result := .error e } := by
  simp [Outcome.next, h]

theorem next_ok {β : Type} {o : Outcome (Except AccessError α)} {x : α} (h : o.result = .ok x)
    (f : World → α → Outcome (Except AccessError β)) :
    o.next f = { f o.world x with events := o.events ++ (f o.world x).events } := by
  simp [Outcome.next, h]

theorem decide_of_attempt {v : Value} {call : Call} (h : v.attempt? call = some a) :
    w.decide v call = w.decideSwitch a.binding a.expression ∧ a.use = .mutation := by
  unfold Value.attempt? at h
  split at h
  · rename_i call
    cases call <;> simp only [DraftCall.isSwitch, ↓reduceIte] at h <;> cases h <;> exact ⟨rfl, rfl⟩
  · cases h

theorem decide_of_no_attempt {v : Value} {call : Call} (h : v.attempt? call = none) :
    w.decide v call = { world := w, result := .ok () } := by
  unfold decide
  split
  · cases h
  · cases h
  · rfl

theorem decide_refuses {v : Value} {call : Call} {e : AccessError}
    (he : (w.decide v call).result = .error e) :
    ∃ a, v.attempt? call = some a ∧
      w.Refused a e (w.decide v call).events (w.decide v call).world := by
  cases h : v.attempt? call with
  | none =>
    rw [decide_of_no_attempt h] at he
    cases he
  | some a =>
    refine ⟨a, rfl, ?_⟩
    obtain ⟨hd, hu⟩ := decide_of_attempt (w := w) h
    rw [hd] at he ⊢
    obtain ⟨b, use, expression⟩ := a
    cases hu
    exact w.decideSwitch_refuses b expression e he

end World

end RequestAccess
