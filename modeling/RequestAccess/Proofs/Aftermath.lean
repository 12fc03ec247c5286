import RequestAccess.Proofs.Memory

/-!
# What a refused access leaves

An access that ends in an error changes what the kind of the error prescribes. No handle is
remembered, no use of dynamic data is noted and nothing is told, whatever the kind.
-/

namespace RequestAccess

/-! ## What each kind prescribes -/

/-- The world after an attempt that ended in an error, by the kind of the error. -/
def World.Prescribed (w : World) (a : Attempt) (after : World) : AccessError → Prop
  | .missingStore _ | .staticBailout .. | .invariant _ | .afterNotSupported .. => after = w
  | .invalidDynamicUsage own =>
    (w.workOf a).latch = some own ∧ after = w ∨
      (w.workOf a).latch = none ∧ after = w.withLatch a.work own
  | .postponed p =>
    ∃ log, (w.unitOf a).variant = .prerenderPartial log ∧
      match (w.coordinators.get a.binding.coordinator).postponer with
      | .tracking => after = w.withRecord log a.expression
      | .byHost host =>
        let left := host.suspend (w.workOf a).route a.expression (w.logs.get log)
        p = left.2 ∧ after = w.withLog log left.1
  | .dynamicServer .. =>
    ∃ period, (w.unitOf a).variant = .prerenderLegacy period ∧
      after = w.withBailout a.work a.unit a.expression
  | .prerenderInterrupted .. =>
    ∃ p, (w.unitOf a).variant.deferring? = some p ∧
      after =
        (p.log.elim w fun log => w.withRecord log ("`" ++ a.expression ++ "`")).withSignalFired
          p.signal
  | .hangingPromiseRejection .. | .syncAccessUnavailable .. | .store _ => False

/-- The events of refusals. None of them tells a use or ends the dry run of a request. -/
def Event.isRefusal : Event → Bool
  | cacheUse .. | staticBailout .. | legacyBailout .. | dryRunAborted .. | postponed .. => true
  | dryRunEscalated .. | diagnosed _ | logged .. => false

/-- What no refusal changes. -/
structure World.Spares (w w' : World) : Prop where
  memory (k : Key .unit) : (w'.units.get k).handles = (w.units.get k).handles
  /-- A live request counts no use of dynamic data, and its dry run goes on. -/
  requests (k : Key .unit) (q : LiveRequest) (hq : (w.units.get k).variant = .request q) :
    (w'.units.get k).variant = .request q
  drafts : w'.drafts = w.drafts
  jars : w'.jars = w.jars
  headers : w'.headers = w.headers
  reporters : w'.reporters = w.reporters
  awaited : w'.awaited = w.awaited
  coordinators : w'.coordinators = w.coordinators

namespace World

variable {w w' : World} {a : Attempt} {e : AccessError} {events : List Event}

theorem Refused.prescribed (h : w.Refused a e events w') : w.Prescribed a w' e := by
  cases h with
  | missingStore | afterNotSupported _ | staticBailout _ | inClientComponent _ _ _ => exact rfl
  | latched old scope hl _ => exact .inl ⟨hl, rfl⟩
  | latching scope hl _ => exact .inr ⟨hl, rfl⟩
  | postponed log hv hp =>
    refine ⟨log, hv, ?_⟩
    rw [hp]
  | postponedByHost log host hv hp =>
    refine ⟨log, hv, ?_⟩
    rw [hp]
    exact ⟨rfl, rfl⟩
  | dynamicServer period hv => exact ⟨period, hv, rfl⟩
  | interrupted p hp => exact ⟨p, hp, rfl⟩

theorem Refused.isRefusal (h : w.Refused a e events w') : ∀ event ∈ events, event.isRefusal := by
  cases h with
  | missingStore | afterNotSupported _ | inClientComponent _ _ _ | postponedByHost _ _ _ _ =>
    intro event he
    cases he
  | staticBailout _ | latched _ _ _ _ | latching _ _ _ | postponed _ _ _ | dynamicServer _ _ =>
    intro event he
    rw [List.mem_singleton.mp he]
    rfl
  | interrupted p hp =>
    intro event he
    split at he
    · rw [List.mem_singleton.mp he]
      rfl
    · cases he

theorem Spares.refl (w : World) : w.Spares w :=
  ⟨fun _ => rfl, fun _ _ hq => hq, rfl, rfl, rfl, rfl, rfl, rfl⟩

theorem Refused.spares (h : w.Refused a e events w') : w.Spares w' := by
  cases h with
  | missingStore | afterNotSupported _ | staticBailout _ | inClientComponent _ _ _
  | latched _ _ _ _ => exact .refl w
  | latching _ _ _ | postponed _ _ _ | postponedByHost _ _ _ _ =>
    exact ⟨fun _ => rfl, fun _ _ hq => hq, rfl, rfl, rfl, rfl, rfl, rfl⟩
  | interrupted p hp =>
    cases p.log <;> exact ⟨fun _ => rfl, fun _ _ hq => hq, rfl, rfl, rfl, rfl, rfl, rfl⟩
  | dynamicServer period hv =>
    refine ⟨?_, ?_, rfl, rfl, rfl, rfl, rfl, rfl⟩
    · exact Table.forall_set
        (P := fun k (u : WorkUnit) => u.handles = (w.units.get k).handles) rfl fun _ => rfl
    · refine Table.forall_set
        (P := fun k (u : WorkUnit) => ∀ q, (w.units.get k).variant = .request q →
          u.variant = .request q) ?_ fun _ _ hq => hq
      intro q hq
      cases hq.symm.trans hv

end World

/-! ## Accesses -/

/-- The world after a refused access. Without a scope there is nothing to decide. -/
def Session.Prescribed (s : Session) (step : Step) (after : World) (e : AccessError) : Prop :=
  match s.attempt? step with
  | some a => s.world.Prescribed a after e
  | none => (∃ expression, e = .missingStore expression) ∧ after = s.world

/-- How a session is left by a refused access. -/
inductive Session.Refused (s : Session) (step : Step) (e : AccessError) : Prop where
  /-- There is no scope to decide in. -/
  | nowhere (expression : String) (ha : s.attempt? step = none) (he : e = .missingStore expression)
      (h : s.step step = { session := s, reply := .failed e })
  | attempt (a : Attempt) (events : List Event) (w : World) (ha : s.attempt? step = some a)
      (hr : s.world.Refused a e events w)
      (h : s.step step = { session := { s with world := w }, events, reply := .failed e })

namespace Session

variable {s : Session} {e : AccessError}

theorem fetch_refused {r : Resource} {c : Key .coordinator} {work : Option (Key .work)}
    {unit : Option (Key .unit)} {saveAs : Option String}
    (hr : (s.step (.fetch r c work unit saveAs)).reply = .failed e) :
    s.Refused (.fetch r c work unit saveAs) e := by
  have hf := s.fetch_fetched r c work unit saveAs
  change (s.fetch r c work unit saveAs).reply = .failed e at hr
  generalize hs : s.fetch r c work unit saveAs = after at hf hr
  cases hf with
  | nowhere hc =>
    cases hr
    refine .nowhere r.api ?_ rfl hs
    simp [attempt?, hc]
  | refused scope e' events w hc href =>
    cases hr
    refine .attempt (.ofFetch (scope.binding c) r) events w ?_ href hs
    simp [attempt?, hc]
  | given scope h events w hc hg => cases hr

theorem answered_failed {o : Outcome (Except AccessError Answer)}
    (hr : (s.answered o).reply = .failed e) : o.result = .error e := by
  unfold answered at hr
  cases ho : o.result with
  | ok x => simp [ho] at hr
  | error e' =>
    rw [ho] at hr
    cases hr
    rfl

end Session

/-! ## Hosts that leave branches for later -/

/-- What a host owes: its log names every use for which a branch was left for later. -/
def Host.Marks (host : Host) : Prop :=
  ∀ route expression t, expression ∈ (host.suspend route expression t).1.expressions

/-- A host that keeps each expression once. -/
def Host.once : Host where
  suspend route expression t :=
    (if expression ∈ t.expressions then t else t.record { expression }, .standard route expression)
  grows route expression t := by
    dsimp only
    split
    · exact List.prefix_refl _
    · exact List.prefix_append _ _
  names _ _ _ := ⟨rfl, rfl⟩

end RequestAccess
