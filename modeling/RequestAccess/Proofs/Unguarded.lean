import RequestAccess.Proofs.Aftermath
import RequestAccess.Proofs.Effect
import RequestAccess.Proofs.Reports

/-!
# Renders without their guards

Guards watch a render and do not steer it. A session with its guards taken away goes through every
script as the guarded session does.
-/

namespace RequestAccess

/-! ## Changing every entry -/

namespace Registry

variable {κ α β : Type} [DecidableEq κ] (f : α → β) (r : Registry κ α)

def map : Registry κ β := ⟨r.entries.map fun e => (e.1, f e.2)⟩

@[simp] theorem get?_map (k : κ) : (r.map f).get? k = (r.get? k).map f := by
  simp only [get?, map, List.find?_map, Option.map_map]
  rfl

theorem getOrCreate_map (k : κ) (a : α) :
    (r.map f).getOrCreate k (f a) =
      ((r.getOrCreate k a).1.map f, f (r.getOrCreate k a).2) := by
  unfold getOrCreate
  rw [get?_map]
  cases r.get? k with
  | some kept => rfl
  | none => simp [map]

end Registry

namespace Table

variable {kind : Kind} {α : Type} [Inhabited α] {f : α → α}

def map (f : α → α) (t : Table kind α) : Table kind α := ⟨t.rows.map f⟩

theorem get_map (hf : f default = default) (t : Table kind α) (k : Key kind) :
    (t.map f).get k = f (t.get k) := by
  simp only [get, map, List.getD_eq_getElem?_getD, List.getElem?_map]
  cases t.rows[k.index]? with
  | some a => rfl
  | none => exact hf.symm

theorem map_put (hf : f default = default) (a : α) (n : Nat) (rows : List α) :
    (put a n rows).map f = put (f a) n (rows.map f) := by
  induction n generalizing rows with
  | zero => cases rows <;> rfl
  | succ n ih => cases rows <;> simp [put, ih, hf]

theorem map_set (hf : f default = default) (t : Table kind α) (k : Key kind) (a : α) :
    (t.set k a).map f = (t.map f).set k (f a) :=
  congrArg Table.mk (map_put hf a k.index t.rows)

end Table

namespace NameMap

variable {α β : Type} (f : α → β) (m : NameMap α)

def map : NameMap β where
  entries := m.entries.map fun e => (e.1, f e.2)
  sorted := by
    unfold Entries.Sorted
    rw [List.pairwise_map]
    exact m.sorted

@[simp] theorem get?_map (name : String) : (m.map f).get? name = (m.get? name).map f := by
  obtain ⟨entries, sorted⟩ := m
  simp only [get?, map]
  clear sorted
  induction entries with
  | nil => rfl
  | cons e rest ih =>
    simp only [List.map_cons, Entries.find?]
    split
    · rfl
    · exact ih

@[simp] theorem contains_map (name : String) : (m.map f).contains name = m.contains name := by
  simp [contains]

theorem map_insert (name : String) (a : α) :
    (m.insert name a).map f = (m.map f).insert name (f a) := by
  ext other
  simp only [get?_map, get?_insert]
  split <;> rfl

theorem map_erase (name : String) : (m.erase name).map f = (m.map f).erase name := by
  ext other
  simp only [get?_map, get?_erase]
  split <;> rfl

end NameMap

/-! ## Taking the guards away -/

/-- A dry run that no unawaited use has ended. -/
def DryRun.unescalated : DryRun → DryRun
  | .escalated => .active
  | d => d

def Handle.unguarded (h : Handle) : Handle := { h with guard? := none }

def Future.unguarded (f : Future) : Future := { f with handle := f.handle.unguarded }

def WorkUnit.unguarded (u : WorkUnit) : WorkUnit :=
  { u with
    variant := u.variant.mapRequest fun q => { q with dryRun := q.dryRun.unescalated }
    handles := u.handles.map Handle.unguarded }

def Coordinator.unguarded (c : Coordinator) : Coordinator := { c with config := {} }

/-- The world without what guards can change: their reports, who was awaited, and which dry runs
were ended by unawaited use. -/
def World.unguarded (w : World) : World :=
  { w with
    units := w.units.map WorkUnit.unguarded
    coordinators := w.coordinators.map Coordinator.unguarded
    reporters := .empty
    awaited := [] }

def Session.unguarded (s : Session) : Session :=
  { s with
    world := s.world.unguarded
    handles := s.handles.map Handle.unguarded
    futures := s.futures.map Future.unguarded }

def Reply.unguarded : Reply → Reply
  | .handle h same => .handle h.unguarded same
  | reply => reply

/-- What is left of a step, with the events that tell no use. -/
def Session.After.unguarded (a : Session.After) : Session.After :=
  { session := a.session.unguarded, events := a.events.filter Event.isRefusal,
    reply := a.reply.unguarded }

def Outcome.unguarded {ε α : Type} (f : α → α) (o : Outcome (Except ε α)) : Outcome (Except ε α) :=
  { world := o.world.unguarded
    events := o.events.filter Event.isRefusal
    result := o.result.map f }

namespace World

variable {α : Type} {f : α → α} (w : World)

/-! ## Works and units -/

@[simp] theorem unit_unguarded (k : Key .unit) :
    w.unguarded.units.get k = (w.units.get k).unguarded := Table.get_map rfl ..

@[simp] theorem coordinator_unguarded (k : Key .coordinator) :
    w.unguarded.coordinators.get k = (w.coordinators.get k).unguarded := Table.get_map rfl ..

@[simp] theorem works_unguarded : w.unguarded.works = w.works := rfl

@[simp] theorem drafts_unguarded : w.unguarded.drafts = w.drafts := rfl

theorem set_unit_unguarded (k : Key .unit) (u : WorkUnit) :
    { w with units := w.units.set k u }.unguarded =
      { w.unguarded with units := w.unguarded.units.set k u.unguarded } := by
  unfold unguarded
  rw [Table.map_set rfl]

theorem scope?_unguarded (work : Option (Key .work)) (unit : Option (Key .unit)) :
    w.unguarded.scope? work unit = w.scope? work unit := by
  cases work <;> cases unit <;> simp [scope?, WorkUnit.unguarded]

theorem markDynamic_unguarded (k : Key .unit) :
    (w.markDynamic k).unguarded = w.unguarded.markDynamic k := by
  simp only [markDynamic, Table.modify, set_unit_unguarded, unit_unguarded]
  unfold WorkUnit.unguarded
  cases (w.units.get k).variant <;> rfl

/-! ## Refusals -/

theorem refuse_unguarded (e : AccessError) :
    (w.refuse e).unguarded f = w.unguarded.refuse e := rfl

theorem refuseInCache_unguarded (k : Key .work) (use : CacheUse) (expression : String)
    (scope : CacheScope) :
    (w.refuseInCache k use expression scope).unguarded f =
      w.unguarded.refuseInCache k use expression scope := by
  simp only [refuseInCache, latchUsage, works_unguarded]
  cases (w.works.get k).latch <;> rfl

theorem unlessStatic_unguarded (k : Key .work) (expression : String)
    (o : Outcome (Except AccessError α)) :
    (w.unlessStatic k expression o).unguarded f =
      w.unguarded.unlessStatic k expression (o.unguarded f) := by
  simp only [unlessStatic, works_unguarded, apply_ite (Outcome.unguarded f)]
  rfl

theorem postpone_unguarded (c : Key .coordinator) (k : Key .work) (log : Key .log)
    (expression : String) :
    (w.postpone c k log expression).unguarded f = w.unguarded.postpone c k log expression := by
  simp only [postpone, coordinator_unguarded, Coordinator.unguarded]
  split <;> rfl

theorem giveUp_unguarded (k : Key .work) (unit : Key .unit) (expression : String) :
    (w.giveUp k unit expression).unguarded f = w.unguarded.giveUp k unit expression := by
  simp only [giveUp, Outcome.unguarded, Table.modify, unit_unguarded]
  unfold unguarded
  rw [Table.map_set (f := WorkUnit.unguarded) rfl]
  rfl

theorem filter_refusal {e : Event} (he : e.isRefusal = true) (p : Prop) [Decidable p] :
    (if p then [e] else []).filter Event.isRefusal = if p then [e] else [] := by
  split <;> simp [he]

theorem interrupt_unguarded (k : Key .work) (p : Prerender) (expression : String) :
    (w.interrupt k p expression).unguarded f = w.unguarded.interrupt k p expression := by
  have hevents : (w.interrupt k p expression : Outcome (Except AccessError α)).events.filter
      Event.isRefusal = (w.interrupt k p expression : Outcome (Except AccessError α)).events :=
    filter_refusal rfl _
  unfold Outcome.unguarded
  rw [hevents]
  unfold interrupt
  cases p.log <;> rfl

/-! ## Giving handles -/

theorem memoize_unguarded (unit : Key .unit) (r : Resource) (key : MemoKey) (state : HandleState)
    (guard? : Option Guard) :
    w.unguarded.memoize unit r key state none =
      ((w.memoize unit r key state guard?).1.unguarded,
        (w.memoize unit r key state guard?).2.unguarded) := by
  have hcreate := (w.units.get unit).handles.getOrCreate_map Handle.unguarded (r, key)
    { id := .made unit (w.units.get unit).handles.size, state, guard? }
  have hsize : ((w.units.get unit).handles.map Handle.unguarded).size =
      (w.units.get unit).handles.size := List.length_map _
  simp only [memoize, unit_unguarded, WorkUnit.unguarded, Registry.get?_map, hsize]
  cases hk : (w.units.get unit).handles.get? (r, key) with
  | some h => rfl
  | none =>
    simp only [Option.map_none, set_unit_unguarded, WorkUnit.unguarded]
    exact congrArg (fun p : Registry (Resource × MemoKey) Handle × Handle =>
      ({ w.unguarded with
          units :=
            w.unguarded.units.set unit { (w.units.get unit).unguarded with handles := p.1 } },
        p.2)) hcreate

theorem give_unguarded (unit : Key .unit) (r : Resource) (key : MemoKey) (state : HandleState)
    (guard? : Option Guard) :
    (w.give unit r key state guard?).unguarded Handle.unguarded =
      w.unguarded.give unit r key state none := by
  simp only [give, w.memoize_unguarded unit r key state guard?]
  rfl

theorem giveBlank_unguarded (b : Binding) (r : Resource) :
    (w.giveBlank b r).unguarded Handle.unguarded = w.unguarded.giveBlank b r := rfl

theorem giveDraft_unguarded (b : Binding) (provider : Option (Key .draft)) :
    (w.giveDraft b provider).unguarded Handle.unguarded = w.unguarded.giveDraft b provider := by
  cases provider <;> exact w.give_unguarded ..

theorem guardFor_unguarded (b : Binding) : w.unguarded.guardFor b = none := by
  simp only [guardFor, coordinator_unguarded]
  rfl

theorem draftOr_unguarded (b : Binding) (r : Resource) (o : Outcome (Except AccessError Handle)) :
    (w.draftOr b r o).unguarded Handle.unguarded =
      w.unguarded.draftOr b r (o.unguarded Handle.unguarded) := by
  cases r with
  | draftMode => exact w.giveDraft_unguarded b none
  | cookies | headers => rfl

theorem fetchDeferred_unguarded (b : Binding) (p : Prerender) (r : Resource) :
    (w.fetchDeferred b p r).unguarded Handle.unguarded = w.unguarded.fetchDeferred b p r := by
  cases r with
  | draftMode => exact w.giveDraft_unguarded b none
  | cookies | headers => exact w.give_unguarded ..

theorem draftIn_unguarded (b : Binding) : w.unguarded.draftIn b = w.draftIn b := by
  unfold draftIn
  rw [coordinator_unguarded, unit_unguarded]
  refine Coordinator.draftFor_of_made (w.coordinators.get b.coordinator) rfl ?_
  unfold WorkUnit.unguarded
  cases (w.units.get b.unit).variant <;> rfl

theorem fetchPrivate_unguarded (b : Binding) (cookies : Key .jar) (headers : Key .headers)
    (r : Resource) :
    (w.fetchPrivate b cookies headers r).unguarded Handle.unguarded =
      w.unguarded.fetchPrivate b cookies headers r := by
  cases r with
  | draftMode => simp only [fetchPrivate, giveDraft_unguarded, draftIn_unguarded]
  | cookies | headers => exact w.give_unguarded ..

theorem fetchCached_unguarded (b : Binding) (r : Resource) :
    (w.fetchCached b r).unguarded Handle.unguarded = w.unguarded.fetchCached b r := by
  unfold fetchCached
  rw [draftIn_unguarded]
  cases r <;> cases w.draftIn b <;>
    first | exact w.giveDraft_unguarded .. | exact w.refuseInCache_unguarded ..

theorem fetchLive_unguarded (b : Binding) (q : LiveRequest) (r : Resource) :
    (w.fetchLive b q r).unguarded Handle.unguarded =
      w.unguarded.fetchLive b { q with dryRun := q.dryRun.unescalated } r := by
  simp only [fetchLive, give_unguarded, markDynamic_unguarded, guardFor_unguarded]
  cases r <;> rfl

theorem fetchIn_unguarded (b : Binding) (r : Resource) :
    (w.fetchIn b r).unguarded Handle.unguarded = w.unguarded.fetchIn b r := by
  unfold fetchIn
  rw [unit_unguarded]
  simp only [WorkUnit.unguarded]
  cases (w.units.get b.unit).variant with
  | request q =>
    simp only [Variant.mapRequest, unlessStatic_unguarded, fetchLive_unguarded]
  | cache forwarded => exact w.fetchCached_unguarded b r
  | privateCache cookies headers forwarded =>
    simp only [Variant.mapRequest, unlessStatic_unguarded, fetchPrivate_unguarded]
  | unstableCache => exact w.refuseInCache_unguarded ..
  | prerender p | prerenderRuntime p =>
    simp only [Variant.mapRequest, unlessStatic_unguarded, fetchDeferred_unguarded]
  | prerenderClient p =>
    simp only [Variant.mapRequest, unlessStatic_unguarded, draftOr_unguarded, refuse_unguarded]
  | prerenderPartial log =>
    simp only [Variant.mapRequest, unlessStatic_unguarded, draftOr_unguarded, postpone_unguarded]
  | prerenderLegacy period =>
    simp only [Variant.mapRequest, unlessStatic_unguarded, draftOr_unguarded, giveUp_unguarded]

theorem fetch_unguarded (c : Key .coordinator) (scope : Option Scope) (r : Resource) :
    (w.fetch c scope r).unguarded Handle.unguarded = w.unguarded.fetch c scope r := by
  cases scope with
  | none => rfl
  | some scope =>
    simp only [fetch, works_unguarded, apply_ite (Outcome.unguarded Handle.unguarded),
      giveBlank_unguarded, fetchIn_unguarded]
    rfl

/-! ## Calls -/

theorem decideIn_unguarded (b : Binding) (expression : String) :
    (w.decideIn b expression).unguarded id = w.unguarded.decideIn b expression := by
  unfold decideIn
  rw [unit_unguarded]
  simp only [WorkUnit.unguarded]
  cases (w.units.get b.unit).variant with
  | request q =>
    simp only [Variant.mapRequest, unlessStatic_unguarded]
    simp only [Outcome.unguarded, markDynamic_unguarded]
    rfl
  | cache _ | privateCache _ _ _ | unstableCache => exact w.refuseInCache_unguarded ..
  | prerender p | prerenderRuntime p =>
    simp only [Variant.mapRequest, unlessStatic_unguarded, interrupt_unguarded]
  | prerenderClient p =>
    simp only [Variant.mapRequest, unlessStatic_unguarded, refuse_unguarded]
  | prerenderPartial log =>
    simp only [Variant.mapRequest, unlessStatic_unguarded, postpone_unguarded]
  | prerenderLegacy period =>
    simp only [Variant.mapRequest, unlessStatic_unguarded, giveUp_unguarded]

theorem decideSwitch_unguarded (b : Binding) (expression : String) :
    (w.decideSwitch b expression).unguarded id = w.unguarded.decideSwitch b expression := by
  have hafter : (w.unguarded.units.get b.unit).variant.isAfter =
      (w.units.get b.unit).variant.isAfter := by
    rw [unit_unguarded]
    unfold WorkUnit.unguarded
    cases (w.units.get b.unit).variant <;> rfl
  have halive : (w.unguarded.units.get b.unit).alive = (w.units.get b.unit).alive := by
    rw [unit_unguarded]
    rfl
  simp only [decideSwitch, hafter, halive, works_unguarded, apply_ite (Outcome.unguarded id),
    refuse_unguarded, decideIn_unguarded]
  rfl

theorem decide_unguarded (v : Value) (call : Call) :
    (w.decide v call).unguarded id = w.unguarded.decide v call := by
  unfold decide
  split
  · exact w.decideSwitch_unguarded ..
  · exact w.decideSwitch_unguarded ..
  · rfl

theorem callJar_unguarded (source : Source .jar) (call : CookieCall) :
    w.unguarded.callJar source call =
      ((w.callJar source call).1.unguarded, (w.callJar source call).2) := by
  have hjar : w.unguarded.jarOf source = w.jarOf source := by cases source <;> rfl
  unfold callJar
  rw [hjar]
  split <;> rfl

theorem callHeaders_unguarded (source : Source .headers) (call : HeaderCall) :
    w.unguarded.callHeaders source call =
      ((w.callHeaders source call).1.unguarded, (w.callHeaders source call).2) := by
  have hheaders : w.unguarded.headersOf source = w.headersOf source := by cases source <;> rfl
  unfold callHeaders
  rw [hheaders]
  split <;> rfl

theorem switchDraft_unguarded (key : Key .draft) (on : Bool) :
    w.unguarded.switchDraft key on = (w.switchDraft key on).unguarded := by
  simp only [switchDraft, drafts_unguarded]
  cases w.drafts.get key <;> rfl

theorem callDraft_unguarded (source : Source .draft) (call : DraftCall) :
    w.unguarded.callDraft source call =
      ((w.callDraft source call).1.unguarded, (w.callDraft source call).2) := by
  cases call <;> cases source <;> simp only [callDraft, switchDraft_unguarded] <;> rfl

theorem performed_unguarded (v : Value) (call : Call) :
    (w.performed v call).unguarded id = w.unguarded.performed v call := by
  have hperform : w.unguarded.perform v call =
      ((w.perform v call).1.unguarded, (w.perform v call).2) := by
    cases v <;> cases call <;>
      first
        | exact w.callJar_unguarded ..
        | exact w.callHeaders_unguarded ..
        | exact congrArg (fun p : World × Answer => (p.1, Except.ok p.2)) (w.callDraft_unguarded ..)
        | rfl
  simp only [performed, hperform, Outcome.unguarded, Except.map_id]
  rfl

theorem next_unguarded {β : Type} {g : β → β} (o : Outcome (Except AccessError α))
    {k k' : World → α → Outcome (Except AccessError β)}
    (hk : ∀ w a, (k w a).unguarded g = k' w.unguarded (f a)) :
    (o.next k).unguarded g = (o.unguarded f).next k' := by
  unfold Outcome.next
  cases hr : o.result with
  | error e => simp [Outcome.unguarded, hr, Except.map]
  | ok a =>
    simp only [Outcome.unguarded, hr, Except.map, ← hk, List.filter_append]

theorem escalate_unguarded (unit : Key .unit) : (w.escalate unit).1.unguarded = w.unguarded := by
  simp only [escalate]
  cases hv : (w.units.get unit).variant with
  | request q =>
    have hrequest : (w.unguarded.units.get unit).variant =
        .request { q with dryRun := q.dryRun.escalate.1.unescalated } := by
      rw [unit_unguarded]
      simp only [WorkUnit.unguarded, hv, Variant.mapRequest]
      cases q.dryRun <;> rfl
    have hsame : WorkUnit.unguarded { w.units.get unit with
        variant := .request { q with dryRun := q.dryRun.escalate.1 } } =
        w.unguarded.units.get unit := by
      rw [show w.unguarded.units.get unit = { w.unguarded.units.get unit with
        variant := (w.unguarded.units.get unit).variant } from rfl, hrequest, unit_unguarded]
      rfl
    -- Writing a row back changes nothing if the table has it. An absent row reads as default.
    have hne : w.unguarded.units.get unit ≠ default := by
      intro h
      rw [h] at hrequest
      cases hrequest
    dsimp only
    split
    · rw [set_unit_unguarded, hsame, Table.set_get _ _ hne]
    · rfl
  | _ => rfl

theorem report_tells (r : Reporter) (d : Diagnostic) :
    (r.report d).2.filter Event.isRefusal = [] := by
  refine List.filter_eq_nil_iff.mpr fun e he => ?_
  have hreport := r.isReport_of_mem d he
  cases e <;> simp [Event.isReport, Event.isRefusal] at hreport ⊢

theorem observe_unguarded (h : Handle) (expression : String) :
    (w.observe h expression).1.unguarded = w.unguarded ∧
      (w.observe h expression).2.filter Event.isRefusal = [] := by
  unfold observe
  split
  · split
    · exact ⟨rfl, rfl⟩
    · rename_i g _ _
      refine ⟨(rfl : _ = (w.escalate g.unit).1.unguarded).trans (w.escalate_unguarded g.unit), ?_⟩
      simp only [tell, List.filter_append, report_tells, List.append_nil]
      split <;> rfl
  · exact ⟨rfl, rfl⟩

theorem callValue_unguarded (v : Value) (call : Call) :
    (w.callValue v call).unguarded id = w.unguarded.callValue v call := by
  unfold callValue
  rw [← decide_unguarded]
  exact next_unguarded _ fun w _ => w.performed_unguarded v call

theorem callHandle_unguarded (h : Handle) (call : Call) :
    (w.callHandle h call).unguarded id = w.unguarded.callHandle h.unguarded call := by
  unfold callHandle
  cases hs : h.state with
  | pending r key route => simp [Handle.unguarded, hs, refuse_unguarded]
  | resolved v =>
    simp only [Handle.unguarded, hs]
    rw [← decide_unguarded]
    refine next_unguarded _ fun w _ => ?_
    obtain ⟨hworld, htold⟩ := w.observe_unguarded h call.observed
    have hdone := performed_unguarded (w.observe h call.observed).1 v call
    rw [hworld] at hdone
    simp only [Outcome.unguarded, List.filter_append, htold] at hdone ⊢
    exact hdone

/-! ## Awaiting -/

theorem poll_unguarded (fut : Future) :
    w.unguarded.poll fut.unguarded =
      ((w.poll fut).1.unguarded, (w.poll fut).2.1.unguarded, (w.poll fut).2.2) := by
  unfold poll
  rw [w.markAwaited_frame fut.handle]
  obtain ⟨⟨id, state, guard?⟩, waker, listener⟩ := fut
  cases state with
  | resolved v => rfl
  | pending r key route => cases listener <;> rfl

theorem dropFuture_unguarded (fut : Future) :
    (w.dropFuture fut).unguarded = w.unguarded.dropFuture fut.unguarded := by
  obtain ⟨⟨id, state, guard?⟩, waker, listener⟩ := fut
  cases state <;> cases listener <;> rfl

theorem dropUnit_unguarded (k : Key .unit) :
    (w.dropUnit k).unguarded = w.unguarded.dropUnit k := by
  simp only [dropUnit, Table.modify, set_unit_unguarded, unit_unguarded]
  rfl

end World

namespace Session

variable (s : Session)

/-! ## Steps -/

theorem namesOf_unguarded (h : Handle) : s.unguarded.namesOf h.unguarded = s.namesOf h := by
  simp only [namesOf, unguarded, NameMap.map, List.filter_map, List.map_map]
  rfl

theorem keepHandle_unguarded (name : Option String) (h : Handle) :
    (s.keepHandle name h).unguarded = s.unguarded.keepHandle name h.unguarded := by
  cases name with
  | none => rfl
  | some name => simp [keepHandle, unguarded, NameMap.map_insert]

theorem asked_unguarded (saveAs : Option String) (result : Option (Except AccessError Value)) :
    (s.asked saveAs result).unguarded = s.unguarded.asked saveAs result := by
  cases result with
  | none => rfl
  | some result =>
    cases result with
    | error e => rfl
    | ok v => cases saveAs <;> rfl

theorem forget_unguarded (name : String) : (s.forget name).unguarded = s.unguarded.forget name := by
  have hn : s.unguarded.futures.get? name = (s.futures.get? name).map Future.unguarded :=
    NameMap.get?_map ..
  unfold forget
  rw [hn]
  cases s.futures.get? name with
  | none => rfl
  | some f => simp [unguarded, World.dropFuture_unguarded, NameMap.map_erase]

theorem answered_unguarded (o : Outcome (Except AccessError Answer)) :
    (s.answered o).unguarded = s.unguarded.answered (o.unguarded id) := by
  obtain ⟨world, events, result⟩ := o
  cases result <;> rfl

theorem withHandle_unguarded {name : String} {f g : Handle → After}
    (h : ∀ h, (f h).unguarded = g h.unguarded) :
    (s.withHandle name f).unguarded = s.unguarded.withHandle name g := by
  have hn : s.unguarded.handles.get? name = (s.handles.get? name).map Handle.unguarded :=
    NameMap.get?_map ..
  unfold withHandle
  rw [hn]
  cases s.handles.get? name with
  | none => rfl
  | some x => exact h x

theorem fetch_unguarded (r : Resource) (c : Key .coordinator) (work : Option (Key .work))
    (unit : Option (Key .unit)) (saveAs : Option String) :
    (s.fetch r c work unit saveAs).unguarded = s.unguarded.fetch r c work unit saveAs := by
  have hw : s.unguarded.world = s.world.unguarded := rfl
  unfold fetch
  simp only [hw, World.scope?_unguarded, ← World.fetch_unguarded, Outcome.unguarded]
  cases (s.world.fetch c (s.world.scope? work unit) r).result with
  | error e => rfl
  | ok h =>
    simp only [Except.map, namesOf_unguarded, After.unguarded, keepHandle_unguarded]
    rfl

theorem now_unguarded (h : Handle) (saveAs : Option String) :
    (s.now h saveAs).unguarded = s.unguarded.now h.unguarded saveAs := by
  have hp : s.unguarded.world.poll { handle := h.unguarded, waker := s.unguarded.nextWaker } = _ :=
    s.world.poll_unguarded { handle := h, waker := s.nextWaker }
  simp only [now, World.pollOnce, asked_unguarded, hp, ← World.dropFuture_unguarded]
  rfl

theorem start_unguarded (h : Handle) (future : String) :
    (s.start h future).unguarded = s.unguarded.start h.unguarded future := by
  simp only [start, ← forget_unguarded]
  simp only [After.unguarded, unguarded, NameMap.map_insert]
  rfl

theorem poll_unguarded (name : String) (f : Future) (saveAs : Option String) :
    (s.poll name f saveAs).unguarded = s.unguarded.poll name f.unguarded saveAs := by
  have hp : s.unguarded.world.poll f.unguarded = _ := s.world.poll_unguarded f
  simp only [Session.poll, asked_unguarded, hp, apply_ite Session.unguarded, forget_unguarded]
  simp only [unguarded, NameMap.map_insert]

theorem step_unguarded (step : Step) : (s.step step).unguarded = s.unguarded.step step := by
  have hw : s.unguarded.world = s.world.unguarded := rfl
  cases step with
  | fetch r c work unit saveAs => exact s.fetch_unguarded r c work unit saveAs
  | callHandle name call =>
    refine s.withHandle_unguarded fun h => ?_
    rw [answered_unguarded, World.callHandle_unguarded, hw]
  | callValue name call =>
    have hv : s.unguarded.values = s.values := rfl
    simp only [Session.step, hv]
    cases s.values.get? name with
    | none => rfl
    | some v =>
      dsimp only
      rw [answered_unguarded, World.callValue_unguarded, hw]
  | now name saveAs => exact s.withHandle_unguarded fun h => s.now_unguarded h saveAs
  | start name future => exact s.withHandle_unguarded fun h => s.start_unguarded h future
  | poll name saveAs =>
    have hn : s.unguarded.futures.get? name = (s.futures.get? name).map Future.unguarded :=
      NameMap.get?_map ..
    simp only [Session.step, hn]
    cases s.futures.get? name with
    | none => rfl
    | some f => exact s.poll_unguarded name f saveAs
  | clone name saveAs =>
    refine s.withHandle_unguarded fun h => ?_
    simp only [After.unguarded, keepHandle_unguarded, namesOf_unguarded]
    rfl
  | abort key => rfl
  | dropWork key => rfl
  | dropUnit key =>
    have halive : (s.world.unguarded.units.get key).alive = (s.world.units.get key).alive := by
      rw [World.unit_unguarded]
      rfl
    simp only [Session.step, hw, ← World.dropUnit_unguarded, halive]
    rfl
  | dropHandle name =>
    have hc : s.unguarded.handles.contains name = s.handles.contains name :=
      NameMap.contains_map ..
    simp only [Session.step, hc]
    simp only [After.unguarded, unguarded, NameMap.map_erase]
    rfl
  | dropValue name => rfl
  | dropFuture name =>
    have hc : s.unguarded.futures.contains name = s.futures.contains name :=
      NameMap.contains_map ..
    simp only [Session.step, hc, After.unguarded, forget_unguarded]
    rfl
  | callJar key call =>
    simp only [Session.step, hw, World.callJar_unguarded, stored]
    cases (s.world.callJar (.shared key) call).2 <;> rfl
  | callHeaders key call =>
    simp only [Session.step, hw, World.callHeaders_unguarded, stored]
    cases (s.world.callHeaders (.shared key) call).2 <;> rfl
  | callDraft key call =>
    simp only [Session.step, hw, World.callDraft_unguarded]
    rfl

end Session

/-! ## Runs -/

/-- The session after a step, what it answers and which refusals are seen of it, all without
guards. -/
def Moment.unguarded (m : Moment) : Session.After := m.after.unguarded

/-- A world in which a coordinator has another configuration. -/
def World.configured (w : World) (c : Key .coordinator) (config : RenderConfig) : World :=
  { w with coordinators := w.coordinators.modify c fun coordinator => { coordinator with config } }

theorem Session.moments_unguarded (s : Session) (steps : List Step) :
    (s.moments steps).map Moment.unguarded = (s.unguarded.moments steps).map Moment.after := by
  induction steps generalizing s with
  | nil => rfl
  | cons step rest ih =>
    have hstep := s.step_unguarded step
    have hrest := ih (s.step step).session
    have hnext : (s.step step).session.unguarded = (s.unguarded.step step).session :=
      congrArg Session.After.session hstep
    rw [hnext] at hrest
    exact List.cons_eq_cons.mpr ⟨hstep, hrest⟩

theorem World.unguarded_configured (w : World) (c : Key .coordinator) (config : RenderConfig) :
    (w.configured c config).unguarded =
      { w.unguarded with
        coordinators := w.unguarded.coordinators.set c (w.coordinators.get c).unguarded } := by
  unfold World.unguarded configured Table.modify
  rw [Table.map_set (f := Coordinator.unguarded) rfl]
  rfl

/-- Guards never change what a render comes to. Whatever the configuration of a coordinator, every
script gives step by step the same results and the same refusals, and leaves the same world, but for
what guards tell. -/
theorem guard_changes_nothing (w : World) (c : Key .coordinator) (on off : RenderConfig)
    (steps : List Step) :
    ((Session.ofWorld (w.configured c on)).moments steps).map Moment.unguarded =
      ((Session.ofWorld (w.configured c off)).moments steps).map Moment.unguarded := by
  have hworld : (w.configured c on).unguarded = (w.configured c off).unguarded := by
    rw [World.unguarded_configured, World.unguarded_configured]
  have hsame : (Session.ofWorld (w.configured c on)).unguarded =
      (Session.ofWorld (w.configured c off)).unguarded := by
    simp only [Session.unguarded, Session.ofWorld, hworld]
  rw [Session.moments_unguarded, Session.moments_unguarded, hsame]

end RequestAccess
