import RequestAccess.Proofs.Authority
import RequestAccess.Proofs.Sightings

/-!
# Domains

A domain is a set of keys. An operation on what is in a domain does the same in every world that
agrees on the domain, and leaves everything else as it was.
-/

namespace RequestAccess

/-! ## Keys -/

/-- A set of keys of every kind. -/
structure Domain where
  has : {kind : Kind} → Key kind → Prop

namespace Domain

def Disjoint (D E : Domain) : Prop := ∀ {kind : Kind} (k : Key kind), D.has k → ¬ E.has k

/-- All keys that are not in the domain. -/
def others (D : Domain) : Domain := ⟨fun k => ¬ D.has k⟩

end Domain

section Within

variable (D : Domain)

def HandleId.In : HandleId → Prop
  | .made unit _ => D.has unit
  | .detached work _ => D.has work

def Source.In {kind : Kind} : Source kind → Prop
  | .blank => True
  | .shared key => D.has key

theorem HandleId.in_others {D : Domain} {id : HandleId} : id.In D.others ↔ ¬ id.In D := by
  cases id <;> exact Iff.rfl

structure Binding.In (b : Binding) : Prop where
  work : D.has b.work
  unit : D.has b.unit

def Value.In : Value → Prop
  | .cookies source => source.In D
  | .headers source => source.In D
  | .draft source b => source.In D ∧ b.In D

def HandleState.In : HandleState → Prop
  | .resolved v => v.In D
  | .pending _ signal _ => D.has signal

structure Handle.In (h : Handle) : Prop where
  id : h.id.In D
  state : h.state.In D
  guard (g : Guard) (hg : h.guard? = some g) : D.has g.unit

def Prerender.In (p : Prerender) : Prop := D.has p.signal ∧ ∀ log, p.log = some log → D.has log

/-- What a unit works with, apart from draft mode. -/
def Variant.In : Variant → Prop
  | .request q => D.has q.cookies ∧ D.has q.mutableCookies ∧ D.has q.headers
  | .prerender p | .prerenderClient p | .prerenderRuntime p => p.In D
  | .prerenderPartial log => D.has log
  | .privateCache cookies headers _ => D.has cookies ∧ D.has headers
  | .prerenderLegacy _ | .cache _ | .unstableCache => True

/-- The jar of the response in which a draft mode is kept. -/
def DraftProvider.response? : DraftProvider → Option (Key .jar)
  | .preview _ response => some response
  | _ => none

/-- What the units of the domain work with is in it, and so is what its draft modes are kept in. -/
structure World.ClosedIn (w : World) : Prop where
  units (k : Key .unit) (hk : D.has k) : (w.units.get k).variant.In D
  drafts (k : Key .draft) (hk : D.has k) (response : Key .jar)
    (hr : (w.drafts.get k).response? = some response) : D.has response

end Within

/-! ## Worlds -/

/-- The events that are no reports. -/
def Event.own (events : List Event) : List Event := events.filter fun e => !e.isReport

namespace Domain

variable (D : Domain)

/-- Two worlds that are the same on a domain, whatever was reported in them. -/
structure Agree (v w : World) : Prop where
  jars (k : Key .jar) (hk : D.has k) : v.jars.get k = w.jars.get k
  headers (k : Key .headers) (hk : D.has k) : v.headers.get k = w.headers.get k
  drafts (k : Key .draft) (hk : D.has k) : v.drafts.get k = w.drafts.get k
  signals (k : Key .signal) (hk : D.has k) : v.signals.get k = w.signals.get k
  logs (k : Key .log) (hk : D.has k) : v.logs.get k = w.logs.get k
  works (k : Key .work) (hk : D.has k) : v.works.get k = w.works.get k
  units (k : Key .unit) (hk : D.has k) : v.units.get k = w.units.get k
  awaited (id : HandleId) (hid : id.In D) : v.awaited.contains id = w.awaited.contains id
  coordinators : v.coordinators = w.coordinators

/-- Changes of two worlds that go together: they agree after, and the first one has changed on the
domain only. -/
structure Moves (v w v' w' : World) : Prop where
  agree : D.Agree v' w'
  frame : D.others.Agree v v'

/-- What goes together in two worlds comes to the same. -/
structure Tracks {α : Type} (v w : World) (o o' : Outcome α) : Prop where
  result : o.result = o'.result
  events : Event.own o.events = Event.own o'.events
  moves : D.Moves v w o.world o'.world

variable {D} {E : Domain} {u v w v' w' v'' w'' : World}

namespace Agree

theorem refl (w : World) : D.Agree w w := by
  constructor <;> intros <;> rfl

theorem trans (h : D.Agree u v) (h' : D.Agree v w) : D.Agree u w where
  jars k hk := (h.jars k hk).trans (h'.jars k hk)
  headers k hk := (h.headers k hk).trans (h'.headers k hk)
  drafts k hk := (h.drafts k hk).trans (h'.drafts k hk)
  signals k hk := (h.signals k hk).trans (h'.signals k hk)
  logs k hk := (h.logs k hk).trans (h'.logs k hk)
  works k hk := (h.works k hk).trans (h'.works k hk)
  units k hk := (h.units k hk).trans (h'.units k hk)
  awaited id hid := (h.awaited id hid).trans (h'.awaited id hid)
  coordinators := h.coordinators.trans h'.coordinators

theorem symm (h : D.Agree v w) : D.Agree w v where
  jars k hk := (h.jars k hk).symm
  headers k hk := (h.headers k hk).symm
  drafts k hk := (h.drafts k hk).symm
  signals k hk := (h.signals k hk).symm
  logs k hk := (h.logs k hk).symm
  works k hk := (h.works k hk).symm
  units k hk := (h.units k hk).symm
  awaited id hid := (h.awaited id hid).symm
  coordinators := h.coordinators.symm

theorem of_disjoint (hd : D.Disjoint E) (h : D.others.Agree v w) : E.Agree v w where
  jars k hk := h.jars k fun hD => hd k hD hk
  headers k hk := h.headers k fun hD => hd k hD hk
  drafts k hk := h.drafts k fun hD => hd k hD hk
  signals k hk := h.signals k fun hD => hd k hD hk
  logs k hk := h.logs k fun hD => hd k hD hk
  works k hk := h.works k fun hD => hd k hD hk
  units k hk := h.units k fun hD => hd k hD hk
  awaited id hid := h.awaited id <| HandleId.in_others.mpr fun hD => by
    cases id <;> exact hd _ hD hid
  coordinators := h.coordinators

end Agree

namespace Moves

theorem refl (h : D.Agree v w) : D.Moves v w v w := ⟨h, .refl v⟩

theorem trans (h : D.Moves v w v' w') (h' : D.Moves v' w' v'' w'') : D.Moves v w v'' w'' :=
  ⟨h'.agree, h.frame.trans h'.frame⟩

end Moves

theorem own_append (events more : List Event) :
    Event.own (events ++ more) = Event.own events ++ Event.own more := List.filter_append ..

theorem Tracks.next {α β : Type} {o o' : Outcome (Except AccessError α)} (ho : D.Tracks v w o o')
    {f f' : World → α → Outcome (Except AccessError β)}
    (hf : ∀ a, o'.result = .ok a → D.Tracks o.world o'.world (f o.world a) (f' o'.world a)) :
    D.Tracks v w (o.next f) (o'.next f') := by
  unfold Outcome.next
  rw [ho.result]
  cases hr : o'.result with
  | error e => exact ⟨rfl, ho.events, ho.moves⟩
  | ok a =>
    obtain ⟨hresult, hevents, hm⟩ := hf a hr
    refine ⟨hresult, ?_, ho.moves.trans hm⟩
    simp only [own_append, ho.events, hevents]

theorem own_report (r : Reporter) (d : Diagnostic) : Event.own (r.report d).2 = [] := by
  refine List.filter_eq_nil_iff.mpr fun e he => ?_
  simp [r.isReport_of_mem d he]

/-! ## Changing one thing -/

section Tables

variable {kind : Kind} {α : Type} [Inhabited α] {t t' : Table kind α} {key : Key kind} {a : α}

theorem agree_set (h : ∀ k, D.has k → t.get k = t'.get k) (k : Key kind) (hk : D.has k) :
    (t.set key a).get k = (t'.set key a).get k := by
  simp only [Table.get_set, h k hk]

theorem others_set (hkey : D.has key) (k : Key kind) (hk : D.others.has k) :
    t.get k = (t.set key a).get k := by
  rw [Table.get_set, if_neg]
  rintro rfl
  exact hk hkey

end Tables

namespace Agree

variable (h : D.Agree v w)

include h

theorem set_jar {k : Key .jar} (hk : D.has k) (a : CookieJar) :
    D.Moves v w { v with jars := v.jars.set k a } { w with jars := w.jars.set k a } :=
  ⟨{ h with jars := agree_set h.jars }, { refl v with jars := others_set hk }⟩

theorem set_headers {k : Key .headers} (hk : D.has k) (a : Headers) :
    D.Moves v w { v with headers := v.headers.set k a } { w with headers := w.headers.set k a } :=
  ⟨{ h with headers := agree_set h.headers }, { refl v with headers := others_set hk }⟩

theorem set_draft {k : Key .draft} (hk : D.has k) (a : DraftProvider) :
    D.Moves v w { v with drafts := v.drafts.set k a } { w with drafts := w.drafts.set k a } :=
  ⟨{ h with drafts := agree_set h.drafts }, { refl v with drafts := others_set hk }⟩

theorem set_signal {k : Key .signal} (hk : D.has k) (a : Signal) :
    D.Moves v w { v with signals := v.signals.set k a } { w with signals := w.signals.set k a } :=
  ⟨{ h with signals := agree_set h.signals }, { refl v with signals := others_set hk }⟩

theorem set_log {k : Key .log} (hk : D.has k) (a : Tracking) :
    D.Moves v w { v with logs := v.logs.set k a } { w with logs := w.logs.set k a } :=
  ⟨{ h with logs := agree_set h.logs }, { refl v with logs := others_set hk }⟩

theorem set_work {k : Key .work} (hk : D.has k) (a : Work) :
    D.Moves v w { v with works := v.works.set k a } { w with works := w.works.set k a } :=
  ⟨{ h with works := agree_set h.works }, { refl v with works := others_set hk }⟩

theorem set_unit {k : Key .unit} (hk : D.has k) (a : WorkUnit) :
    D.Moves v w { v with units := v.units.set k a } { w with units := w.units.set k a } :=
  ⟨{ h with units := agree_set h.units }, { refl v with units := others_set hk }⟩

theorem modify_unit {k : Key .unit} (hk : D.has k) (f : WorkUnit → WorkUnit) :
    D.Moves v w { v with units := v.units.modify k f } { w with units := w.units.modify k f } := by
  unfold Table.modify
  rw [h.units k hk]
  exact h.set_unit hk _

theorem modify_work {k : Key .work} (hk : D.has k) (f : Work → Work) :
    D.Moves v w { v with works := v.works.modify k f } { w with works := w.works.modify k f } := by
  unfold Table.modify
  rw [h.works k hk]
  exact h.set_work hk _

theorem modify_log {k : Key .log} (hk : D.has k) (f : Tracking → Tracking) :
    D.Moves v w { v with logs := v.logs.modify k f } { w with logs := w.logs.modify k f } := by
  unfold Table.modify
  rw [h.logs k hk]
  exact h.set_log hk _

theorem modify_signal {k : Key .signal} (hk : D.has k) (f : Signal → Signal) :
    D.Moves v w { v with signals := v.signals.modify k f }
      { w with signals := w.signals.modify k f } := by
  unfold Table.modify
  rw [h.signals k hk]
  exact h.set_signal hk _

/-! ## Refusing -/

variable {α : Type} {k : Key .work} {unit : Key .unit} {expression : String}

theorem refuse (e : AccessError) :
    D.Tracks (α := Except AccessError α) v w (v.refuse e) (w.refuse e) :=
  ⟨rfl, rfl, .refl h⟩

theorem refuseInCache (hk : D.has k) (use : CacheUse) (scope : CacheScope) :
    D.Tracks (α := Except AccessError α) v w (v.refuseInCache k use expression scope)
      (w.refuseInCache k use expression scope) := by
  simp only [World.refuseInCache, World.latchUsage, h.works k hk]
  cases (w.works.get k).latch with
  | some e => exact ⟨rfl, rfl, .refl h⟩
  | none => exact ⟨rfl, rfl, h.set_work hk _⟩

theorem unlessStatic (hk : D.has k) {o o' : Outcome (Except AccessError α)}
    (ho : D.Tracks v w o o') :
    D.Tracks v w (v.unlessStatic k expression o) (w.unlessStatic k expression o') := by
  simp only [World.unlessStatic, h.works k hk]
  split
  · exact ⟨rfl, rfl, .refl h⟩
  · exact ho

theorem postpone (hk : D.has k) (c : Key .coordinator) {log : Key .log} (hlog : D.has log) :
    D.Tracks (α := Except AccessError α) v w (v.postpone c k log expression)
      (w.postpone c k log expression) := by
  have hc : v.coordinators.get c = w.coordinators.get c := by rw [h.coordinators]
  simp only [World.postpone, h.works k hk, h.logs log hlog, hc]
  split <;> exact ⟨rfl, rfl, h.set_log hlog _⟩

theorem giveUp (hk : D.has k) (hunit : D.has unit) :
    D.Tracks (α := Except AccessError α) v w (v.giveUp k unit expression)
      (w.giveUp k unit expression) := by
  have hwork := h.set_work hk { w.works.get k with dynamicUsage := some expression }
  simp only [World.giveUp, h.works k hk]
  exact ⟨rfl, rfl, hwork.trans (hwork.agree.modify_unit hunit _)⟩

theorem abortSignal {signal : Key .signal} (hs : D.has signal) :
    (v.abortSignal signal).2 = (w.abortSignal signal).2 ∧
      D.Moves v w (v.abortSignal signal).1 (w.abortSignal signal).1 := by
  unfold World.abortSignal
  rw [h.signals signal hs]
  exact ⟨rfl, h.set_signal hs _⟩

theorem interrupt (hk : D.has k) {p : Prerender} (hp : p.In D) :
    D.Tracks (α := Except AccessError α) v w (v.interrupt k p expression)
      (w.interrupt k p expression) := by
  obtain ⟨signal, log⟩ := p
  simp only [World.interrupt, h.works k hk]
  cases log with
  | none =>
    obtain ⟨hfired, hm⟩ := h.abortSignal hp.1
    exact ⟨rfl, by simp only [hfired], hm⟩
  | some log =>
    have hlog := h.modify_log (hp.2 log rfl) fun t => t.record { expression }
    obtain ⟨hfired, hm⟩ := hlog.agree.abortSignal hp.1
    exact ⟨rfl, by simp only [hfired], hlog.trans hm⟩

/-! ## Fetching -/

theorem markDynamic (hunit : D.has unit) : D.Moves v w (v.markDynamic unit) (w.markDynamic unit) :=
  h.modify_unit hunit _

theorem memoize (hunit : D.has unit) (r : Resource) (key : MemoKey) (state : HandleState)
    (guard? : Option Guard) :
    (v.memoize unit r key state guard?).2 = (w.memoize unit r key state guard?).2 ∧
      D.Moves v w (v.memoize unit r key state guard?).1 (w.memoize unit r key state guard?).1 := by
  simp only [World.memoize, h.units unit hunit]
  cases (w.units.get unit).handles.get? (r, key) with
  | some kept => exact ⟨rfl, .refl h⟩
  | none => exact ⟨rfl, h.set_unit hunit _⟩

theorem give (hunit : D.has unit) (r : Resource) (key : MemoKey) (state : HandleState)
    (guard? : Option Guard) :
    D.Tracks v w (v.give unit r key state guard?) (w.give unit r key state guard?) := by
  obtain ⟨hgiven, hm⟩ := h.memoize hunit r key state guard?
  exact ⟨congrArg Except.ok hgiven, rfl, hm⟩

variable {b : Binding} {r : Resource}

theorem giveBlank (hb : b.In D) : D.Tracks v w (v.giveBlank b r) (w.giveBlank b r) := by
  simp only [World.giveBlank, h.works b.work hb.work]
  exact ⟨rfl, rfl, h.set_work hb.work _⟩

theorem giveDraft (hb : b.In D) (provider : Option (Key .draft)) :
    D.Tracks v w (v.giveDraft b provider) (w.giveDraft b provider) := by
  cases provider <;> exact h.give hb.unit _ _ _ _

theorem guardFor (hb : b.In D) : v.guardFor b = w.guardFor b := by
  simp only [World.guardFor, h.coordinators, h.works b.work hb.work]

theorem draftOr (hb : b.In D) {o o' : Outcome (Except AccessError Handle)}
    (ho : D.Tracks v w o o') : D.Tracks v w (v.draftOr b r o) (w.draftOr b r o') := by
  cases r with
  | draftMode => exact h.giveDraft hb none
  | cookies | headers => exact ho

theorem fetchLive (hb : b.In D) (q : LiveRequest) :
    D.Tracks v w (v.fetchLive b q r) (w.fetchLive b q r) := by
  have hmark := h.markDynamic hb.unit
  obtain ⟨hresult, hevents, hm⟩ := hmark.agree.give hb.unit r (World.liveValue b q r).1
    (.resolved (World.liveValue b q r).2) (w.guardFor b)
  simp only [World.fetchLive, h.guardFor hb]
  exact ⟨hresult, hevents, hmark.trans hm⟩

theorem fetchDeferred (hb : b.In D) (p : Prerender) :
    D.Tracks v w (v.fetchDeferred b p r) (w.fetchDeferred b p r) := by
  simp only [World.fetchDeferred, h.works b.work hb.work]
  cases r with
  | draftMode => exact h.giveDraft hb none
  | cookies | headers => exact h.give hb.unit _ _ _ _

theorem draftIn (hb : b.In D) : v.draftIn b = w.draftIn b := by
  simp only [World.draftIn, h.coordinators, h.works b.work hb.work, h.units b.unit hb.unit]

theorem fetchPrivate (hb : b.In D) (cookies : Key .jar) (headers : Key .headers) :
    D.Tracks v w (v.fetchPrivate b cookies headers r) (w.fetchPrivate b cookies headers r) := by
  simp only [World.fetchPrivate, h.draftIn hb]
  cases r with
  | draftMode => exact h.giveDraft hb _
  | cookies | headers => exact h.give hb.unit _ _ _ _

theorem fetchCached (hb : b.In D) : D.Tracks v w (v.fetchCached b r) (w.fetchCached b r) := by
  simp only [World.fetchCached, h.draftIn hb]
  split
  · exact h.giveDraft hb _
  · exact h.refuseInCache hb.work _ _

theorem fetchIn (hw : w.ClosedIn D) (hb : b.In D) :
    D.Tracks v w (v.fetchIn b r) (w.fetchIn b r) := by
  have hv := hw.units b.unit hb.unit
  simp only [World.fetchIn, h.units b.unit hb.unit]
  cases hvariant : (w.units.get b.unit).variant with
  | cache forwarded => exact h.fetchCached hb
  | unstableCache => exact h.refuseInCache hb.work _ _
  | request q => exact h.unlessStatic hb.work (h.fetchLive hb q)
  | prerender p | prerenderRuntime p => exact h.unlessStatic hb.work (h.fetchDeferred hb p)
  | prerenderClient p => exact h.unlessStatic hb.work (h.draftOr hb (h.refuse _))
  | prerenderPartial log =>
    rw [hvariant] at hv
    exact h.unlessStatic hb.work (h.draftOr hb (h.postpone hb.work _ hv))
  | prerenderLegacy period =>
    exact h.unlessStatic hb.work (h.draftOr hb (h.giveUp hb.work hb.unit))
  | privateCache cookies headers forwarded =>
    exact h.unlessStatic hb.work (h.fetchPrivate hb cookies headers)

theorem fetch (hw : w.ClosedIn D) (c : Key .coordinator) {scope? : Option Scope}
    (hs : ∀ scope, scope? = some scope → D.has scope.work ∧ D.has scope.unit) :
    D.Tracks v w (v.fetch c scope? r) (w.fetch c scope? r) := by
  cases scope? with
  | none => exact h.refuse _
  | some scope =>
    obtain ⟨hwork, hunit⟩ := hs scope rfl
    have hb : (scope.binding c).In D := ⟨hwork, hunit⟩
    simp only [World.fetch, h.works scope.work hwork]
    split
    · exact h.giveBlank hb
    · exact h.fetchIn hw hb

/-! ## Deciding -/

theorem decideIn (hw : w.ClosedIn D) (hb : b.In D) :
    D.Tracks v w (v.decideIn b expression) (w.decideIn b expression) := by
  have hv := hw.units b.unit hb.unit
  simp only [World.decideIn, h.units b.unit hb.unit]
  cases hvariant : (w.units.get b.unit).variant with
  | cache _ | privateCache _ _ _ | unstableCache => exact h.refuseInCache hb.work _ _
  | request q => exact h.unlessStatic hb.work ⟨rfl, rfl, h.markDynamic hb.unit⟩
  | prerender p | prerenderRuntime p =>
    rw [hvariant] at hv
    exact h.unlessStatic hb.work (h.interrupt hb.work hv)
  | prerenderClient p => exact h.unlessStatic hb.work (h.refuse _)
  | prerenderPartial log =>
    rw [hvariant] at hv
    exact h.unlessStatic hb.work (h.postpone hb.work _ hv)
  | prerenderLegacy period => exact h.unlessStatic hb.work (h.giveUp hb.work hb.unit)

theorem decideSwitch (hw : w.ClosedIn D) (hb : b.In D) :
    D.Tracks v w (v.decideSwitch b expression) (w.decideSwitch b expression) := by
  simp only [World.decideSwitch, h.works b.work hb.work, h.units b.unit hb.unit]
  split
  · exact h.refuse _
  split
  · exact h.refuse _
  split
  · exact ⟨rfl, rfl, .refl h⟩
  · exact h.decideIn hw hb

theorem decide (hw : w.ClosedIn D) {value : Value} (hv : value.In D) (call : Call) :
    D.Tracks v w (v.decide value call) (w.decide value call) := by
  have allowed : D.Tracks (α := Except AccessError Unit) v w { world := v, result := .ok () }
      { world := w, result := .ok () } := ⟨rfl, rfl, .refl h⟩
  cases value with
  | cookies source | headers source => exact allowed
  | draft source b =>
    cases call with
    | cookies c | headers c => exact allowed
    | draft c =>
      cases c with
      | isEnabled => exact allowed
      | enable | disable => exact h.decideSwitch hw hv.2

/-! ## Calling -/

theorem callJar {source : Source .jar} (hs : source.In D) (call : CookieCall) :
    (v.callJar source call).2 = (w.callJar source call).2 ∧
      D.Moves v w (v.callJar source call).1 (w.callJar source call).1 := by
  have hj : v.jarOf source = w.jarOf source := by
    cases source with
    | blank => rfl
    | shared key => exact h.jars key hs
  unfold World.callJar
  rw [hj]
  split
  · exact ⟨rfl, .refl h⟩
  · exact ⟨rfl, .refl h⟩
  · exact ⟨rfl, h.set_jar hs _⟩
  · exact ⟨rfl, .refl h⟩

theorem callHeaders {source : Source .headers} (hs : source.In D) (call : HeaderCall) :
    (v.callHeaders source call).2 = (w.callHeaders source call).2 ∧
      D.Moves v w (v.callHeaders source call).1 (w.callHeaders source call).1 := by
  have hj : v.headersOf source = w.headersOf source := by
    cases source with
    | blank => rfl
    | shared key => exact h.headers key hs
  unfold World.callHeaders
  rw [hj]
  split
  · exact ⟨rfl, .refl h⟩
  · exact ⟨rfl, .refl h⟩
  · exact ⟨rfl, h.set_headers hs _⟩
  · exact ⟨rfl, .refl h⟩

section Drafts

variable (hw : ∀ k, D.has k → ∀ response, (w.drafts.get k).response? = some response →
  D.has response)

include hw

theorem switchDraft {key : Key .draft} (hk : D.has key) (on : Bool) :
    D.Moves v w (v.switchDraft key on) (w.switchDraft key on) := by
  unfold World.switchDraft
  rw [h.drafts key hk]
  cases hd : w.drafts.get key with
  | inert => exact .refl h
  | switch _ => exact h.set_draft hk _
  | preview draft response =>
    have hr := hw key hk response (by rw [hd]; rfl)
    simp only [h.jars response hr]
    exact (h.set_draft hk _).trans ((h.set_draft hk _).agree.set_jar hr _)

theorem callDraft {source : Source .draft} (hs : source.In D) (call : DraftCall) :
    (v.callDraft source call).2 = (w.callDraft source call).2 ∧
      D.Moves v w (v.callDraft source call).1 (w.callDraft source call).1 := by
  cases source with
  | blank => cases call <;> exact ⟨rfl, .refl h⟩
  | shared key =>
    cases call with
    | isEnabled =>
      refine ⟨?_, .refl h⟩
      simp only [World.callDraft, World.draftOf, h.drafts key hs]
    | enable | disable => exact ⟨rfl, h.switchDraft hw hs _⟩

theorem perform {value : Value} (hv : value.In D) (call : Call) :
    (v.perform value call).2 = (w.perform value call).2 ∧
      D.Moves v w (v.perform value call).1 (w.perform value call).1 := by
  cases value with
  | cookies source =>
    cases call with
    | cookies c => exact h.callJar hv c
    | headers c | draft c => exact ⟨rfl, .refl h⟩
  | headers source =>
    cases call with
    | headers c => exact h.callHeaders hv c
    | cookies c | draft c => exact ⟨rfl, .refl h⟩
  | draft source b =>
    cases call with
    | draft c =>
      obtain ⟨ha, hm⟩ := h.callDraft hw hv.1 c
      exact ⟨congrArg Except.ok ha, hm⟩
    | cookies c | headers c => exact ⟨rfl, .refl h⟩

end Drafts

/-! ## Guards -/

theorem beside_reporters (reporters reporters' : Table .reporter Reporter) :
    D.Moves v w { v with reporters } { w with reporters := reporters' } :=
  ⟨⟨h.jars, h.headers, h.drafts, h.signals, h.logs, h.works, h.units, h.awaited, h.coordinators⟩,
    by constructor <;> intros <;> rfl⟩

theorem escalate (hunit : D.has unit) :
    (v.escalate unit).2 = (w.escalate unit).2 ∧
      D.Moves v w (v.escalate unit).1 (w.escalate unit).1 := by
  simp only [World.escalate, h.units unit hunit]
  split
  · split
    · exact ⟨rfl, h.set_unit hunit _⟩
    · exact ⟨rfl, .refl h⟩
  · exact ⟨rfl, .refl h⟩

theorem tell {g : Guard} (hg : D.has g.unit) (api : String) :
    Event.own (v.tell g expression api).2 = Event.own (w.tell g expression api).2 ∧
      D.Moves v w (v.tell g expression api).1 (w.tell g expression api).1 := by
  obtain ⟨hended, hm⟩ := h.escalate hg
  simp only [World.tell, own_append, own_report, hended]
  exact ⟨trivial, hm.trans (hm.agree.beside_reporters _ _)⟩

theorem observe {x : Handle} (hx : x.In D) :
    Event.own (v.observe x expression).2 = Event.own (w.observe x expression).2 ∧
      D.Moves v w (v.observe x expression).1 (w.observe x expression).1 := by
  unfold World.observe
  cases hg : x.guard? with
  | none => exact ⟨rfl, .refl h⟩
  | some g =>
    simp only [h.awaited x.id hx.id]
    split
    · exact ⟨rfl, .refl h⟩
    · exact h.tell (hx.guard g hg) _

theorem seen {u : Use} (hu : ∀ x, u.through = some x → x.In D) :
    Event.own (v.seen u).2 = Event.own (w.seen u).2 ∧ D.Moves v w (v.seen u).1 (w.seen u).1 := by
  unfold World.seen
  cases ht : u.through with
  | none => exact ⟨rfl, .refl h⟩
  | some x => exact h.observe (hu x ht)

theorem use (hw : w.ClosedIn D) {u : Use} (hu : ∀ x, u.through = some x → x.In D)
    (hv : u.value.In D) : D.Tracks v w (v.use u) (w.use u) := by
  refine (h.decide hw hv u.call).next fun a ha => ?_
  have hd : (w.decide u.value u.call).result = .ok () := ha
  obtain ⟨hevents, hseen⟩ := (h.decide hw hv u.call).moves.agree.seen hu
  have hdrafts := World.seen_decided hd
  obtain ⟨hresult, hperform⟩ := hseen.agree.perform (hdrafts ▸ hw.drafts) hv u.call
  refine ⟨congrArg (·.mapError AccessError.store) hresult, ?_, hseen.trans hperform⟩
  simpa only [World.performed, List.append_nil] using hevents

theorem sees? {u : Use} (hu : ∀ x, u.through = some x → x.In D) : v.sees? u = w.sees? u := by
  unfold World.sees?
  cases ht : u.through with
  | none => rfl
  | some x => simp only [Option.bind_some, h.awaited x.id (hu x ht).id]

/-! ## Awaiting -/

theorem markAwaited {x : Handle} (hx : x.In D) :
    D.Moves v w (v.markAwaited x) (w.markAwaited x) := by
  have hc := h.awaited x.id hx.id
  simp only [World.markAwaited, hc]
  split
  · refine ⟨{ h with awaited := fun id hid => ?_ }, { refl v with awaited := fun id hid => ?_ }⟩
    · simp only [List.contains_cons, h.awaited id hid]
    · have hne : id ≠ x.id := by
        rintro rfl
        exact HandleId.in_others.mp hid hx.id
      simp [hne]
  · exact .refl h

theorem poll {f : Future} (hf : f.handle.In D) :
    (v.poll f).2 = (w.poll f).2 ∧ D.Moves v w (v.poll f).1 (w.poll f).1 := by
  have hm := h.markAwaited hf
  unfold World.poll
  cases hs : f.handle.state with
  | resolved value => exact ⟨rfl, hm⟩
  | pending r key route =>
    have hkey : D.has key := by
      have hstate := hf.state
      rwa [hs] at hstate
    simp only [hm.agree.signals key hkey]
    exact ⟨trivial, hm.trans (hm.agree.set_signal hkey _)⟩

theorem dropFuture {f : Future} (hf : f.handle.In D) :
    D.Moves v w (v.dropFuture f) (w.dropFuture f) := by
  have hstate := hf.state
  unfold World.dropFuture
  split
  · rename_i hs _
    rw [hs] at hstate
    exact h.modify_signal hstate _
  · exact .refl h

theorem pollOnce {x : Handle} (hx : x.In D) (waker : Waker) :
    (v.pollOnce x waker).2 = (w.pollOnce x waker).2 ∧
      D.Moves v w (v.pollOnce x waker).1 (w.pollOnce x waker).1 := by
  obtain ⟨hresult, hm⟩ := h.poll (f := { handle := x, waker }) hx
  have hfuture : (w.poll { handle := x, waker }).2.1.handle.In D := by
    rwa [World.poll_handle]
  simp only [World.pollOnce, hresult]
  exact ⟨trivial, hm.trans (hm.agree.dropFuture hfuture)⟩

theorem pollHanging {x : Hanging} (hx : D.has x.signal) (waker : Waker) :
    (v.pollHanging x waker).2 = (w.pollHanging x waker).2 ∧
      D.Moves v w (v.pollHanging x waker).1 (w.pollHanging x waker).1 := by
  unfold World.pollHanging
  rw [h.signals x.signal hx]
  exact ⟨rfl, h.set_signal hx _⟩

theorem dropWork (hk : D.has k) : D.Moves v w (v.dropWork k) (w.dropWork k) := h.modify_work hk _

theorem dropUnit (hunit : D.has unit) : D.Moves v w (v.dropUnit unit) (w.dropUnit unit) :=
  h.modify_unit hunit _

end Agree

end Domain

end RequestAccess
