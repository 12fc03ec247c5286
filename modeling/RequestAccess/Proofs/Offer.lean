import RequestAccess.Proofs.Effect

/-!
# What a scope is offered

A fetch that is not refused gives what its unit remembers. If the unit remembers nothing, the fetch
makes a handle to what the scope is offered.
-/

namespace RequestAccess

/-! ## What a unit offers -/

def Source.ofKey? {kind : Kind} : Option (Key kind) → Source kind
  | some key => .shared key
  | none => .blank

def Variant.jar? : Variant → Option (Key .jar)
  | .request q => some q.visibleCookies
  | .privateCache cookies _ _ => some cookies
  | _ => none

def Variant.headers? : Variant → Option (Key .headers)
  | .request q => some q.headers
  | .privateCache _ headers _ => some headers
  | _ => none

/-- The host's draft mode that a unit lets a scope of the work see. -/
def Variant.hostDraft? (c : Coordinator) (work : Work) (v : Variant) : Option (Key .draft) :=
  match v with
  | .request q => q.draft
  | .cache _ | .privateCache .. => c.draftFor work v
  | _ => none

@[simp] theorem Variant.hostDraft?_asMade (c : Coordinator) (work : Work) (v : Variant) :
    v.asMade.hostDraft? c work = v.hostDraft? c work := by
  cases v <;> rfl

theorem Variant.hostDraft?_of_made (c : Coordinator) {work work' : Work} {v v' : Variant}
    (hw : work'.asMade = work.asMade) (hv : v'.asMade = v.asMade) :
    v'.hostDraft? c work' = v.hostDraft? c work := by
  rw [← v'.hostDraft?_asMade, hv, v.hostDraft?_asMade]
  cases v with
  | cache _ | privateCache _ _ _ => exact c.draftFor_of_made hw rfl
  | _ => rfl

namespace World

def hostDraft? (w : World) (b : Binding) : Option (Key .draft) :=
  (w.units.get b.unit).variant.hostDraft? (w.coordinators.get b.coordinator) (w.works.get b.work)

theorem Evolves.hostDraft? {w w' : World} (e : w.Evolves w') (b : Binding) :
    w'.hostDraft? b = w.hostDraft? b := by
  unfold World.hostDraft?
  rw [e.coordinators]
  exact Variant.hostDraft?_of_made _ (e.work b.work).made (e.unit b.unit).made

/-- What a scope can get of a resource, and the key under which its unit remembers it. -/
inductive Offers (w : World) (b : Binding) : Resource → MemoKey → HandleState → Prop where
  | draft :
    Offers w b .draftMode (.ofDraft (w.hostDraft? b))
      (.resolved (.draft (.ofKey? (w.hostDraft? b)) b))
  | cookies (jar : Key .jar) (h : (w.units.get b.unit).variant.jar? = some jar) :
    Offers w b .cookies (.source jar.index) (.resolved (.cookies (.shared jar)))
  | headers (key : Key .headers) (h : (w.units.get b.unit).variant.headers? = some key) :
    Offers w b .headers (.source key.index) (.resolved (.headers (.shared key)))
  | waiting (r : Resource) (p : Prerender) (hr : r ≠ .draftMode)
      (hp : (w.units.get b.unit).variant.deferring? = some p) :
    Offers w b r .unit (.pending r p.signal (w.works.get b.work).route)

/-- The world in which a fetch looks for a handle: a live request has noted the use. -/
def noted (w : World) (b : Binding) : World :=
  match (w.units.get b.unit).variant with
  | .request _ => w.markDynamic b.unit
  | _ => w

def guardOf? (w : World) (b : Binding) : Option Guard :=
  match (w.units.get b.unit).variant with
  | .request _ => w.guardFor b
  | _ => none

/-- An outcome that, if it is a handle, gives what the scope is offered. -/
def Supplies (w : World) (b : Binding) (r : Resource) (o : Outcome (Except AccessError Handle)) :
    Prop :=
  ∀ h, o.result = .ok h → ∃ key state, w.Offers b r key state ∧
    o = (w.noted b).give b.unit r key state (w.guardOf? b)

variable {w : World} {b : Binding} {r : Resource}

theorem supplies_of_error {o : Outcome (Except AccessError Handle)} {e : AccessError}
    (he : o.result = .error e) : w.Supplies b r o := by
  intro h hr
  rw [he] at hr
  cases hr

theorem unlessStatic_supplies {k : Key .work} {expression : String}
    {o : Outcome (Except AccessError Handle)} (h : w.Supplies b r o) :
    w.Supplies b r (w.unlessStatic k expression o) := by
  intro x hx
  have heq := unlessStatic_ok hx
  rw [heq] at hx ⊢
  exact h x hx

section Quiet

/-! A phase that is no live request notes nothing and guards nothing. -/

variable (hn : w.noted b = w) (hg : w.guardOf? b = none)

include hn hg

theorem give_supplies {key : MemoKey} {state : HandleState} (h : w.Offers b r key state) :
    w.Supplies b r (w.give b.unit r key state none) := by
  intro x _
  refine ⟨key, state, h, ?_⟩
  rw [hn, hg]

theorem giveDraft_supplies {provider : Option (Key .draft)} (h : w.hostDraft? b = provider) :
    w.Supplies b .draftMode (w.giveDraft b provider) := by
  have hoffer : w.Offers b .draftMode _ _ := .draft
  rw [h] at hoffer
  cases provider with
  | some key => exact give_supplies hn hg hoffer
  | none => exact give_supplies hn hg hoffer

theorem draftOr_supplies {o : Outcome (Except AccessError Handle)} (h : w.hostDraft? b = none)
    (ho : w.Supplies b r o) : w.Supplies b r (w.draftOr b r o) := by
  cases r with
  | draftMode => exact giveDraft_supplies hn hg h
  | cookies | headers => exact ho

theorem fetchDeferred_supplies {p : Prerender} (h : w.hostDraft? b = none)
    (hp : (w.units.get b.unit).variant.deferring? = some p) :
    w.Supplies b r (w.fetchDeferred b p r) := by
  cases r with
  | draftMode => exact giveDraft_supplies hn hg h
  | cookies => exact give_supplies hn hg (.waiting .cookies p (by decide) hp)
  | headers => exact give_supplies hn hg (.waiting .headers p (by decide) hp)

theorem fetchCached_supplies (h : w.hostDraft? b = w.draftIn b) :
    w.Supplies b r (w.fetchCached b r) := by
  unfold fetchCached
  split
  · rename_i key hd
    exact giveDraft_supplies hn hg (h.trans hd)
  · exact supplies_of_error rfl

theorem fetchPrivate_supplies {cookies : Key .jar} {headers : Key .headers}
    {forwarded : Option (Key .draft)}
    (hv : (w.units.get b.unit).variant = .privateCache cookies headers forwarded) :
    w.Supplies b r (w.fetchPrivate b cookies headers r) := by
  cases r with
  | draftMode =>
    exact giveDraft_supplies hn hg (by simp [hostDraft?, Variant.hostDraft?, draftIn, hv])
  | cookies => exact give_supplies hn hg (.cookies cookies (by simp [hv, Variant.jar?]))
  | headers => exact give_supplies hn hg (.headers headers (by simp [hv, Variant.headers?]))

end Quiet

theorem liveValue_offered (q : LiveRequest) (hv : (w.units.get b.unit).variant = .request q) :
    w.Offers b r (liveValue b q r).1 (.resolved (liveValue b q r).2) := by
  cases r with
  | cookies => exact .cookies q.visibleCookies (by simp [hv, Variant.jar?])
  | headers => exact .headers q.headers (by simp [hv, Variant.headers?])
  | draftMode =>
    have hoffer : w.Offers b .draftMode _ _ := .draft
    rw [show w.hostDraft? b = q.draft by simp [hostDraft?, Variant.hostDraft?, hv]] at hoffer
    unfold liveValue
    cases hd : q.draft with
    | some key => rwa [hd] at hoffer
    | none => rwa [hd] at hoffer

theorem fetchLive_supplies (q : LiveRequest) (hv : (w.units.get b.unit).variant = .request q) :
    w.Supplies b r (w.fetchLive b q r) := by
  intro h _
  refine ⟨_, _, liveValue_offered q hv, ?_⟩
  simp only [noted, guardOf?, hv]
  rfl

theorem fetchIn_supplies (w : World) (b : Binding) (r : Resource) :
    w.Supplies b r (w.fetchIn b r) := by
  unfold fetchIn
  cases hv : (w.units.get b.unit).variant with
  | request q => exact unlessStatic_supplies (fetchLive_supplies q hv)
  | unstableCache => exact supplies_of_error rfl
  | cache forwarded =>
    exact fetchCached_supplies (by simp [noted, hv]) (by simp [guardOf?, hv])
      (by simp [hostDraft?, Variant.hostDraft?, draftIn, hv])
  | privateCache cookies headers forwarded =>
    apply unlessStatic_supplies
    exact fetchPrivate_supplies (by simp [noted, hv]) (by simp [guardOf?, hv]) hv
  | prerender p | prerenderRuntime p =>
    apply unlessStatic_supplies
    exact fetchDeferred_supplies (by simp [noted, hv]) (by simp [guardOf?, hv])
      (by simp [hostDraft?, Variant.hostDraft?, hv]) (by simp [hv, Variant.deferring?])
  | prerenderClient p | prerenderLegacy p =>
    apply unlessStatic_supplies
    exact draftOr_supplies (by simp [noted, hv]) (by simp [guardOf?, hv])
      (by simp [hostDraft?, Variant.hostDraft?, hv]) (supplies_of_error rfl)
  | prerenderPartial log =>
    apply unlessStatic_supplies
    refine draftOr_supplies (by simp [noted, hv]) (by simp [guardOf?, hv])
      (by simp [hostDraft?, Variant.hostDraft?, hv]) ?_
    intro h hr
    unfold postpone at hr
    split at hr <;> cases hr

/-! ## Making a handle -/

/-- A handle that a fetch makes: a new one to an empty resource, or one that its unit did not
remember before. -/
inductive Makes (w : World) (b : Binding) (r : Resource) : Handle → Prop where
  | blank (hf : (w.works.get b.work).forceStatic = true) :
    Makes w b r
      { id := .detached b.work (w.works.get b.work).detached, state := .resolved (blankValue b r) }
  | remembered (key : MemoKey) (state : HandleState)
      (hf : (w.works.get b.work).forceStatic = false) (ho : w.Offers b r key state)
      (hn : (w.units.get b.unit).handles.get? (r, key) = none) :
    Makes w b r
      { id := .made b.unit (w.units.get b.unit).handles.size, state, guard? := w.guardOf? b }

theorem Makes.resource {w : World} {b : Binding} {r : Resource} {h : Handle}
    (hm : w.Makes b r h) : h.resource = r := by
  cases hm with
  | blank hf => cases r <;> rfl
  | remembered key state hf ho hn => cases ho <;> rfl

theorem noted_handles (w : World) (b : Binding) (k : Key .unit) :
    ((w.noted b).units.get k).handles = (w.units.get k).handles := by
  unfold noted
  split
  · exact (w.keeps_markDynamic b.unit).handles k
  · rfl

theorem memoize_memory {w : World} {unit k : Key .unit} {r : Resource} {key : MemoKey}
    {state : HandleState} {guard? : Option Guard} {j : Resource × MemoKey} {h : Handle}
    (hk : ((w.memoize unit r key state guard?).1.units.get k).handles.get? j = some h) :
    (w.units.get k).handles.get? j = some h ∨
      h = (w.memoize unit r key state guard?).2 ∧ k = unit ∧ j = (r, key) := by
  by_cases hsame : k = unit ∧ j = (r, key)
  · obtain ⟨rfl, rfl⟩ := hsame
    rw [memoize_kept] at hk
    exact .inr ⟨(Option.some.inj hk).symm, rfl, rfl⟩
  · refine .inl ?_
    unfold memoize at hk
    cases hold : (w.units.get unit).handles.get? (r, key) with
    | some old => simpa [hold] using hk
    | none =>
      simp only [hold, Table.get_set] at hk
      split at hk
      · rename_i hunit
        subst hunit
        rw [Registry.get?_getOrCreate, if_neg fun hj => hsame ⟨rfl, hj⟩] at hk
        exact hk
      · exact hk

theorem memoize_gives (w : World) (unit : Key .unit) (r : Resource) (key : MemoKey)
    (state : HandleState) (guard? : Option Guard) :
    (w.units.get unit).handles.get? (r, key) = some (w.memoize unit r key state guard?).2 ∨
      (w.units.get unit).handles.get? (r, key) = none ∧
        (w.memoize unit r key state guard?).2 =
          { id := .made unit (w.units.get unit).handles.size, state, guard? } := by
  unfold memoize
  cases hold : (w.units.get unit).handles.get? (r, key) with
  | some old => simp [hold]
  | none => simp [hold, Registry.getOrCreate]

theorem fetch_makes (w : World) (c : Key .coordinator) (scope : Scope) (r : Resource) {h : Handle}
    (hr : (w.fetch c (some scope) r).result = .ok h) :
    (∃ key, (w.units.get scope.unit).handles.get? (r, key) = some h) ∨
      w.Makes (scope.binding c) r h := by
  simp only [fetch] at hr
  split at hr
  · rename_i hf
    cases hr
    exact .inr (.blank hf)
  · rename_i hf
    have hs : w.Supplies (scope.binding c) r (w.fetchIn (scope.binding c) r) :=
      w.fetchIn_supplies _ r
    obtain ⟨key, state, ho, heq⟩ := hs h hr
    change (w.fetchIn (scope.binding c) r).result = .ok h at hr
    rw [heq] at hr
    cases hr
    rcases memoize_gives (w.noted (scope.binding c)) scope.unit r key state
      (w.guardOf? (scope.binding c)) with hold | ⟨hnone, hnew⟩
    · rw [noted_handles] at hold
      exact .inl ⟨key, hold⟩
    · rw [noted_handles] at hnone
      refine .inr ?_
      change w.Makes _ r (World.memoize _ scope.unit r key state _).2
      rw [hnew, noted_handles]
      exact .remembered key state (Bool.eq_false_iff.mpr hf) ho hnone

theorem Given.memory {w w' : World} {b : Binding} {r : Resource} {h x : Handle} {k : Key .unit}
    {j : Resource × MemoKey} (hg : w.Given b r h w')
    (hx : (w'.units.get k).handles.get? j = some x) :
    (w.units.get k).handles.get? j = some x ∨ x = h := by
  cases hg with
  | blank hf => exact .inl hx
  | live q hf hv hp =>
    subst hp
    rcases memoize_memory hx with hold | ⟨hnew, -⟩
    · rw [(w.keeps_markDynamic b.unit).handles k] at hold
      exact .inl hold
    · exact .inr hnew
  | untracked state hf hv hk hs hp =>
    subst hp
    rcases memoize_memory hx with hold | ⟨hnew, -⟩
    · exact .inl hold
    · exact .inr hnew

end World

/-! ## Steps that give a handle -/

/-- The step is a fetch that makes a new handle. -/
structure Moment.Makes (m : Moment) (b : Binding) (r : Resource) (h : Handle) : Prop where
  attempt : m.attempt? = some (.ofFetch b r)
  gives : m.gives? = some h
  made : m.before.world.Makes b r h

/-- A step that gives a handle is a fetch in a scope. The unit remembered the handle, or it is made
by the step. -/
theorem Moment.gives_cases {m : Moment} {h : Handle} (hm : m.gives? = some h) :
    ∃ b r, m.attempt? = some (.ofFetch b r) ∧
      m.before.world.Given b r h m.after.session.world ∧
      ((∃ key, (m.before.world.units.get b.unit).handles.get? (r, key) = some h) ∨
        m.Makes b r h) := by
  have hgives := hm
  obtain ⟨s, step⟩ := m
  cases step with
  | fetch r c work unit saveAs =>
    change (s.fetch r c work unit saveAs).reply.handle? = some h at hm
    cases hc : s.world.scope? work unit with
    | none =>
      simp only [Session.fetch, hc, World.fetch, World.refuse, Reply.handle?] at hm
      cases hm
    | some scope =>
      have ha : Moment.attempt? ⟨s, .fetch r c work unit saveAs⟩ =
          some (.ofFetch (scope.binding c) r) := by
        simp [Moment.attempt?, Session.attempt?, hc]
      cases hr : (s.world.fetch c (some scope) r).result with
      | error e =>
        simp only [Session.fetch, hc, hr, Reply.handle?] at hm
        cases hm
      | ok x =>
        simp only [Session.fetch, hc, hr, Reply.handle?, Option.some.injEq] at hm
        subst hm
        refine ⟨scope.binding c, r, ha, ?_, ?_⟩
        · have hw : Moment.after ⟨s, .fetch r c work unit saveAs⟩ =
              s.fetch r c work unit saveAs := rfl
          have hg := s.world.fetch_gives c scope r x hr
          simp only [hw, Session.fetch, hc, hr]
          cases saveAs <;> exact hg
        · rcases s.world.fetch_makes c scope r hr with hold | hmade
          · exact .inl hold
          · exact .inr ⟨ha, hgives, hmade⟩
  | _ => cases hm

end RequestAccess
