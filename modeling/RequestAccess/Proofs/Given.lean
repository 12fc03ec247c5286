import RequestAccess.Proofs.Evolution

/-!
# What a fetch gives

A fetch that is not refused makes a handle that its work counts, or gives the one that its unit
remembers. Every fetch that ends in a handle follows one of the rules.
-/

namespace RequestAccess

/-! ## What a unit offers -/

def MemoKey.ofDraft : Option (Key .draft) → MemoKey
  | some key => .source key.index
  | none => .absent

/-- The key under which a unit remembers what it offers of a resource. A cache scope offers the
draft mode that the host looked up for it. -/
def Variant.keyFor (found : Option (Key .draft)) : Variant → Resource → MemoKey
  | .request q, .cookies => .source q.visibleCookies.index
  | .request q, .headers => .source q.headers.index
  | .request q, .draftMode => .ofDraft q.draft
  | .privateCache cookies _ _, .cookies => .source cookies.index
  | .privateCache _ headers _, .headers => .source headers.index
  | .privateCache .., .draftMode | .cache _, .draftMode => .ofDraft found
  | _, .draftMode => .absent
  | _, _ => .unit

namespace World

theorem liveValue_key (found : Option (Key .draft)) (b : Binding) (q : LiveRequest) (r : Resource) :
    (liveValue b q r).1 = (Variant.request q).keyFor found r := by
  cases r with
  | cookies | headers => rfl
  | draftMode => cases hd : q.draft <;> simp [liveValue, Variant.keyFor, MemoKey.ofDraft, hd]

/-! ## Remembering -/

section Memoize

variable (w : World) (unit : Key .unit) (r : Resource) (key : MemoKey) (state : HandleState)
  (guard? : Option Guard)

theorem memoize_kept :
    ((w.memoize unit r key state guard?).1.units.get unit).handles.get? (r, key) =
      some (w.memoize unit r key state guard?).2 := by
  unfold memoize
  cases hk : (w.units.get unit).handles.get? (r, key) with
  | some h => simp [hk]
  | none =>
    simp only [hk, Table.get_set, ↓reduceIte]
    rw [Registry.get?_getOrCreate]
    simp [hk, Registry.getOrCreate]

theorem memoize_evolves {unit : Key .unit} {r : Resource} {key : MemoKey} {state : HandleState}
    {guard? : Option Guard}
    (hn : Handle.Remembered (w.units.get unit).variant unit r key
      { id := .made unit (w.units.get unit).handles.size, state, guard? }) :
    w.Evolves (w.memoize unit r key state guard?).1 := by
  unfold memoize
  cases hk : (w.units.get unit).handles.get? (r, key) with
  | some h =>
    simp only [hk]
    exact .refl w
  | none =>
    simp only [hk]
    refine w.evolves_set_unit unit ⟨rfl, ?_, ?_, fun hnumbered => ?_⟩
    · intro j h hj
      rw [Registry.get?_getOrCreate]
      split
      · rename_i same
        rw [same, hk] at hj
        cases hj
      · exact hj
    · intro r' j h hj
      rw [Registry.get?_getOrCreate] at hj
      split at hj
      · rename_i same
        cases same
        cases (by simpa [hk] using hj : _ = h)
        exact .inr hn
      · exact .inl hj
    · rw [Registry.getOrCreate_of_new hk]
      exact hnumbered.concat _ rfl

end Memoize

/-! ## What a fetch gives -/

def withDetached (w : World) (k : Key .work) : World :=
  { w with works := w.works.modify k fun work => { work with detached := work.detached + 1 } }

/-- What a fetch gives, and the world after it. -/
inductive Given (w : World) (b : Binding) (r : Resource) : Handle → World → Prop where
  | blank (hf : (w.works.get b.work).forceStatic = true) :
    Given w b r
      { id := .detached b.work (w.works.get b.work).detached, state := .resolved (blankValue b r) }
      (w.withDetached b.work)
  | live (q : LiveRequest) (hf : (w.works.get b.work).forceStatic = false)
      (hv : (w.units.get b.unit).variant = .request q) {p : World × Handle}
      (hp : p = (w.markDynamic b.unit).memoize b.unit r (liveValue b q r).1
        (.resolved (liveValue b q r).2) (w.guardFor b)) :
    Given w b r p.2 p.1
  | untracked (state : HandleState) (hf : (w.works.get b.work).forceStatic = false)
      (hv : (w.units.get b.unit).variant.phase ≠ .request) {key : MemoKey}
      (hk : key = (w.units.get b.unit).variant.keyFor (w.draftIn b) r)
      (hs : state.Under (w.units.get b.unit).variant b.unit r key) {p : World × Handle}
      (hp : p = w.memoize b.unit r key state none) :
    Given w b r p.2 p.1

/-- An outcome that, if it is a handle, gives it by the rules. -/
def Gives (w : World) (b : Binding) (r : Resource) (o : Outcome (Except AccessError Handle)) :
    Prop :=
  ∀ h, o.result = .ok h → w.Given b r h o.world

variable {w : World} {b : Binding} {r : Resource}

theorem gives_of_error {o : Outcome (Except AccessError Handle)} {e : AccessError}
    (he : o.result = .error e) : w.Gives b r o := by
  intro h hr
  rw [he] at hr
  cases hr

theorem refuse_gives {e : AccessError} : w.Gives b r (w.refuse e) := gives_of_error rfl

theorem refuseInCache_gives {k : Key .work} {use : CacheUse} {expression : String}
    {scope : CacheScope} : w.Gives b r (w.refuseInCache k use expression scope) :=
  gives_of_error rfl

theorem giveUp_gives {k : Key .work} {unit : Key .unit} {expression : String} :
    w.Gives b r (w.giveUp k unit expression) := gives_of_error rfl

theorem postpone_gives {c : Key .coordinator} {k : Key .work} {log : Key .log}
    {expression : String} : w.Gives b r (w.postpone c k log expression) := by
  intro h hr
  unfold postpone at hr
  split at hr <;> cases hr

theorem unlessStatic_gives {k : Key .work} {expression : String}
    {o : Outcome (Except AccessError Handle)} (h : w.Gives b r o) :
    w.Gives b r (w.unlessStatic k expression o) := by
  simp only [unlessStatic]
  split
  · exact gives_of_error rfl
  · exact h

section Untracked

variable (hf : (w.works.get b.work).forceStatic = false)
  (hv : (w.units.get b.unit).variant.phase ≠ .request)

include hf hv

theorem give_gives {key : MemoKey} {state : HandleState}
    (hk : key = (w.units.get b.unit).variant.keyFor (w.draftIn b) r)
    (hs : state.Under (w.units.get b.unit).variant b.unit r key) :
    w.Gives b r (w.give b.unit r key state none) := by
  intro h hr
  cases hr
  exact .untracked state hf hv hk hs rfl

theorem giveDraft_gives {provider : Option (Key .draft)}
    (hk : .ofDraft provider =
      (w.units.get b.unit).variant.keyFor (w.draftIn b) .draftMode) :
    w.Gives b .draftMode (w.giveDraft b provider) := by
  cases provider with
  | some key => exact give_gives hf hv hk (.draft key b rfl)
  | none => exact give_gives hf hv hk (.noDraft b rfl)

theorem draftOr_gives {o : Outcome (Except AccessError Handle)} (ho : w.Gives b r o)
    (hk : .absent =
      (w.units.get b.unit).variant.keyFor (w.draftIn b) .draftMode) :
    w.Gives b r (w.draftOr b r o) := by
  cases r with
  | draftMode => exact giveDraft_gives hf hv hk
  | cookies | headers => exact ho

theorem fetchDeferred_gives {p : Prerender}
    (hp : (w.units.get b.unit).variant.deferring? = some p)
    (hk : ∀ r, (w.units.get b.unit).variant.keyFor (w.draftIn b) r =
      if r = .draftMode then .absent else .unit) :
    w.Gives b r (w.fetchDeferred b p r) := by
  cases r with
  | draftMode => exact giveDraft_gives hf hv (hk .draftMode).symm
  | cookies => exact give_gives hf hv (hk .cookies).symm (.waiting p _ (by decide) hp)
  | headers => exact give_gives hf hv (hk .headers).symm (.waiting p _ (by decide) hp)

end Untracked

theorem fetchCached_gives {forwarded : Option (Key .draft)}
    (hf : (w.works.get b.work).forceStatic = false)
    (h : (w.units.get b.unit).variant = .cache forwarded) :
    w.Gives b r (w.fetchCached b r) := by
  have hv : (w.units.get b.unit).variant.phase ≠ .request := by simp [h, Variant.phase]
  unfold fetchCached
  split
  · rename_i key hd
    apply giveDraft_gives hf hv
    simp [h, Variant.keyFor, hd]
  · exact refuseInCache_gives

theorem fetchPrivate_gives {cookies : Key .jar} {headers : Key .headers}
    {forwarded : Option (Key .draft)} (hf : (w.works.get b.work).forceStatic = false)
    (h : (w.units.get b.unit).variant = .privateCache cookies headers forwarded) :
    w.Gives b r (w.fetchPrivate b cookies headers r) := by
  have hv : (w.units.get b.unit).variant.phase ≠ .request := by simp [h, Variant.phase]
  cases r with
  | cookies => exact give_gives hf hv (by simp [h, Variant.keyFor]) (.cookies cookies)
  | headers => exact give_gives hf hv (by simp [h, Variant.keyFor]) (.headers headers)
  | draftMode => exact giveDraft_gives hf hv (by simp [h, Variant.keyFor])

theorem fetchIn_gives (hf : (w.works.get b.work).forceStatic = false) :
    w.Gives b r (w.fetchIn b r) := by
  unfold fetchIn
  cases h : (w.units.get b.unit).variant with
  | cache forwarded => exact fetchCached_gives hf h
  | unstableCache => exact refuseInCache_gives
  | privateCache cookies headers forwarded => exact unlessStatic_gives (fetchPrivate_gives hf h)
  | request q =>
    apply unlessStatic_gives
    intro x hx
    cases hx
    exact .live q hf h rfl
  | prerender p | prerenderRuntime p =>
    apply unlessStatic_gives
    refine fetchDeferred_gives hf (by simp [h, Variant.phase]) (by simp [h, Variant.deferring?]) ?_
    intro r
    cases r <;> simp [h, Variant.keyFor]
  | prerenderClient p =>
    apply unlessStatic_gives
    exact draftOr_gives hf (by simp [h, Variant.phase]) refuse_gives (by simp [h, Variant.keyFor])
  | prerenderPartial log =>
    apply unlessStatic_gives
    exact draftOr_gives hf (by simp [h, Variant.phase]) postpone_gives (by simp [h, Variant.keyFor])
  | prerenderLegacy period =>
    apply unlessStatic_gives
    exact draftOr_gives hf (by simp [h, Variant.phase]) giveUp_gives (by simp [h, Variant.keyFor])

/-- What a fetch in a scope gives is given by the rules. -/
theorem fetch_gives (w : World) (c : Key .coordinator) (scope : Scope) (r : Resource) :
    w.Gives (scope.binding c) r (w.fetch c (some scope) r) := by
  simp only [fetch]
  split
  · rename_i hf
    intro h hr
    cases hr
    exact .blank hf
  · rename_i hf
    exact fetchIn_gives (b := scope.binding c) (Bool.eq_false_iff.mpr hf)

end World

/-! ## Steps that fetch -/

/-- What a step that fetches comes to. -/
inductive Session.Fetched (s : Session) (r : Resource) (c : Key .coordinator)
    (work : Option (Key .work)) (unit : Option (Key .unit)) (saveAs : Option String) :
    Session.After → Prop where
  | nowhere (hc : s.world.scope? work unit = none) :
    Fetched s r c work unit saveAs { session := s, reply := .failed (.missingStore r.api) }
  | refused (scope : Scope) (e : AccessError) (events : List Event) (w : World)
      (hc : s.world.scope? work unit = some scope)
      (hr : s.world.Refused (.ofFetch (scope.binding c) r) e events w) :
    Fetched s r c work unit saveAs
      { session := { s with world := w }, events, reply := .failed e }
  | given (scope : Scope) (h : Handle) (events : List Event) (w : World)
      (hc : s.world.scope? work unit = some scope) (hg : s.world.Given (scope.binding c) r h w) :
    Fetched s r c work unit saveAs
      { session := { s with world := w }.keepHandle saveAs h, events,
        reply := .handle h (s.namesOf h) }

theorem Session.fetch_fetched (s : Session) (r : Resource) (c : Key .coordinator)
    (work : Option (Key .work)) (unit : Option (Key .unit)) (saveAs : Option String) :
    s.Fetched r c work unit saveAs (s.fetch r c work unit saveAs) := by
  unfold fetch
  cases hc : s.world.scope? work unit with
  | none => exact .nowhere hc
  | some scope =>
    cases hr : (s.world.fetch c (some scope) r).result with
    | error e =>
      simp only [hr]
      exact .refused scope e _ _ hc (s.world.fetch_refuses c scope r e hr)
    | ok h =>
      simp only [hr]
      exact .given scope h _ _ hc (s.world.fetch_gives c scope r h hr)

end RequestAccess
