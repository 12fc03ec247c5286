import RequestAccess.Proofs.EmptyResource
import RequestAccess.Proofs.Memory

/-!
# The decision table

One ordered table says what a fetch comes to. It looks at the flags of the work, at the phase of the
unit and at whether a draft mode was forwarded into it. Nothing else in the world decides.
-/

namespace RequestAccess

/-! ## The table -/

/-- What a fetch comes to. -/
inductive Ruling where
  | missingStore
  /-- A new handle to an empty resource. -/
  | blank
  | invalidUsage
  | staticBailout
  /-- A handle that waits for the signal of its unit. -/
  | deferred
  | invariant
  | postponed
  | dynamicServer
  /-- A handle to what its unit offers. -/
  | resolved
deriving DecidableEq

/-- All that the table looks at in a scope. -/
structure Situation where
  forceStatic : Bool
  dynamicShouldError : Bool
  phase : Phase
  /-- Whether a draft mode was forwarded into the unit. -/
  forwarded : Bool

/-- A row of the table: where it applies, and what it says there. -/
structure Row where
  applies : Situation → Resource → Bool
  ruling : Ruling

namespace Ruling

def table : List Row := [
  ⟨fun s _ => s.forceStatic, blank⟩,
  ⟨fun s r => s.phase = .cache && r = .draftMode && s.forwarded, resolved⟩,
  ⟨fun s _ => s.phase = .cache, invalidUsage⟩,
  ⟨fun s _ => s.phase = .unstableCache, invalidUsage⟩,
  ⟨fun s _ => s.dynamicShouldError, staticBailout⟩,
  ⟨fun _ r => r = .draftMode, resolved⟩,
  ⟨fun s _ => s.phase = .prerender || s.phase = .prerenderRuntime, deferred⟩,
  ⟨fun s _ => s.phase = .prerenderClient, invariant⟩,
  ⟨fun s _ => s.phase = .prerenderPartial, postponed⟩,
  ⟨fun s _ => s.phase = .prerenderLegacy, dynamicServer⟩]

/-- The first row that applies decides. Where none does, the unit gives what it offers. -/
def ofSituation (s : Situation) (r : Resource) : Ruling :=
  ((table.find? fun row => row.applies s r).map (·.ruling)).getD resolved

/-- What the table says of a fetch in a situation, or without any scope. -/
def decide : Option Situation → Resource → Ruling
  | none, _ => missingStore
  | some s, r => ofSituation s r

end Ruling

def World.situation (w : World) (scope : Scope) : Situation :=
  let work := w.works.get scope.work
  let v := (w.units.get scope.unit).variant
  { forceStatic := work.forceStatic, dynamicShouldError := work.dynamicShouldError,
    phase := v.phase, forwarded := v.forwarded?.isSome }

/-! ## What the result of a fetch shows -/

def AccessError.ruling? : AccessError → Option Ruling
  | .missingStore _ => some .missingStore
  | .invalidDynamicUsage _ => some .invalidUsage
  | .staticBailout .. => some .staticBailout
  | .invariant _ => some .invariant
  | .postponed _ => some .postponed
  | .dynamicServer .. => some .dynamicServer
  | _ => none

def Handle.ruling (h : Handle) : Ruling :=
  match h.state, h.id with
  | .pending .., _ => .deferred
  | .resolved _, .detached .. => .blank
  | .resolved _, .made .. => .resolved

/-- What can be seen of a fetch, in the terms of the table. -/
def Ruling.shown? : Except AccessError Handle → Option Ruling
  | .error e => e.ruling?
  | .ok h => some h.ruling

/-- A handle that someone has: it is kept under a name, awaited, or remembered by a unit. -/
inductive Session.Holds (s : Session) (h : Handle) : Prop where
  | kept (name : String) (hn : s.handles.get? name = some h)
  | awaited (name : String) (f : Future) (hn : s.futures.get? name = some f) (hf : f.handle = h)
  | remembered (unit : Key .unit) (r : Resource) (key : MemoKey)
      (hk : (s.world.units.get unit).handles.get? (r, key) = some h)

/-- A new handle to a resource of which there is nothing. -/
structure Handle.IsBlank (s : Session) (b : Binding) (r : Resource) (h : Handle) : Prop where
  /-- A call on the handle is one on what awaiting it gives. -/
  nothing : ∃ v, h.state = .resolved v ∧ v.resource = r ∧ v.IsNothing b ∧
    ∀ w call, World.callHandle w h call = w.callValue v call
  unguarded : h.guard? = none
  isNew (other : Handle) (ho : s.Holds other) : other.id ≠ h.id

/-- What is to be said of a handle beside its ruling. -/
def Handle.Shows (s : Session) (c : Key .coordinator) (scope : Scope) (r : Resource) (h : Handle) :
    Ruling → Prop
  | .blank => h.IsBlank s (scope.binding c) r
  | .deferred => h.Remembered (s.world.units.get scope.unit).variant scope.unit r .unit
  | .resolved =>
    h.isResolved = true ∧
      h.Remembered (s.world.units.get scope.unit).variant scope.unit r
        ((s.world.units.get scope.unit).variant.keyFor (s.world.draftIn (scope.binding c)) r)
  | _ => False

/-! ## Handles of a unit -/

theorem Session.Sound.knows {s : Session} (hs : s.Sound) {h : Handle} (hh : s.Holds h) :
    s.world.Knows h := by
  cases hh with
  | kept name hn => exact hs.handles name h hn
  | awaited name f hn hf => exact hf ▸ hs.futures name f hn
  | remembered unit r key hk => exact .memoized unit r key hk

theorem Handle.Remembered.ruling {v : Variant} {unit : Key .unit} {r : Resource} {key : MemoKey}
    {h : Handle} (hr : h.Remembered v unit r key) :
    h.ruling = if key = .unit then .deferred else .resolved := by
  obtain ⟨⟨serial, hid⟩, hstate, -⟩ := hr
  unfold Handle.ruling
  rw [hid]
  generalize h.state = state at hstate
  cases hstate <;> simp

theorem Handle.Remembered.isResolved {v : Variant} {unit : Key .unit} {r : Resource}
    {key : MemoKey} {h : Handle} (hr : h.Remembered v unit r key) (hk : key ≠ .unit) :
    h.isResolved = true := by
  have hstate := hr.state
  unfold Handle.isResolved
  generalize h.state = state at hstate
  cases hstate with
  | waiting p route hr hp => exact absurd rfl hk
  | cookies | headers | draft | noDraft => rfl

namespace World

variable {w w' : World} {b : Binding} {r : Resource} {h : Handle}

theorem Given.remembered (hw : w.Fits) (hg : w.Given b r h w')
    (hf : (w.works.get b.work).forceStatic = false) :
    h.Remembered (w.units.get b.unit).variant b.unit r
      ((w.units.get b.unit).variant.keyFor (w.draftIn b) r) := by
  have fits := hw.evolves hg.evolves
  have made := (hg.evolves.unit b.unit).made.symm
  cases hg with
  | blank hs => simp [hf] at hs
  | live q _ hv hp =>
    subst hp
    have hk := memoize_kept (w.markDynamic b.unit) b.unit r (liveValue b q r).1
      (.resolved (liveValue b q r).2) (w.guardFor b)
    rw [hv, ← liveValue_key _ b q r, ← hv]
    exact (fits.remembered _ _ _ _ hk).of_asMade made
  | untracked state _ hv hk hs hp =>
    subst hp hk
    exact (fits.remembered _ _ _ _ (memoize_kept _ _ _ _ _ _)).of_asMade made

theorem Knows.id_ne_detached {k : Key .work} (hh : w.Fits) (hk : w.Knows h) :
    h.id ≠ .detached k (w.works.get k).detached := by
  cases hk with
  | memoized unit r key hk =>
    obtain ⟨serial', hid⟩ := (hh.remembered unit r key h hk).id
    rw [hid]
    exact nofun
  | detached b r serial hf hs hd =>
    subst hd
    intro same
    cases same
    exact absurd hs (Nat.lt_irrefl _)

/-! ## The phases -/

theorem shown_unlessStatic {k : Key .work} {expression : String}
    {o : Outcome (Except AccessError Handle)} :
    Ruling.shown? (w.unlessStatic k expression o).result =
      if (w.works.get k).dynamicShouldError then some .staticBailout
      else Ruling.shown? o.result := by
  simp only [unlessStatic]
  split <;> rfl

theorem shown_postpone {c : Key .coordinator} {k : Key .work} {log : Key .log}
    {expression : String} :
    Ruling.shown? (w.postpone c k log expression).result = some .postponed := by
  unfold postpone
  split <;> rfl

section Shown

variable (hw : w.Fits) (hf : (w.works.get b.work).forceStatic = false)

include hw hf

theorem shown_gives {o : Outcome (Except AccessError Handle)} (hg : w.Gives b r o)
    (ho : o.result = .ok h) :
    Ruling.shown? o.result =
      some (if (w.units.get b.unit).variant.keyFor (w.draftIn b) r = .unit
        then .deferred else .resolved) := by
  rw [ho]
  exact congrArg some ((hg h ho).remembered hw hf).ruling

theorem shown_giveDraft {provider : Option (Key .draft)}
    (hv : (w.units.get b.unit).variant.phase ≠ .request)
    (hk : .ofDraft provider =
      (w.units.get b.unit).variant.keyFor (w.draftIn b) .draftMode) :
    Ruling.shown? (w.giveDraft b provider).result = some .resolved := by
  have hg := giveDraft_gives hf hv hk
  cases provider with
  | some key => rw [shown_gives hw hf hg rfl, ← hk]; rfl
  | none => rw [shown_gives hw hf hg rfl, ← hk]; rfl

theorem shown_draftOr {o : Outcome (Except AccessError Handle)}
    (hv : (w.units.get b.unit).variant.phase ≠ .request)
    (hk : .absent =
      (w.units.get b.unit).variant.keyFor (w.draftIn b) .draftMode) :
    Ruling.shown? (w.draftOr b r o).result =
      if r = .draftMode then some .resolved else Ruling.shown? o.result := by
  cases r with
  | draftMode => exact shown_giveDraft hw hf hv hk
  | cookies | headers => rfl

theorem shown_fetchCached {forwarded : Option (Key .draft)}
    (hl : (w.coordinators.get b.coordinator).lookup = .forwarded)
    (h : (w.units.get b.unit).variant = .cache forwarded) :
    Ruling.shown? (w.fetchCached b r).result =
      some (if r = .draftMode && forwarded.isSome then .resolved else .invalidUsage) := by
  have hd : w.draftIn b = forwarded := by
    simp [draftIn, Coordinator.draftFor, hl, h, DraftLookup.forwarded, Variant.forwarded?]
  unfold fetchCached
  rw [hd]
  cases r with
  | cookies | headers => rfl
  | draftMode =>
    cases forwarded with
    | none => rfl
    | some key =>
      exact shown_giveDraft hw hf (by simp [h, Variant.phase]) (by simp [h, Variant.keyFor, hd])

theorem shown_fetchDeferred {p : Prerender}
    (hp : (w.units.get b.unit).variant.deferring? = some p)
    (hv : (w.units.get b.unit).variant.phase ≠ .request)
    (hk : ∀ r, (w.units.get b.unit).variant.keyFor (w.draftIn b) r =
      if r = .draftMode then .absent else .unit) :
    Ruling.shown? (w.fetchDeferred b p r).result =
      if r = .draftMode then some .resolved else some .deferred := by
  have hg := fetchDeferred_gives (r := r) hf hv hp hk
  cases r with
  | draftMode => exact shown_giveDraft hw hf hv (hk .draftMode).symm
  | cookies | headers => rw [shown_gives hw hf hg rfl, hk]; rfl

theorem shown_fetchPrivate {cookies : Key .jar} {headers : Key .headers}
    {forwarded : Option (Key .draft)}
    (h : (w.units.get b.unit).variant = .privateCache cookies headers forwarded) :
    Ruling.shown? (w.fetchPrivate b cookies headers r).result = some .resolved := by
  have hg := fetchPrivate_gives (r := r) hf h
  cases r with
  | draftMode =>
    exact shown_giveDraft hw hf (by simp [h, Variant.phase]) (by simp [h, Variant.keyFor])
  | cookies | headers => rw [shown_gives hw hf hg rfl, h]; rfl

theorem shown_fetchLive {q : LiveRequest} (h : (w.units.get b.unit).variant = .request q) :
    Ruling.shown? (w.fetchLive b q r).result = some .resolved := by
  have hg : w.Gives b r (w.fetchLive b q r) := by
    intro x hx
    cases hx
    exact .live q hf h rfl
  rw [shown_gives hw hf hg rfl, h]
  cases r with
  | cookies | headers => rfl
  | draftMode => cases hd : q.draft <;> simp [Variant.keyFor, MemoKey.ofDraft, hd]

end Shown

theorem ruling_in_phase {s : Situation} (hf : s.forceStatic = false) :
    Ruling.ofSituation s r =
      match s.phase with
      | .cache => if r = .draftMode && s.forwarded then .resolved else .invalidUsage
      | .unstableCache => .invalidUsage
      | phase =>
        if s.dynamicShouldError then .staticBailout
        else if r = .draftMode then .resolved
        else match phase with
          | .prerender | .prerenderRuntime => .deferred
          | .prerenderClient => .invariant
          | .prerenderPartial => .postponed
          | .prerenderLegacy => .dynamicServer
          | _ => .resolved := by
  obtain ⟨forceStatic, shouldError, phase, forwarded⟩ := s
  cases hf
  cases phase <;> cases shouldError <;> cases forwarded <;> cases r <;> rfl

/-- In every phase the table and the fetch agree. -/
theorem shown_fetchIn (hw : w.Fits) (hf : (w.works.get b.work).forceStatic = false)
    (hl : (w.coordinators.get b.coordinator).lookup = .forwarded) :
    Ruling.shown? (w.fetchIn b r).result =
      some (Ruling.ofSituation (w.situation { work := b.work, unit := b.unit }) r) := by
  rw [ruling_in_phase (s := w.situation { work := b.work, unit := b.unit }) hf]
  unfold fetchIn situation
  cases h : (w.units.get b.unit).variant with
  | cache forwarded => exact shown_fetchCached hw hf hl h
  | unstableCache => rfl
  | prerender p | prerenderRuntime p =>
    have hv : (w.units.get b.unit).variant.phase ≠ .request := by simp [h, Variant.phase]
    have hk (r : Resource) :
        (w.units.get b.unit).variant.keyFor (w.draftIn b) r =
          if r = .draftMode then .absent else .unit := by
      rw [h]
      cases r <;> rfl
    simp only [Variant.phase, shown_unlessStatic, apply_ite some]
    rw [shown_fetchDeferred hw hf (by rw [h]; rfl) hv hk]
  | prerenderClient p | prerenderPartial p | prerenderLegacy p =>
    have hv : (w.units.get b.unit).variant.phase ≠ .request := by simp [h, Variant.phase]
    simp only [Variant.phase, shown_unlessStatic, apply_ite some]
    rw [shown_draftOr hw hf hv (by rw [h]; rfl)]
    first | rw [shown_postpone] | rfl
  | request q =>
    simp only [Variant.phase, shown_unlessStatic, apply_ite some, ite_self]
    rw [shown_fetchLive hw hf h]
  | privateCache cookies headers forwarded =>
    simp only [Variant.phase, shown_unlessStatic, apply_ite some, ite_self]
    rw [shown_fetchPrivate hw hf h]

end World

/-! ## Every fetch -/

theorem Handle.shows_of_remembered {s : Session} {c : Key .coordinator} {scope : Scope}
    {r : Resource} {h : Handle}
    (hr : h.Remembered (s.world.units.get scope.unit).variant scope.unit r
      ((s.world.units.get scope.unit).variant.keyFor (s.world.draftIn (scope.binding c)) r)) :
    h.Shows s c scope r h.ruling := by
  rw [hr.ruling]
  split
  · rename_i hk
    rw [hk] at hr
    exact hr
  · rename_i hk
    exact ⟨hr.isResolved hk, hr⟩

/-- The result of every fetch is the one that the table gives, and a handle that is given is what
the ruling says. -/
theorem fetch_follows_table {s : Session} (hs : s.Reachable) {c : Key .coordinator}
    (hl : (s.world.coordinators.get c).lookup = .forwarded) (scope : Option Scope) (r : Resource) :
    let ruling := Ruling.decide (scope.map s.world.situation) r
    let result := (s.world.fetch c scope r).result
    Ruling.shown? result = some ruling ∧
      ∀ h, result = .ok h → ∃ here ∈ scope, h.Shows s c here r ruling := by
  have hw := hs.sound.fits
  cases scope with
  | none =>
    refine ⟨rfl, ?_⟩
    intro h hr
    cases hr
  | some scope =>
    dsimp only [Option.map_some, Ruling.decide]
    cases hf : (s.world.works.get scope.work).forceStatic with
    | true =>
      have hb : (s.world.fetch c (some scope) r) = s.world.giveBlank (scope.binding c) r := by
        simp [World.fetch, hf, Scope.binding]
      have ht : Ruling.ofSituation (s.world.situation scope) r = .blank := by
        simp [Ruling.ofSituation, Ruling.table, World.situation, hf]
      rw [hb, ht]
      refine ⟨rfl, ?_⟩
      intro h hr
      cases hr
      refine ⟨scope, rfl, ⟨_, rfl, World.blankValue_resource _ r, World.isNothing_blankValue _ r,
        World.callHandle_eq_callValue rfl rfl⟩, rfl, fun other ho => ?_⟩
      exact (hs.sound.knows ho).id_ne_detached hw
    | false =>
      have hb : (s.world.fetch c (some scope) r) = s.world.fetchIn (scope.binding c) r := by
        simp [World.fetch, hf, Scope.binding]
      have hshown := World.shown_fetchIn (b := scope.binding c) (r := r) hw hf hl
      rw [hb]
      refine ⟨hshown, ?_⟩
      intro h hr
      have hrem := (World.fetchIn_gives (b := scope.binding c) hf h hr).remembered hw hf
      have hruling : h.ruling = Ruling.ofSituation (s.world.situation scope) r := by
        rw [hr] at hshown
        exact Option.some.inj hshown
      refine ⟨scope, rfl, ?_⟩
      rw [← hruling]
      exact Handle.shows_of_remembered hrem

/-- A cache scope into which no draft mode is forwarded refuses draft mode, also after the latch of
its work is set. Under a force-static work the same scope gives cookies, of which there are none and
to which none can be added. -/
theorem fetch_follows_table_after_latch :
    let w := World.ofPage { route := "/" } (.cache none)
    let s := (Session.ofWorld w).run [.fetch .headers ⟨0⟩ (some ⟨0⟩) (some ⟨0⟩) none]
    let static := Session.ofWorld (.ofPage { route := "/", forceStatic := true } (.cache none))
    let given := static.world.fetch ⟨0⟩ (some ⟨⟨0⟩, ⟨0⟩⟩) .cookies
    w.Fresh ∧ Ruling.shown? (s.1.world.fetch ⟨0⟩ (some ⟨⟨0⟩, ⟨0⟩⟩) .draftMode).result =
        some .invalidUsage ∧
      static.world.Fresh ∧ Ruling.shown? given.result = some .blank ∧
      ∃ h, given.result = .ok h ∧
        (given.world.callHandle h (.cookies .size)).result = .ok (.count 0) ∧
        (given.world.callHandle h (.cookies (.set { name := "a", value := "1" }))).result =
          .error (.store .readonlyCookies) := by
  intro w s static given
  have hw : w.Fresh := fresh_ofPage ⟨rfl, rfl, rfl⟩ rfl
  have hstatic : static.world.Fresh := fresh_ofPage ⟨rfl, rfl, rfl⟩ rfl
  obtain ⟨hruling, hshows⟩ :=
    fetch_follows_table (Session.Reachable.fresh hstatic) (c := ⟨0⟩) rfl (some ⟨⟨0⟩, ⟨0⟩⟩) .cookies
  obtain ⟨h, hh⟩ : ∃ h, given.result = .ok h := ⟨_, rfl⟩
  obtain ⟨here, -, hblank⟩ := hshows h hh
  obtain ⟨v, -, hr, hnothing, hcalls⟩ := hblank.nothing
  refine ⟨hw, (fetch_follows_table ((Session.Reachable.fresh hw).run _) rfl _ _).1, hstatic,
    hruling, h, hh, ?_, ?_⟩
  · rw [hcalls, hnothing.answers _ (.cookies .size) hr.symm (by rw [hr]; rfl)]
    rfl
  · rw [hcalls, hnothing.answers _ (.cookies (.set _)) hr.symm (by rw [hr]; rfl)]
    rfl

end RequestAccess
