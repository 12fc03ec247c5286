import RequestAccess.Proofs.Origin

/-!
# One handle for one resource

A unit gives one handle for a resource, whichever work asks for it, and remembers no more than
that. What a force-static work gets is a new handle each time.
-/

namespace RequestAccess

/-! ## Fetches that succeed -/

/-- A handle that a fetch has given. -/
structure Grant where
  binding : Binding
  resource : Resource
  /-- Given under a force-static work. -/
  isBlank : Bool
  handle : Handle

namespace Grant

def unit (g : Grant) : Key .unit := g.binding.unit

/-- Two grants of what one unit remembers of one resource. -/
def Shares (g g' : Grant) : Prop :=
  g.isBlank = false ∧ g'.isBlank = false ∧ g.unit = g'.unit ∧ g.resource = g'.resource

end Grant

namespace Moment

/-- What the fetch of a step has given. -/
def grant? (m : Moment) : Option Grant :=
  match m.step, m.reply with
  | .fetch r c (some work) (some unit) _, .handle h _ =>
    some {
      binding := { coordinator := c, work, unit }
      resource := r
      isBlank := (m.before.world.works.get work).forceStatic
      handle := h }
  | _, _ => none

/-- The step has succeeded in fetching a resource on a unit under a work that is not
force-static. -/
def fills (m : Moment) (k : Key .unit) (r : Resource) : Bool :=
  m.grant?.any fun g => !g.isBlank && g.unit = k && g.resource = r

/-- How many handles a unit remembers before a step. -/
def sizeBefore (m : Moment) (k : Key .unit) : Nat := (m.before.world.units.get k).remembered

def sizeAfter (m : Moment) (k : Key .unit) : Nat := (m.after.session.world.units.get k).remembered

end Moment

/-- The resources that were fetched on a unit with success, not counting force-static works. -/
def filled (run : List Moment) (k : Key .unit) : List Resource :=
  Resource.all.filter fun r => run.any fun m => m.fills k r

/-- How the units remember what a run has fetched. -/
structure Session.Memoizes (s : Session) (run : List Moment) : Prop where
  /-- One resource of one unit has one handle, and any two other grants differ. -/
  identity : run.Pairwise fun m m' => ∀ g g', m.grant? = some g → m'.grant? = some g' →
    (g.Shares g' → g.handle = g'.handle) ∧ (¬ g.Shares g' → g.handle.id ≠ g'.handle.id)
  /-- A handle that was given under a force-static work is stored nowhere. -/
  unstored (m : Moment) (hm : m ∈ run) (g : Grant) (hg : m.grant? = some g)
    (hb : g.isBlank = true) (k : Key .unit) (e : (Resource × MemoKey) × Handle)
    (he : e ∈ (s.world.units.get k).handles.entries) : e.2.id ≠ g.handle.id
  size (k : Key .unit) : (s.world.units.get k).remembered = (filled run k).length
  atMost (k : Key .unit) : (s.world.units.get k).remembered ≤ 3
  /-- A step adds a handle to a unit just where it is the first to succeed in fetching a resource
  there. No step takes one away. -/
  grows (earlier later : List Moment) (m : Moment) (hrun : run = earlier ++ m :: later)
    (k : Key .unit) :
    (∃ r, m.fills k r = true ∧ r ∉ filled earlier k) ∧ m.sizeAfter k = m.sizeBefore k + 1 ∨
      (∀ r, m.fills k r = true → r ∈ filled earlier k) ∧ m.sizeAfter k = m.sizeBefore k

/-! ## Keys -/

@[simp] theorem Variant.forwarded?_asMade (v : Variant) : v.asMade.forwarded? = v.forwarded? := by
  cases v <;> rfl

theorem Variant.keyFor_asMade (found : Option (Key .draft)) (v : Variant) (r : Resource) :
    v.asMade.keyFor found r = v.keyFor found r := by
  cases v <;> cases r <;> rfl

namespace World

/-- The key under which a unit remembers a resource where cache scopes see the draft mode that was
forwarded to them. -/
def keyOf (w : World) (k : Key .unit) (r : Resource) : MemoKey :=
  (w.units.get k).variant.keyFor (w.units.get k).variant.forwarded? r

variable {w w' : World} {b : Binding} {r : Resource} {h : Handle}

theorem Evolves.keyOf (e : w.Evolves w') (k : Key .unit) (r : Resource) :
    w'.keyOf k r = w.keyOf k r := by
  unfold World.keyOf
  rw [← Variant.keyFor_asMade, ← Variant.forwarded?_asMade, (e.unit k).made, Variant.keyFor_asMade,
    Variant.forwarded?_asMade]

theorem keyFor_of_forwarded (hl : (w.coordinators.get b.coordinator).lookup = .forwarded)
    (r : Resource) : (w.units.get b.unit).variant.keyFor (w.draftIn b) r = w.keyOf b.unit r := by
  unfold draftIn Coordinator.draftFor
  rw [hl]
  rfl

/-! ## What a fetch adds -/

theorem memoize_handles (w : World) (unit k : Key .unit) (r : Resource) (key : MemoKey)
    (state : HandleState) (guard? : Option Guard) :
    ((w.memoize unit r key state guard?).1.units.get k).handles =
      if k = unit then
        ((w.units.get unit).handles.getOrCreate (r, key)
          (w.memoize unit r key state guard?).2).1
      else (w.units.get k).handles := by
  unfold memoize
  cases hold : (w.units.get unit).handles.get? (r, key) with
  | some old =>
    simp only [hold, Registry.getOrCreate_of_kept hold]
    split
    · next hk => rw [hk]
    · rfl
  | none =>
    simp only [hold, Registry.getOrCreate_of_new hold, Table.get_set]
    split <;> rfl

theorem Given.handles (hg : w.Given b r h w') (hf : (w.works.get b.work).forceStatic = false)
    (k : Key .unit) :
    (w'.units.get k).handles =
      if k = b.unit then
        ((w.units.get b.unit).handles.getOrCreate
          (r, (w.units.get b.unit).variant.keyFor (w.draftIn b) r) h).1
      else (w.units.get k).handles := by
  cases hg with
  | blank hs => simp [hf] at hs
  | live q _ hv hp =>
    subst hp
    have hmark := (w.keeps_markDynamic b.unit).handles
    rw [memoize_handles, hmark, hmark, hv, liveValue_key]
  | untracked state _ hv hk hs hp =>
    subst hp hk
    rw [memoize_handles]

theorem Given.kept (hg : w.Given b r h w') (hf : (w.works.get b.work).forceStatic = false) :
    (w'.units.get b.unit).handles.get?
      (r, (w.units.get b.unit).variant.keyFor (w.draftIn b) r) = some h := by
  cases hg with
  | blank hs => simp [hf] at hs
  | live q _ hv hp =>
    subst hp
    rw [hv, ← liveValue_key _ b q r]
    exact memoize_kept _ _ _ _ _ _
  | untracked state _ hv hk hs hp =>
    subst hp hk
    exact memoize_kept _ _ _ _ _ _

theorem Given.blank_handles (hg : w.Given b r h w')
    (hf : (w.works.get b.work).forceStatic = true) :
    w'.units = w.units ∧ h.id = .detached b.work (w.works.get b.work).detached := by
  cases hg with
  | blank hs => exact ⟨rfl, rfl⟩
  | live q hs hv hp => simp [hf] at hs
  | untracked state hs hv hk hu hp => simp [hf] at hs

end World

/-! ## Grants -/

namespace Moment

variable {m : Moment} {g : Grant}

/-- What is known of a grant: what the fetch gave, and where. -/
structure Granted (m : Moment) (g : Grant) : Prop where
  gives : m.gives? = some g.handle
  blank : g.isBlank = (m.before.world.works.get g.binding.work).forceStatic
  given : m.before.world.Given g.binding g.resource g.handle m.after.session.world

theorem grant_fetches (hg : m.grant? = some g) :
    ∃ saveAs same,
      m.step = .fetch g.resource g.binding.coordinator (some g.binding.work)
        (some g.binding.unit) saveAs ∧
      m.reply = .handle g.handle same ∧
      g.isBlank = (m.before.world.works.get g.binding.work).forceStatic := by
  unfold grant? at hg
  split at hg
  · next r c work unit saveAs h same hstep hreply =>
    cases hg
    exact ⟨saveAs, same, hstep, hreply, rfl⟩
  · cases hg

theorem granted (hg : m.grant? = some g) : m.Granted g := by
  obtain ⟨saveAs, same, hstep, hreply, hblank⟩ := grant_fetches hg
  obtain ⟨s, step⟩ := m
  change step = _ at hstep
  subst hstep
  have hf := s.fetch_fetched g.resource g.binding.coordinator (some g.binding.work)
    (some g.binding.unit) saveAs
  change (s.fetch ..).reply = _ at hreply
  refine ⟨congrArg Reply.handle? hreply, hblank, ?_⟩
  change s.world.Given _ _ _ (s.fetch ..).session.world
  generalize s.fetch .. = after at hf hreply ⊢
  cases hf with
  | nowhere _ | refused _ _ _ _ _ _ => cases hreply
  | given scope x events w hc hgiven =>
    cases hreply
    have hscope : scope.binding g.binding.coordinator = g.binding := by
      simp only [World.scope?, Option.ite_none_right_eq_some, Option.some.injEq] at hc
      rw [← hc.2]
      rfl
    rw [hscope] at hgiven
    cases saveAs <;> exact hgiven

theorem gives_of_no_grant (hg : m.grant? = none) : m.gives? = none := by
  cases hm : m.gives? with
  | none => rfl
  | some h =>
    exfalso
    obtain ⟨b, r, ha, -⟩ := gives_cases hm
    obtain ⟨s, step⟩ := m
    cases step with
    | fetch r c work unit saveAs =>
      cases work with
      | none => simp [attempt?, Session.attempt?, World.scope?] at ha
      | some work =>
        cases unit with
        | none => simp [attempt?, Session.attempt?, World.scope?] at ha
        | some unit =>
          unfold grant? at hg
          unfold gives? Reply.handle? at hm
          cases hr : Moment.reply ⟨s, .fetch r c (some work) (some unit) saveAs⟩ <;>
            simp [hr] at hg hm
    | _ => cases hm

end Moment

/-! ## What a step adds -/

namespace Session

variable {s : Session} {run : List Moment} {m : Moment} {k : Key .unit} {r : Resource}

theorem step_handles (hl : ∀ c, (s.world.coordinators.get c).lookup = .forwarded) (step : Step) :
    ((∀ g, Moment.grant? ⟨s, step⟩ = some g → g.isBlank = true) ∧
      ∀ k, ((s.step step).session.world.units.get k).handles = (s.world.units.get k).handles) ∨
    ∃ g, Moment.grant? ⟨s, step⟩ = some g ∧ g.isBlank = false ∧
      ∀ k, ((s.step step).session.world.units.get k).handles =
        if k = g.unit then
          ((s.world.units.get k).handles.getOrCreate
            (g.resource, s.world.keyOf k g.resource) g.handle).1
        else (s.world.units.get k).handles := by
  cases hg : Moment.grant? ⟨s, step⟩ with
  | none =>
    refine .inl ⟨by simp, fun k => ?_⟩
    exact step_memory (Moment.gives_of_no_grant hg) k
  | some g =>
    have h := Moment.granted hg
    have hgiven : s.world.Given g.binding g.resource g.handle (s.step step).session.world := h.given
    cases hb : g.isBlank with
    | true =>
      refine .inl ⟨?_, fun k => ?_⟩
      · intro g' hg'
        cases hg'
        exact hb
      · rw [(hgiven.blank_handles (h.blank.symm.trans hb)).1]
    | false =>
      refine .inr ⟨g, rfl, hb, fun k => ?_⟩
      rw [hgiven.handles (h.blank.symm.trans hb), World.keyFor_of_forwarded (hl _)]
      refine ite_congr rfl (fun hk => ?_) fun _ => rfl
      rw [hk]
      rfl

end Session

/-! ## Which resources were fetched -/

section Filled

variable {run : List Moment} {m : Moment} {k : Key .unit} {r : Resource}

theorem Moment.fills_iff :
    m.fills k r = true ↔
      ∃ g, m.grant? = some g ∧ g.isBlank = false ∧ g.unit = k ∧ g.resource = r := by
  simp [fills, Option.any_eq_true, and_assoc]

theorem Moment.fills_unique {r' : Resource} (h : m.fills k r = true) (h' : m.fills k r' = true) :
    r = r' := by
  obtain ⟨g, hg, -, -, rfl⟩ := fills_iff.mp h
  obtain ⟨g', hg', -, -, rfl⟩ := fills_iff.mp h'
  rw [Option.some.inj (hg.symm.trans hg')]

theorem mem_filled : r ∈ filled run k ↔ ∃ m ∈ run, m.fills k r = true := by
  have hall : r ∈ Resource.all := by cases r <;> simp [Resource.all]
  simp [filled, hall]

theorem mem_filled_snoc :
    r ∈ filled (run ++ [m]) k ↔ r ∈ filled run k ∨ m.fills k r = true := by
  simp [mem_filled, or_and_right, exists_or]

theorem nodup_filled (run : List Moment) (k : Key .unit) : (filled run k).Nodup :=
  List.Pairwise.filter _ (by decide)

theorem filled_length_of_old (h : ∀ r, m.fills k r = true → r ∈ filled run k) :
    (filled (run ++ [m]) k).length = (filled run k).length := by
  refine (List.perm_ext_iff_of_nodup (nodup_filled _ k) (nodup_filled _ k)).mpr ?_ |>.length_eq
  intro r
  rw [mem_filled_snoc]
  exact or_iff_left_of_imp (h r)

theorem filled_length_of_new (hm : m.fills k r = true) (hn : r ∉ filled run k) :
    (filled (run ++ [m]) k).length = (filled run k).length + 1 := by
  have hnodup : (r :: filled run k).Nodup := List.nodup_cons.mpr ⟨hn, nodup_filled run k⟩
  refine (List.perm_ext_iff_of_nodup (nodup_filled _ k) hnodup).mpr ?_ |>.length_eq
  intro x
  rw [mem_filled_snoc, List.mem_cons, or_comm]
  refine or_congr_left ⟨fun hx => Moment.fills_unique hx hm, ?_⟩
  rintro rfl
  exact hm

theorem filled_length_cases (run : List Moment) (m : Moment) (k : Key .unit) :
    (∃ r, m.fills k r = true ∧ r ∉ filled run k) ∧
        (filled (run ++ [m]) k).length = (filled run k).length + 1 ∨
      (∀ r, m.fills k r = true → r ∈ filled run k) ∧
        (filled (run ++ [m]) k).length = (filled run k).length := by
  by_cases h : ∃ r, m.fills k r = true ∧ r ∉ filled run k
  · obtain ⟨r, hm, hn⟩ := h
    exact .inl ⟨⟨r, hm, hn⟩, filled_length_of_new hm hn⟩
  · have hold (r : Resource) (hm : m.fills k r = true) : r ∈ filled run k :=
      Decidable.not_not.mp fun hn => h ⟨r, hm, hn⟩
    exact .inr ⟨hold, filled_length_of_old hold⟩

end Filled

/-! ## Runs -/

/-- A session with the run that has led to it, and how its units hold what the run has fetched. -/
structure Session.Filed (run : List Moment) (s : Session) : Prop where
  recorded : s.Recorded run
  lookup (c : Key .coordinator) : (s.world.coordinators.get c).lookup = .forwarded
  kept (m : Moment) (hm : m ∈ run) (g : Grant) (hg : m.grant? = some g) (hb : g.isBlank = false) :
    (s.world.units.get g.unit).handles.get? (g.resource, s.world.keyOf g.unit g.resource) =
      some g.handle
  stored (k : Key .unit) (e : (Resource × MemoKey) × Handle)
    (he : e ∈ (s.world.units.get k).handles.entries) :
    ∃ m ∈ run, ∃ g, m.grant? = some g ∧ g.isBlank = false ∧ g.unit = k ∧ g.resource = e.1.1 ∧
      g.handle = e.2
  size (k : Key .unit) : (s.world.units.get k).remembered = (filled run k).length
  identity : run.Pairwise fun m m' => ∀ g g', m.grant? = some g → m'.grant? = some g' →
    (g.Shares g' → g.handle = g'.handle) ∧ (¬ g.Shares g' → g.handle.id ≠ g'.handle.id)

namespace Moment.Granted

variable {m : Moment} {g : Grant}

theorem detached (h : m.Granted g) (hb : g.isBlank = true) :
    g.handle.id =
      .detached g.binding.work (m.before.world.works.get g.binding.work).detached :=
  (h.given.blank_handles (h.blank.symm.trans hb)).2

theorem numbered (h : m.Granted g) (hs : m.before.Sound) (hb : g.isBlank = false) :
    ∃ serial, g.handle.id = .made g.unit serial :=
  (h.given.remembered hs.fits (h.blank.symm.trans hb)).id

theorem makes (h : m.Granted g) (hs : m.before.Sound) (hb : g.isBlank = true) :
    ∃ b r, m.Makes b r g.handle := by
  obtain ⟨b, r, -, -, ⟨key, hk⟩ | hm⟩ := gives_cases h.gives
  · obtain ⟨serial, hid⟩ := (hs.fits.remembered _ _ _ _ hk).id
    cases (h.detached hb).symm.trans hid
  · exact ⟨b, r, hm⟩

end Moment.Granted

namespace Session.Filed

variable {s : Session} {run : List Moment}

theorem ofWorld {w : World} (hw : w.Fresh)
    (hl : ∀ c, (w.coordinators.get c).lookup = .forwarded) :
    Filed [] (Session.ofWorld w) where
  recorded := .ofWorld hw
  lookup := hl
  kept m hm := by cases hm
  stored k e he := by simp [Session.ofWorld, (hw.unit k).1] at he
  size k := by
    change (w.units.get k).handles.entries.length = _
    rw [(hw.unit k).1]
    rfl
  identity := .nil

theorem get?_of_filled (hs : s.Filed run) {k : Key .unit} {r : Resource} (hr : r ∈ filled run k) :
    ((s.world.units.get k).handles.get? (r, s.world.keyOf k r)).isSome = true := by
  obtain ⟨m, hm, hfills⟩ := mem_filled.mp hr
  obtain ⟨g, hg, hb, rfl, rfl⟩ := Moment.fills_iff.mp hfills
  rw [hs.kept m hm g hg hb]
  rfl

theorem get?_of_not_filled (hs : s.Filed run) {k : Key .unit} {r : Resource}
    (hr : r ∉ filled run k) (key : MemoKey) :
    (s.world.units.get k).handles.get? (r, key) = none := by
  cases hk : (s.world.units.get k).handles.get? (r, key) with
  | none => rfl
  | some h =>
    obtain ⟨m, hm, g, hg, hb, hu, hres, -⟩ := hs.stored k _ (Registry.mem_entries_of_get? hk)
    exact absurd (mem_filled.mpr ⟨m, hm, Moment.fills_iff.mpr ⟨g, hg, hb, hu, hres⟩⟩) hr

theorem kept_step (hs : s.Filed run) (step : Step) {m : Moment} (hm : m ∈ run ++ [⟨s, step⟩])
    {g : Grant} (hg : m.grant? = some g) (hb : g.isBlank = false) :
    ((s.step step).session.world.units.get g.unit).handles.get?
      (g.resource, (s.step step).session.world.keyOf g.unit g.resource) = some g.handle := by
  have hevolves := s.step_evolves step
  rw [hevolves.keyOf]
  rcases List.mem_append.mp hm with hm | hm
  · exact (hevolves.unit g.unit).kept _ _ (hs.kept m hm g hg hb)
  · rw [List.mem_singleton.mp hm] at hg
    have h := Moment.granted hg
    have hkept := h.given.kept (h.blank.symm.trans hb)
    rwa [World.keyFor_of_forwarded (hs.lookup _)] at hkept

/-- A new grant gives the handle of an earlier one just where both are of what one unit remembers of
one resource. -/
theorem identity_step (hs : s.Filed run) (step : Step) {m : Moment} (hm : m ∈ run) {g g' : Grant}
    (hg : m.grant? = some g) (hg' : Moment.grant? ⟨s, step⟩ = some g') :
    (g.Shares g' → g.handle = g'.handle) ∧ (¬ g.Shares g' → g.handle.id ≠ g'.handle.id) := by
  have h := Moment.granted hg
  have h' := Moment.granted hg'
  have hsound := hs.recorded.sound
  constructor
  · rintro ⟨hb, hb', hunit, hresource⟩
    have hold := hs.kept_step step (List.mem_append_left _ hm) hg hb
    have hnew := hs.kept_step step (List.mem_append_right _ (List.mem_singleton.mpr rfl)) hg' hb'
    rw [hunit, hresource] at hold
    exact Option.some.inj (hold.symm.trans hnew)
  · intro hn
    cases hb' : g'.isBlank with
    | true =>
      -- A blank handle is made by its own fetch, and what is made is new.
      obtain ⟨b, r, hmakes⟩ := h'.makes hsound hb'
      exact hmakes.made.id_ne hsound.fits (hs.recorded.known m hm g.handle h.gives)
    | false =>
      cases hb : g.isBlank with
      | true =>
        obtain ⟨serial, hid'⟩ := h'.numbered hsound hb'
        rw [h.detached hb, hid']
        exact nofun
      | false =>
        -- Both are remembered by now, and a number stands for one place in the memory of a unit.
        have hold := hs.kept_step step (List.mem_append_left _ hm) hg hb
        have hnew :=
          hs.kept_step step (List.mem_append_right _ (List.mem_singleton.mpr rfl)) hg' hb'
        intro same
        obtain ⟨hunit, hplace, -⟩ :=
          (hs.recorded.step step).sound.fits.eq_of_id hold hnew same
        exact hn ⟨hb, hb', hunit, congrArg Prod.fst hplace⟩

theorem stored_step (hs : s.Filed run) (step : Step) (k : Key .unit)
    {e : (Resource × MemoKey) × Handle}
    (he : e ∈ ((s.step step).session.world.units.get k).handles.entries) :
    ∃ m ∈ run ++ [⟨s, step⟩], ∃ g, m.grant? = some g ∧ g.isBlank = false ∧ g.unit = k ∧
      g.resource = e.1.1 ∧ g.handle = e.2 := by
  have earlier (hold : e ∈ (s.world.units.get k).handles.entries) :
      ∃ m ∈ run ++ [⟨s, step⟩], ∃ g, m.grant? = some g ∧ g.isBlank = false ∧ g.unit = k ∧
        g.resource = e.1.1 ∧ g.handle = e.2 := by
    obtain ⟨m, hm, hg⟩ := hs.stored k e hold
    exact ⟨m, List.mem_append_left _ hm, hg⟩
  obtain ⟨-, hsame⟩ | ⟨g, hg, hb, hadd⟩ := step_handles hs.lookup step
  · rw [hsame] at he
    exact earlier he
  · rw [hadd] at he
    split at he
    · next hk =>
      unfold Registry.getOrCreate at he
      split at he
      · exact earlier he
      · rcases List.mem_append.mp he with hold | hnew
        · exact earlier hold
        · cases List.mem_singleton.mp hnew
          exact ⟨_, List.mem_append_right _ (List.mem_singleton.mpr rfl), g, hg, hb, hk.symm, rfl,
            rfl⟩
    · exact earlier he

theorem size_step (hs : s.Filed run) (step : Step) (k : Key .unit) :
    ((s.step step).session.world.units.get k).remembered =
      (filled (run ++ [⟨s, step⟩]) k).length := by
  unfold WorkUnit.remembered
  have hsize : (s.world.units.get k).handles.size = (filled run k).length := hs.size k
  obtain ⟨hblank, hsame⟩ | ⟨g, hg, hb, hadd⟩ := step_handles hs.lookup step
  · rw [hsame, hsize, filled_length_of_old]
    intro r hr
    obtain ⟨g, hg, hb, -⟩ := Moment.fills_iff.mp hr
    simp [hblank g hg] at hb
  · rw [hadd]
    split
    · next hk =>
      have hfills : Moment.fills ⟨s, step⟩ k g.resource = true :=
        Moment.fills_iff.mpr ⟨g, hg, hb, hk.symm, rfl⟩
      -- The unit has a handle of the resource just where an earlier step has filled it.
      by_cases hr : g.resource ∈ filled run k
      · obtain ⟨x, hx⟩ := Option.isSome_iff_exists.mp (hs.get?_of_filled hr)
        rw [Registry.getOrCreate_of_kept hx, hsize, filled_length_of_old]
        intro r' hr'
        exact Moment.fills_unique hfills hr' ▸ hr
      · rw [Registry.getOrCreate_of_new (hs.get?_of_not_filled hr _),
          filled_length_of_new hfills hr, ← hsize]
        simp [Registry.size]
    · next hk =>
      rw [hsize, filled_length_of_old]
      intro r hr
      obtain ⟨g', hg', -, hu, -⟩ := Moment.fills_iff.mp hr
      cases hg.symm.trans hg'
      exact absurd hu.symm hk

theorem step (hs : s.Filed run) (step : Step) :
    Filed (run ++ [⟨s, step⟩]) (s.step step).session where
  recorded := hs.recorded.step step
  lookup c := by
    rw [(s.step_evolves step).coordinators]
    exact hs.lookup c
  kept m hm g hg hb := hs.kept_step step hm hg hb
  stored k e he := hs.stored_step step k he
  size k := hs.size_step step k
  identity := by
    refine List.pairwise_append.mpr ⟨hs.identity, List.pairwise_singleton _ _, ?_⟩
    intro m hm m' hm' g g' hg hg'
    rw [List.mem_singleton.mp hm'] at hg'
    exact hs.identity_step step hm hg hg'

theorem unstored (hs : s.Filed run) {m : Moment} {g : Grant} (hg : m.grant? = some g)
    (hb : g.isBlank = true) (k : Key .unit) {e : (Resource × MemoKey) × Handle}
    (he : e ∈ (s.world.units.get k).handles.entries) : e.2.id ≠ g.handle.id := by
  obtain ⟨m', hm', g', hg', hb', -, -, hh⟩ := hs.stored k e he
  obtain ⟨serial, hid⟩ := (Moment.granted hg').numbered (hs.recorded.past m' hm') hb'
  rw [← hh, hid, (Moment.granted hg).detached hb]
  exact nofun

theorem grows (hs : s.Filed run) (step : Step) (k : Key .unit) :
    let m : Moment := ⟨s, step⟩
    (∃ r, m.fills k r = true ∧ r ∉ filled run k) ∧ m.sizeAfter k = m.sizeBefore k + 1 ∨
      (∀ r, m.fills k r = true → r ∈ filled run k) ∧ m.sizeAfter k = m.sizeBefore k := by
  intro m
  have hbefore : m.sizeBefore k = (filled run k).length := hs.size k
  have hafter : m.sizeAfter k = (filled (run ++ [m]) k).length := hs.size_step step k
  rw [hbefore, hafter]
  exact filled_length_cases run m k

end Session.Filed

/-! ## The law -/

/-- Where cache scopes see the draft mode that was forwarded to them, a unit has one handle for each
resource that was fetched on it with success, and gives it to every work that is not force-static.
What a force-static work gets is given once and stored nowhere. -/
theorem fetches_memoized {w : World} (hw : w.Fresh)
    (hl : ∀ c, (w.coordinators.get c).lookup = .forwarded) (steps : List Step) :
    ((Session.ofWorld w).run steps).1.Memoizes ((Session.ofWorld w).moments steps) := by
  have hstep (run : List Moment) (s : Session) (step : Step) (hs : s.Filed run) :
      (s.step step).session.Filed (run ++ [⟨s, step⟩]) := hs.step step
  have hstart : (Session.ofWorld w).Filed [] := .ofWorld hw hl
  have hs := Session.run_with_moments (P := Session.Filed) hstep _ [] steps hstart
  exact {
    identity := hs.identity
    unstored := fun _ _ _ hg hb k _ he => hs.unstored hg hb k he
    size := hs.size
    atMost := fun k => hs.size k ▸ List.length_filter_le _ Resource.all
    grows := fun _ _ m hrun k =>
      (Session.run_with_moments_at (P := Session.Filed) hstep hstart hrun).grows m.step k }

/-- Two works and two coordinators get one handle from a unit, and a force-static work gets another
that the unit does not remember. -/
theorem fetches_memoized_under_three_works :
    let w : World :=
      { works := ⟨[{ route := "/a" }, { route := "/b" }, { route := "/c", forceStatic := true }]⟩
        units := ⟨[{ variant := .privateCache ⟨0⟩ ⟨0⟩ none }]⟩
        coordinators := ⟨[{ reporter := ⟨0⟩ }, { reporter := ⟨1⟩ }]⟩ }
    let steps : List Step :=
      [.fetch .cookies ⟨0⟩ (some ⟨0⟩) (some ⟨0⟩) (some "a"),
        .fetch .cookies ⟨1⟩ (some ⟨1⟩) (some ⟨0⟩) (some "b"),
        .fetch .cookies ⟨1⟩ (some ⟨2⟩) (some ⟨0⟩) (some "c")]
    let s := ((Session.ofWorld w).run steps).1
    w.Fresh ∧ (∀ c, (w.coordinators.get c).lookup = .forwarded) ∧
      s.Memoizes ((Session.ofWorld w).moments steps) ∧
      s.handles.get? "a" = s.handles.get? "b" ∧ s.handles.get? "a" ≠ s.handles.get? "c" ∧
      (s.world.units.get ⟨0⟩).remembered = 1 := by
  intro w steps s
  have hw : w.Fresh := by
    refine fresh_of_rows w ?_ ?_ rfl
    · intro work hwork
      simp only [w, List.mem_cons, List.not_mem_nil, or_false] at hwork
      rcases hwork with rfl | rfl | rfl <;> exact ⟨rfl, rfl, rfl⟩
    · intro u hu
      rw [List.mem_singleton.mp hu]
      exact ⟨rfl, rfl⟩
  have hl : ∀ c, (w.coordinators.get c).lookup = .forwarded := by
    refine Table.forall_get (P := fun c : Coordinator => c.lookup = .forwarded) ?_ rfl
    intro c hc
    simp only [w, List.mem_cons, List.not_mem_nil, or_false] at hc
    rcases hc with rfl | rfl <;> rfl
  have law := fetches_memoized hw hl steps
  refine ⟨hw, hl, law, by decide +kernel, by decide +kernel, ?_⟩
  rw [law.size]
  decide +kernel

end RequestAccess
