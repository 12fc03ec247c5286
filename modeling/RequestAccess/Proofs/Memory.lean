import RequestAccess.Proofs.Given

/-!
# Where handles come from

Every handle that a session keeps is one that its unit remembers or one that its work counted, and
what a unit remembers fits its keys.
-/

namespace RequestAccess

namespace World

/-! ## Worlds -/

/-- What every unit remembers is numbered and fits the keys. -/
structure Fits (w : World) : Prop where
  numbered (k : Key .unit) : (w.units.get k).Numbered k
  remembered (k : Key .unit) (r : Resource) (key : MemoKey) (h : Handle)
    (hk : (w.units.get k).handles.get? (r, key) = some h) :
    h.Remembered (w.units.get k).variant k r key

/-- A handle that came from a fetch in this world. -/
inductive Knows (w : World) (h : Handle) : Prop where
  | memoized (unit : Key .unit) (r : Resource) (key : MemoKey)
      (hk : (w.units.get unit).handles.get? (r, key) = some h)
  | detached (b : Binding) (r : Resource) (serial : Nat)
      (hf : (w.works.get b.work).forceStatic = true)
      (hs : serial < (w.works.get b.work).detached)
      (hh : h = { id := .detached b.work serial, state := .resolved (blankValue b r) })

variable {w w' : World} {b : Binding} {r : Resource} {h : Handle}

theorem fits_of_fresh (hw : w.Fresh) : w.Fits where
  numbered k n e he := by simp [(hw.unit k).1] at he
  remembered k r key h hk := by simp [Registry.get?, (hw.unit k).1] at hk

theorem Fits.evolves (hw : w.Fits) (e : w.Evolves w') : w'.Fits where
  numbered k := (e.unit k).numbered (hw.numbered k)
  remembered k r key h hk := by
    rcases (e.unit k).new r key h hk with old | new
    · exact (hw.remembered k r key h old).of_asMade (e.unit k).made
    · exact new.of_asMade (e.unit k).made

/-- Two handles of one identity are one, and are remembered in one place. -/
theorem Fits.eq_of_id (hw : w.Fits) {k k' : Key .unit} {j j' : Resource × MemoKey}
    {h h' : Handle} (hk : (w.units.get k).handles.get? j = some h)
    (hk' : (w.units.get k').handles.get? j' = some h') (hid : h.id = h'.id) :
    k = k' ∧ j = j' ∧ h = h' := by
  obtain ⟨n, hn⟩ := List.getElem?_of_mem (Registry.mem_entries_of_get? hk)
  obtain ⟨n', hn'⟩ := List.getElem?_of_mem (Registry.mem_entries_of_get? hk')
  have hmade : HandleId.made k n = .made k' n' :=
    ((hw.numbered k n _ hn).symm.trans hid).trans (hw.numbered k' n' _ hn')
  obtain ⟨rfl, rfl⟩ := HandleId.made.inj hmade
  obtain ⟨rfl, rfl⟩ := Prod.mk.inj (Option.some.inj (hn.symm.trans hn'))
  exact ⟨rfl, rfl, rfl⟩

theorem Fits.fresh (hw : w.Fits) {k k' : Key .unit} {j : Resource × MemoKey}
    (hk : (w.units.get k').handles.get? j = some h) :
    h.id ≠ .made k (w.units.get k).handles.size := by
  obtain ⟨n, hn⟩ := List.getElem?_of_mem (Registry.mem_entries_of_get? hk)
  rw [hw.numbered k' n _ hn]
  intro same
  -- The entries are numbered below the size of the registry.
  obtain ⟨rfl, rfl⟩ := HandleId.made.inj same
  exact absurd (List.getElem?_eq_some_iff.mp hn).1 (Nat.lt_irrefl _)

theorem Knows.evolves (hh : w.Knows h) (e : w.Evolves w') : w'.Knows h := by
  cases hh with
  | memoized unit r key hk => exact .memoized unit r key ((e.unit unit).kept (r, key) h hk)
  | detached b r serial hf hs hh =>
    have made := congrArg Work.forceStatic (e.work b.work).made
    exact .detached b r serial (made.trans hf)
      (Nat.lt_of_lt_of_le hs (e.work b.work).detached) hh

/-! ## What is given -/

theorem evolves_withDetached (w : World) (k : Key .work) : w.Evolves (w.withDetached k) :=
  w.evolves_set_work k ⟨rfl, Nat.le_succ _⟩

theorem guardFor_unit {g : Guard} (hg : w.guardFor b = some g) : g.unit = b.unit := by
  simp only [guardFor] at hg
  split at hg
  · cases hg
    rfl
  · cases hg

theorem liveValue_under {v : Variant} (b : Binding) (q : LiveRequest) (r : Resource) :
    HandleState.Under v b.unit r (liveValue b q r).1 (.resolved (liveValue b q r).2) := by
  cases r with
  | cookies => exact .cookies q.visibleCookies
  | headers => exact .headers q.headers
  | draftMode =>
    unfold liveValue
    cases q.draft with
    | some key => exact .draft key b rfl
    | none => exact .noDraft b rfl

theorem live_remembered {q : LiveRequest} (hv : (w.units.get b.unit).variant = .request q) :
    Handle.Remembered ((w.markDynamic b.unit).units.get b.unit).variant b.unit r
      (liveValue b q r).1
      { id := .made b.unit ((w.markDynamic b.unit).units.get b.unit).handles.size,
        state := .resolved (liveValue b q r).2, guard? := w.guardFor b } where
  id := ⟨_, rfl⟩
  state := liveValue_under b q r
  guard g hg := by
    refine ⟨?_, guardFor_unit hg⟩
    simp [markDynamic, hv, Variant.mapRequest, Variant.phase]

theorem Given.evolves (hg : w.Given b r h w') : w.Evolves w' := by
  cases hg with
  | blank hf => exact w.evolves_withDetached b.work
  | live q hf hv hp =>
    subst hp
    exact (w.keeps_markDynamic b.unit).evolves.trans (memoize_evolves _ (live_remembered hv))
  | untracked state hf hv hk hs hp =>
    subst hp
    exact memoize_evolves w ⟨⟨_, rfl⟩, hs, by simp⟩

theorem Given.knows (hg : w.Given b r h w') : w'.Knows h := by
  cases hg with
  | blank hf =>
    refine .detached b r _ ?_ ?_ rfl <;> simp [withDetached, hf]
  | live q hf hv hp =>
    subst hp
    exact .memoized b.unit r _ (memoize_kept _ _ _ _ _ _)
  | untracked state hf hv hk hs hp =>
    subst hp
    exact .memoized b.unit r _ (memoize_kept _ _ _ _ _ _)

theorem poll_handle (w : World) (f : Future) : (w.poll f).2.1.handle = f.handle := by
  unfold poll
  cases f.handle.state <;> rfl

end World

namespace Session

/-! ## Sessions -/

/-- Every handle that is kept came from a fetch. -/
structure Sound (s : Session) : Prop where
  fits : s.world.Fits
  handles (name : String) (h : Handle) (hn : s.handles.get? name = some h) : s.world.Knows h
  futures (name : String) (f : Future) (hn : s.futures.get? name = some f) :
    s.world.Knows f.handle

namespace Sound

variable {s : Session}

theorem ofWorld {w : World} (hw : w.Fresh) : (Session.ofWorld w).Sound where
  fits := World.fits_of_fresh hw
  handles name h hn := by cases hn
  futures name f hn := by cases hn

theorem evolves {w : World} (hs : s.Sound) (e : s.world.Evolves w) :
    Sound { s with world := w } where
  fits := hs.fits.evolves e
  handles name h hn := (hs.handles name h hn).evolves e
  futures name f hn := (hs.futures name f hn).evolves e

theorem keepHandle (hs : s.Sound) (name : Option String) {h : Handle} (hk : s.world.Knows h) :
    (s.keepHandle name h).Sound := by
  cases name with
  | none => exact hs
  | some name =>
    refine ⟨hs.fits, ?_, hs.futures⟩
    intro other x hx
    rcases NameMap.found_insert hx with rfl | hold
    · exact hk
    · exact hs.handles other x hold

theorem keepValue (hs : s.Sound) (name : Option String) (v : Value) :
    (s.keepValue name v).Sound := by
  cases name with
  | none => exact hs
  | some name => exact ⟨hs.fits, hs.handles, hs.futures⟩

theorem asked (hs : s.Sound) (saveAs : Option String)
    (result : Option (Except AccessError Value)) : (s.asked saveAs result).session.Sound := by
  unfold Session.asked
  split
  · exact hs
  · exact hs.keepValue saveAs _
  · exact hs

theorem forget (hs : s.Sound) (name : String) : (s.forget name).Sound := by
  unfold Session.forget
  split
  · rename_i f hf
    have hw := hs.evolves (s.world.keeps_dropFuture f).evolves
    refine ⟨hw.fits, hw.handles, ?_⟩
    exact fun other x hx => hw.futures other x (NameMap.found_erase hx)
  · exact hs

theorem keepFuture (hs : s.Sound) (name : String) {f : Future} (waker : Waker)
    (hk : s.world.Knows f.handle) :
    Sound { s with futures := s.futures.insert name f, nextWaker := waker } := by
  refine ⟨hs.fits, hs.handles, ?_⟩
  intro other x hx
  rcases NameMap.found_insert hx with rfl | hold
  · exact hk
  · exact hs.futures other x hold

theorem knows_forget {h : Handle} (hk : s.world.Knows h) (name : String) :
    (s.forget name).world.Knows h := by
  unfold Session.forget
  split
  · rename_i f hf
    exact hk.evolves (s.world.keeps_dropFuture f).evolves
  · exact hk

/-! ## Steps -/

theorem fetch (hs : s.Sound) (r : Resource) (c : Key .coordinator) (work : Option (Key .work))
    (unit : Option (Key .unit)) (saveAs : Option String) :
    (s.fetch r c work unit saveAs).session.Sound := by
  have hf := s.fetch_fetched r c work unit saveAs
  generalize s.fetch r c work unit saveAs = after at hf
  cases hf with
  | nowhere hc => exact hs
  | refused scope e events w hc hr => exact hs.evolves hr.evolves
  | given scope h events w hc hg => exact (hs.evolves hg.evolves).keepHandle saveAs hg.knows

theorem now (hs : s.Sound) (h : Handle) (saveAs : Option String) :
    (s.now h saveAs).session.Sound := by
  have hw := hs.evolves (s.world.keeps_pollOnce h s.nextWaker).evolves
  refine asked ?_ saveAs _
  exact ⟨hw.fits, hw.handles, hw.futures⟩

theorem start (hs : s.Sound) {h : Handle} (hk : s.world.Knows h) (future : String) :
    (s.start h future).session.Sound :=
  (hs.forget future).keepFuture future _ (knows_forget hk future)

theorem poll (hs : s.Sound) (name : String) {f : Future} (hf : s.world.Knows f.handle)
    (saveAs : Option String) : (s.poll name f saveAs).session.Sound := by
  have e := (s.world.keeps_poll f).evolves
  have hk : (s.world.poll f).1.Knows (s.world.poll f).2.1.handle := by
    rw [World.poll_handle]
    exact hf.evolves e
  have hp := (hs.evolves e).keepFuture name s.nextWaker hk
  simp only [Session.poll]
  split
  · exact (hp.forget name).asked saveAs _
  · exact hp.asked saveAs _

theorem step (hs : s.Sound) (step : Step) : (s.step step).session.Sound := by
  have withHandle {name : String} {f : Handle → After}
      (hf : ∀ h, s.world.Knows h → (f h).session.Sound) : (s.withHandle name f).session.Sound :=
    withHandle_of (P := fun a => a.session.Sound) (fun h hn => hf h (hs.handles name h hn)) hs
  cases step with
  | fetch r c work unit saveAs => exact hs.fetch r c work unit saveAs
  | callHandle name call =>
    exact withHandle fun h _ => hs.evolves (s.world.callHandle_called h call).evolves
  | callValue name call =>
    simp only [Session.step]
    split
    · exact hs.evolves (s.world.callValue_called _ call).evolves
    · exact hs
  | now name saveAs => exact withHandle fun h _ => hs.now h saveAs
  | start name future => exact withHandle fun h hk => hs.start hk future
  | poll name saveAs =>
    simp only [Session.step]
    split
    · rename_i f hf
      exact hs.poll name (hs.futures name f hf) saveAs
    · exact hs
  | abort key => exact hs.evolves (s.world.keeps_abortSignal key).evolves
  | clone name saveAs => exact withHandle fun h hk => hs.keepHandle (some saveAs) hk
  | dropWork key => exact hs.evolves (s.world.evolves_dropWork key)
  | dropUnit key => exact hs.evolves (s.world.evolves_dropUnit key)
  | dropHandle name =>
    refine ⟨hs.fits, ?_, hs.futures⟩
    exact fun other x hx => hs.handles other x (NameMap.found_erase hx)
  | dropValue name => exact ⟨hs.fits, hs.handles, hs.futures⟩
  | dropFuture name => exact hs.forget name
  | callJar key call => exact hs.evolves (s.world.keeps_callJar (.shared key) call).evolves
  | callHeaders key call => exact hs.evolves (s.world.keeps_callHeaders (.shared key) call).evolves
  | callDraft key call => exact hs.evolves (s.world.keeps_callDraft (.shared key) call).evolves

end Sound

theorem Reachable.sound {s : Session} (h : s.Reachable) : s.Sound := by
  induction h with
  | fresh hw => exact .ofWorld hw
  | step step _ ih => exact ih.step step

end Session

end RequestAccess
