import RequestAccess.Proofs.Aftermath
import RequestAccess.Proofs.Decision
import RequestAccess.Proofs.Offer

/-!
# Where a handle was made

A handle is made by one fetch, in the scope of that fetch, and is the same from then on. Later
fetches give it again.
-/

namespace RequestAccess

namespace Session

/-- A value that someone has: it is kept under a name, or a handle that is held has it. -/
inductive Reads (s : Session) (v : Value) : Prop where
  | value (name : String) (hn : s.values.get? name = some v)
  | handle (h : Handle) (hh : s.Holds h) (hv : h.state = .resolved v)

/-! ## What is kept -/

/-- What a session keeps under its names comes from another one, or is a handle that was given. -/
structure Inherits (s : Session) (given? : Option Handle) (t : Session) : Prop where
  handles (name : String) (h : Handle) (hn : t.handles.get? name = some h) :
    s.Holds h ∨ given? = some h
  futures (name : String) (f : Future) (hn : t.futures.get? name = some f) : s.Holds f.handle
  values (name : String) (v : Value) (hn : t.values.get? name = some v) : s.Reads v

namespace Inherits

variable {s t : Session} {given? : Option Handle}

theorem beside {t' : Session} (hi : s.Inherits given? t) (hh : t'.handles = t.handles)
    (hf : t'.futures = t.futures) (hv : t'.values = t.values) : s.Inherits given? t' where
  handles name h hn := hi.handles name h (hh ▸ hn)
  futures name f hn := hi.futures name f (hf ▸ hn)
  values name v hn := hi.values name v (hv ▸ hn)

theorem refl (s : Session) (given? : Option Handle) : s.Inherits given? s where
  handles name _ hn := .inl (.kept name hn)
  futures name f hn := .awaited name f hn rfl
  values name _ hn := .value name hn

theorem keepHandle (hi : s.Inherits given? t) (name : Option String) {h : Handle}
    (hh : s.Holds h ∨ given? = some h) : s.Inherits given? (t.keepHandle name h) := by
  cases name with
  | none => exact hi
  | some name =>
    refine ⟨fun other x hx => ?_, hi.futures, hi.values⟩
    rcases NameMap.found_insert hx with rfl | hold
    · exact hh
    · exact hi.handles other x hold

theorem keepValue (hi : s.Inherits given? t) (name : Option String) {v : Value} (hv : s.Reads v) :
    s.Inherits given? (t.keepValue name v) := by
  cases name with
  | none => exact hi
  | some name =>
    refine ⟨hi.handles, hi.futures, fun other x hx => ?_⟩
    rcases NameMap.found_insert hx with rfl | hold
    · exact hv
    · exact hi.values other x hold

theorem keepFuture (hi : s.Inherits given? t) (name : String) {f : Future}
    (hf : s.Holds f.handle) :
    s.Inherits given? { t with futures := t.futures.insert name f } := by
  refine ⟨hi.handles, fun other x hx => ?_, hi.values⟩
  rcases NameMap.found_insert hx with rfl | hold
  · exact hf
  · exact hi.futures other x hold

theorem forget (hi : s.Inherits given? t) (name : String) : s.Inherits given? (t.forget name) := by
  unfold Session.forget
  split
  · exact ⟨hi.handles, fun other f hf => hi.futures other f (NameMap.found_erase hf), hi.values⟩
  · exact hi

theorem asked (hi : s.Inherits given? t) (saveAs : Option String)
    {result : Option (Except AccessError Value)} (hr : ∀ v, result = some (.ok v) → s.Reads v) :
    s.Inherits given? (t.asked saveAs result).session := by
  unfold Session.asked
  split
  · exact hi
  · exact hi.keepValue saveAs (hr _ rfl)
  · exact hi

end Inherits

variable {s : Session} {step : Step} {h : Handle}

theorem poll_value {w : World} {f : Future} {v : Value} (h : (w.poll f).2.2 = some (.ok v)) :
    f.handle.state = .resolved v := by
  unfold World.poll at h
  cases hs : f.handle.state with
  | resolved x =>
    simp only [hs, Option.some.injEq, Except.ok.injEq] at h
    rw [h]
  | pending r key route => simp [hs] at h

theorem inherits_fetch (s : Session) (r : Resource) (c : Key .coordinator)
    (work : Option (Key .work)) (unit : Option (Key .unit)) (saveAs : Option String) :
    s.Inherits (s.fetch r c work unit saveAs).reply.handle?
      (s.fetch r c work unit saveAs).session := by
  have hi {given? : Option Handle} : s.Inherits given?
      { s with world := (s.world.fetch c (s.world.scope? work unit) r).world } :=
    (Inherits.refl s given?).beside rfl rfl rfl
  unfold fetch
  cases hr : (s.world.fetch c (s.world.scope? work unit) r).result with
  | ok h =>
    simp only [hr]
    exact hi.keepHandle saveAs (.inr rfl)
  | error e =>
    simp only [hr]
    exact hi

theorem inherits_now {given? : Option Handle} (hh : s.Holds h) (saveAs : Option String) :
    s.Inherits given? (s.now h saveAs).session := by
  have hi : s.Inherits given? { s with
      world := (s.world.pollOnce h s.nextWaker).1, nextWaker := s.nextWaker + 1 } :=
    (Inherits.refl s given?).beside rfl rfl rfl
  exact hi.asked saveAs fun v hv => .handle h hh (poll_value hv)

theorem inherits_start {given? : Option Handle} (hh : s.Holds h) (future : String) :
    s.Inherits given? (s.start h future).session :=
  (((Inherits.refl s _).forget future).keepFuture future hh).beside rfl rfl rfl

theorem inherits_poll {given? : Option Handle} {name : String} {f : Future}
    (hn : s.futures.get? name = some f) (saveAs : Option String) :
    s.Inherits given? (s.poll name f saveAs).session := by
  have hf : s.Holds (s.world.poll f).2.1.handle := .awaited name f hn (s.world.poll_handle f).symm
  have hv (v : Value) (hr : (s.world.poll f).2.2 = some (.ok v)) : s.Reads v :=
    .handle f.handle (.awaited name f hn rfl) (poll_value hr)
  have hi : s.Inherits given? { s with
      world := (s.world.poll f).1, futures := s.futures.insert name (s.world.poll f).2.1 } :=
    ((Inherits.refl s given?).keepFuture name hf).beside rfl rfl rfl
  simp only [Session.poll]
  split
  · exact (hi.forget name).asked saveAs hv
  · exact hi.asked saveAs hv

theorem inherits_step (s : Session) (step : Step) :
    s.Inherits (Moment.gives? ⟨s, step⟩) (s.step step).session := by
  have same {given? : Option Handle} {t : Session} (hh : t.handles = s.handles)
      (hf : t.futures = s.futures) (hv : t.values = s.values) : s.Inherits given? t :=
    (Inherits.refl s given?).beside hh hf hv
  have withHandle {given? : Option Handle} {name : String} {f : Handle → After}
      (hf : ∀ h, s.Holds h → s.Inherits given? (f h).session) :
      s.Inherits given? (s.withHandle name f).session :=
    withHandle_of (P := fun a => s.Inherits given? a.session) (fun h hn => hf h (.kept name hn))
      (.refl s given?)
  cases step with
  | fetch r c work unit saveAs => exact s.inherits_fetch r c work unit saveAs
  | callHandle name call => exact withHandle fun h _ => same rfl rfl rfl
  | callValue name call =>
    simp only [Session.step]
    split
    · exact same rfl rfl rfl
    · exact .refl s _
  | now name saveAs => exact withHandle fun h hh => inherits_now hh saveAs
  | start name future => exact withHandle fun h hh => inherits_start hh future
  | poll name saveAs =>
    simp only [Session.step]
    split
    · rename_i f hn
      exact inherits_poll hn saveAs
    · exact .refl s _
  | clone name saveAs =>
    exact withHandle fun h hh => (Inherits.refl s _).keepHandle (some saveAs) (.inl hh)
  | dropHandle name =>
    have hi := Inherits.refl s (Moment.gives? ⟨s, .dropHandle name⟩)
    exact ⟨fun other x hx => hi.handles other x (NameMap.found_erase hx), hi.futures, hi.values⟩
  | dropValue name =>
    have hi := Inherits.refl s (Moment.gives? ⟨s, .dropValue name⟩)
    exact ⟨hi.handles, hi.futures, fun other x hx => hi.values other x (NameMap.found_erase hx)⟩
  | dropFuture name => exact (Inherits.refl s _).forget name
  | abort _ | dropWork _ | dropUnit _ | callJar _ _ | callHeaders _ _ | callDraft _ _ =>
    exact same rfl rfl rfl

/-! ## What is remembered -/

theorem step_memory (hm : Moment.gives? ⟨s, step⟩ = none) (k : Key .unit) :
    ((s.step step).session.world.units.get k).handles = (s.world.units.get k).handles := by
  cases s.effect step with
  | refused a e events w ha hr h =>
    rw [h]
    exact hr.spares.memory k
  | given b r h ha hg hgives => simp [hm] at hgives
  | used u hu hd h =>
    rw [h]
    exact (World.keeps_use hd).handles k
  | listened h => exact ((s.world.keeps_notePolled _).trans h.keeps).handles k
  | aborted key h =>
    subst h
    exact (s.world.keeps_abortSignal key).handles k
  | workDropped key h =>
    subst h
    rfl
  | unitDropped key h =>
    subst h
    simp only [Session.step, World.dropUnit, Table.get_modify]
    split
    · rename_i hk
      rw [hk]
    · rfl
  | hostJar key call h | hostHeaders key call h | hostDraft key call h =>
    subst h
    rw [host_frame rfl]

theorem holds_step (hh : (s.step step).session.Holds h) :
    s.Holds h ∨ Moment.gives? ⟨s, step⟩ = some h := by
  cases hh with
  | kept name hn => exact (s.inherits_step step).handles name h hn
  | awaited name f hn hf =>
    subst hf
    exact .inl ((s.inherits_step step).futures name f hn)
  | remembered k r key hk =>
    cases hm : Moment.gives? ⟨s, step⟩ with
    | none =>
      rw [step_memory hm] at hk
      exact .inl (.remembered k r key hk)
    | some x =>
      obtain ⟨b, r', -, hg, -⟩ := Moment.gives_cases hm
      rcases hg.memory hk with hold | hnew
      · exact .inl (.remembered k r key hold)
      · exact .inr (congrArg some hnew.symm)

theorem reads_step {v : Value} (hr : (s.step step).session.Reads v) :
    s.Reads v ∨ ∃ b r h, Moment.Makes ⟨s, step⟩ b r h ∧ h.state = .resolved v := by
  cases hr with
  | value name hn => exact .inl ((s.inherits_step step).values name v hn)
  | handle h hh hv =>
    rcases holds_step hh with hold | hg
    · exact .inl (.handle h hold hv)
    · obtain ⟨b, r, -, -, ⟨key, hk⟩ | hm⟩ := Moment.gives_cases hg
      · exact .inl (.handle h (.remembered b.unit r key hk) hv)
      · exact .inr ⟨b, r, h, hm, hv⟩

theorem not_holds_of_fresh {w : World} (hw : w.Fresh) : ¬ (ofWorld w).Holds h := by
  intro hh
  cases hh with
  | kept name hn => cases hn
  | awaited name f hn hf => cases hn
  | remembered k r key hk => simp [ofWorld, Registry.get?, (hw.unit k).1] at hk

/-- What holds of every value that a handle is made with, and goes on to hold while works and units
change, holds of every value in every session. -/
theorem Reachable.reads {P : World → Value → Prop}
    (hmade : ∀ w b r h v, World.Makes w b r h → h.state = .resolved v → P w v)
    (hkept : ∀ w w' v, w.Evolves w' → P w v → P w' v) (hs : s.Reachable) {v : Value}
    (hv : s.Reads v) : P s.world v := by
  induction hs with
  | fresh hw =>
    cases hv with
    | value name hn => cases hn
    | handle h hh hv => exact absurd hh (not_holds_of_fresh hw)
  | @step s step _ ih =>
    refine hkept _ _ _ (s.step_evolves step) ?_
    rcases reads_step hv with hold | ⟨b, r, h, hm, hh⟩
    · exact ih hold
    · exact hmade _ b r h v hm.made hh

end Session

/-! ## Runs -/

/-- The step of a run that gave a handle first. -/
def origin? (run : List Moment) (id : HandleId) : Option Moment :=
  run.find? fun m => m.gives?.any fun h => h.id = id

/-- A session with the run that has led to it. Every handle that was given was made by the step that
gave it first. -/
structure Session.Recorded (run : List Moment) (s : Session) : Prop where
  sound : s.Sound
  past (m : Moment) (hm : m ∈ run) : m.before.Sound
  known (m : Moment) (hm : m ∈ run) (h : Handle) (hg : m.gives? = some h) : s.world.Knows h
  held (h : Handle) (hh : s.Holds h) : ∃ m ∈ run, m.gives? = some h
  made (m : Moment) (hm : m ∈ run) (h : Handle) (hg : m.gives? = some h) :
    ∃ o b r, origin? run h.id = some o ∧ o.Makes b r h

namespace World

theorem Makes.id_ne {w : World} {b : Binding} {r : Resource} {h other : Handle} (hw : w.Fits)
    (hm : w.Makes b r h) (ho : w.Knows other) : other.id ≠ h.id := by
  cases hm with
  | blank hf => exact ho.id_ne_detached hw
  | remembered key state hf hoffer hn =>
    cases ho with
    | memoized unit r' key' hk => exact hw.fresh hk
    | detached b' r' serial hf' hs hd =>
      subst hd
      intro same
      cases same

end World

namespace Session

variable {s : Session} {run : List Moment}

theorem Recorded.ofWorld {w : World} (hw : w.Fresh) : Recorded [] (Session.ofWorld w) where
  sound := .ofWorld hw
  past m hm := by cases hm
  known m hm := by cases hm
  held h hh := absurd hh (not_holds_of_fresh hw)
  made m hm := by cases hm

theorem Recorded.origin (hs : s.Recorded run) {h : Handle} (hh : s.Holds h) :
    ∃ o b r, origin? run h.id = some o ∧ o.Makes b r h := by
  obtain ⟨m, hm, hg⟩ := hs.held h hh
  exact hs.made m hm h hg

theorem Recorded.step (hs : s.Recorded run) (step : Step) :
    Recorded (run ++ [⟨s, step⟩]) (s.step step).session := by
  have later {h : Handle} (hold : ∃ o b r, origin? run h.id = some o ∧ o.Makes b r h) :
      ∃ o b r, origin? (run ++ [⟨s, step⟩]) h.id = some o ∧ o.Makes b r h := by
    obtain ⟨o, b, r, ho, hm⟩ := hold
    refine ⟨o, b, r, ?_, hm⟩
    unfold origin? at ho ⊢
    rw [List.find?_append, ho]
    rfl
  refine ⟨hs.sound.step step, ?_, ?_, ?_, ?_⟩
  · intro m hm
    rcases List.mem_append.mp hm with hm | hm
    · exact hs.past m hm
    · rw [List.mem_singleton.mp hm]
      exact hs.sound
  · intro m hm h hg
    rcases List.mem_append.mp hm with hm | hm
    · exact (hs.known m hm h hg).evolves (s.step_evolves step)
    · rw [List.mem_singleton.mp hm] at hg
      obtain ⟨b, r, -, hgiven, -⟩ := Moment.gives_cases hg
      exact hgiven.knows
  · intro h hh
    rcases holds_step hh with hold | hg
    · obtain ⟨m, hm, hg⟩ := hs.held h hold
      exact ⟨m, List.mem_append_left _ hm, hg⟩
    · exact ⟨_, List.mem_append_right _ (List.mem_singleton.mpr rfl), hg⟩
  · intro m hm h hg
    rcases List.mem_append.mp hm with hm | hm
    · exact later (hs.made m hm h hg)
    · rw [List.mem_singleton.mp hm] at hg
      obtain ⟨b, r, -, -, ⟨key, hk⟩ | hmakes⟩ := Moment.gives_cases hg
      · exact later (hs.origin (.remembered b.unit r key hk))
      · refine ⟨⟨s, step⟩, b, r, ?_, hmakes⟩
        -- No step before has given a handle of this identity.
        have hnone : origin? run h.id = none := by
          simp only [origin?, List.find?_eq_none]
          intro old hold hany
          obtain ⟨x, hx, hid⟩ := (Option.any_eq_true _ _).mp hany
          exact hmakes.made.id_ne hs.sound.fits (hs.known old hold x hx) (of_decide_eq_true hid)
        unfold origin? at hnone ⊢
        rw [List.find?_append, hnone]
        simp [hmakes.gives]

theorem run_with_moments {P : List Moment → Session → Prop}
    (hstep : ∀ run s step, P run s → P (run ++ [⟨s, step⟩]) (s.step step).session) (s : Session)
    (run : List Moment) (steps : List Step) (h : P run s) :
    P (run ++ s.moments steps) (s.run steps).1 := by
  induction steps generalizing s run with
  | nil => simpa [moments, Session.run] using h
  | cons step rest ih =>
    have hrest := ih _ _ (hstep run s step h)
    rwa [List.append_assoc] at hrest

theorem run_with_moments_at {P : List Moment → Session → Prop}
    (hstep : ∀ run s step, P run s → P (run ++ [⟨s, step⟩]) (s.step step).session) {s : Session}
    {past earlier later : List Moment} {m : Moment} {steps : List Step} (h : P past s)
    (hrun : s.moments steps = earlier ++ m :: later) : P (past ++ earlier) m.before := by
  induction earlier generalizing s past steps with
  | nil =>
    cases steps with
    | nil => cases hrun
    | cons step rest =>
      cases hrun
      rwa [List.append_nil]
  | cons x earlier ih =>
    cases steps with
    | nil => cases hrun
    | cons step rest =>
      obtain ⟨rfl, hrest⟩ := List.cons.inj hrun
      have hafter := ih (hstep past s step h) hrest
      rwa [List.append_assoc] at hafter

theorem recorded_run {w : World} (hw : w.Fresh) (steps : List Step) :
    Recorded ((Session.ofWorld w).moments steps) ((Session.ofWorld w).run steps).1 := by
  have h := run_with_moments (P := Recorded) (fun _ _ step h => h.step step) (Session.ofWorld w) []
    steps (.ofWorld hw)
  rwa [List.nil_append] at h

end Session

end RequestAccess
