import RequestAccess.Proofs.Locality

/-!
# Independent renders

Renders of one world whose domains are disjoint do not interfere, in whatever order their steps
come. Each goes as it goes alone. Only the diagnostics are shared: a call site is told once for all
of them.
-/

namespace RequestAccess

/-! ## Several renders in one world -/

/-- Renders that share a world. -/
structure Renders (ι : Type) where
  world : World
  locals : ι → Locals

section Renders

variable {ι : Type} [DecidableEq ι]

namespace Renders

def start (w : World) : Renders ι := { world := w, locals := fun _ => {} }

def session (s : Renders ι) (i : ι) : Session := (s.locals i).inWorld s.world

def after (s : Renders ι) (i : ι) (step : Step) : Renders ι :=
  let after := (s.session i).step step
  { world := after.session.world
    locals := fun j => if j = i then after.session.locals else s.locals j }

/-- Does steps in turn, each on behalf of one of the renders, and notes what it shows. -/
def run (s : Renders ι) : List (ι × Step) → Renders ι × List (ι × List Event × Reply)
  | [] => (s, [])
  | (i, step) :: rest =>
    let o := (s.session i).step step
    let (last, replies) := (s.after i step).run rest
    (last, (i, o.events, o.reply) :: replies)

end Renders

/-- What belongs to one of the renders, in its order. -/
def ofRender {α : Type} (i : ι) (l : List (ι × α)) : List α :=
  l.filterMap fun x => if x.1 = i then some x.2 else none

theorem ofRender_cons {α : Type} (i : ι) (x : ι × α) (l : List (ι × α)) :
    ofRender i (x :: l) = if x.1 = i then x.2 :: ofRender i l else ofRender i l := by
  unfold ofRender
  rw [List.filterMap_cons]
  split <;> split <;> simp_all

/-- What an observer sees of steps, without the reports. -/
def shown (replies : List (List Event × Reply)) : List (List Event × Reply) :=
  replies.map fun x => (Event.own x.1, x.2)

def World.toldTo (w : World) (r : Key .reporter) (c : Callsite) : Prop :=
  (w.reporters.get r).told.contains c = true

/-- A reporter that has told each of its call sites once. -/
structure Reporter.Tidy (r : Reporter) : Prop where
  told : r.told.met.Nodup
  collected (hs : r.sink = .collected) : r.collected.map Diagnostic.callsite = r.told.met.reverse

/-- What renders come to together, beside what each of them comes to alone. -/
structure Renders.Independent (w : World) (D : ι → Domain) (steps : List (ι × Step)) : Prop where
  replies (i : ι) : shown (ofRender i ((start w).run steps).2) =
    shown ((Session.ofWorld w).run (ofRender i steps)).2
  locals (i : ι) : ((start w).run steps).1.locals i =
    ((Session.ofWorld w).run (ofRender i steps)).1.locals
  world (i : ι) : (D i).Agree ((start w).run steps).1.world
    ((Session.ofWorld w).run (ofRender i steps)).1.world
  /-- What is told is what any of them tells alone. -/
  told (r : Key .reporter) (c : Callsite) : ((start w).run steps).1.world.toldTo r c ↔
    w.toldTo r c ∨ ∃ i, ((Session.ofWorld w).run (ofRender i steps)).1.world.toldTo r c
  once (r : Key .reporter) (hr : (w.reporters.get r).Tidy) :
    (((start w).run steps).1.world.reporters.get r).Tidy

end Renders

/-! ## Reports -/

def Sighting.callsite (x : Sighting) : Callsite := ⟨some x.route, x.expression⟩

section Reports

variable {r : Reporter} {w w' : World} {x? : Option Sighting}

theorem Reporter.Tidy.report (h : r.Tidy) (d : Diagnostic) : (r.report d).1.Tidy := by
  obtain ⟨-, hsame⟩ | ⟨hc, hnew⟩ := r.report_cases d
  · rwa [hsame]
  · have hnodup : (d.callsite :: r.told.met).Nodup :=
      List.nodup_cons.mpr ⟨by simpa [Callsites.contains] using hc, h.told⟩
    rw [hnew]
    unfold deliver
    split
    · rename_i hs
      exact ⟨hnodup, fun _ => by simp [h.collected hs]⟩
    · rename_i hs
      exact ⟨hnodup, fun h' => absurd h' hs⟩

theorem Reporter.Tidy.tell (h : r.Tidy) (l : List Diagnostic) : (r.tell l).Tidy := by
  induction l generalizing r with
  | nil => exact h
  | cons d l ih => exact ih (h.report d)

theorem World.Relays.toldTo (hr : w.Relays x? w') (r : Key .reporter) (c : Callsite) :
    w'.toldTo r c ↔ w.toldTo r c ∨ ∃ x, x? = some x ∧ x.reporter = r ∧ x.callsite = c := by
  unfold World.toldTo
  rw [hr.told, Reporter.told_tell]
  refine or_congr_right ?_
  cases x? with
  | none => simp [World.toldOf]
  | some x =>
    by_cases hx : x.reporter = r <;>
      simp [World.toldOf, hx, Sighting.callsite, Diagnostic.callsite, Diagnostic.ofUse]

theorem World.Relays.tidy (hr : w.Relays x? w') {r : Key .reporter}
    (ht : (w.reporters.get r).Tidy) : (w'.reporters.get r).Tidy := by
  rw [hr.told]
  exact ht.tell _

end Reports

/-! ## Renders together -/

section Together

variable {ι : Type} {D : ι → Domain} {w : World} {s : Renders ι} {t : ι → Session}

/-- Sessions apart, of which one has gone on by a step. -/
def oneStepped [DecidableEq ι] (t : ι → Session) (i : ι) (step : Step) : ι → Session :=
  fun j => if j = i then ((t i).step step).session else t j

theorem run_oneStepped [DecidableEq ι] (t : ι → Session) (i j : ι) (step : Step)
    (rest : List (ι × Step)) :
    ((t i).run (ofRender i ((j, step) :: rest))).1 =
      ((oneStepped t j step i).run (ofRender i rest)).1 := by
  rw [ofRender_cons]
  unfold oneStepped
  by_cases hi : j = i
  · subst hi
    rw [if_pos rfl, if_pos rfl]
    rfl
  · rw [if_neg hi, if_neg (Ne.symm hi)]

/-- Renders that have gone together as far as each of them has gone alone. -/
structure Renders.Apart (w : World) (D : ι → Domain) (s : Renders ι) (t : ι → Session) : Prop where
  locals (i : ι) : s.locals i = (t i).locals
  agree (i : ι) : (D i).Agree s.world (t i).world
  owned (i : ι) : (t i).Owned (D i)
  evolves (i : ι) : w.Evolves (t i).world
  told (r : Key .reporter) (c : Callsite) :
    s.world.toldTo r c ↔ w.toldTo r c ∨ ∃ i, (t i).world.toldTo r c
  tidy (r : Key .reporter) (hr : (w.reporters.get r).Tidy) : (s.world.reporters.get r).Tidy

namespace Renders.Apart

theorem start (hw : w.Fresh) (hc : ∀ i, w.ClosedIn (D i)) :
    Apart w D (Renders.start w) fun _ => Session.ofWorld w where
  locals i := rfl
  agree i := .refl w
  owned i := .ofWorld hw (hc i)
  evolves i := .refl w
  told r c := by
    refine (or_iff_left_of_imp ?_).symm
    rintro ⟨-, h⟩
    exact h
  tidy r hr := hr

theorem alone (h : s.Apart w D t) (i : ι) : (s.locals i).inWorld (t i).world = t i := by
  rw [h.locals i]
  rfl

theorem follows (h : s.Apart w D t) {i : ι} {step : Step} (hs : step.In (D i) w) :
    (D i).Follows s.world (t i).world ((s.session i).step step) ((t i).step step) := by
  have hl := (h.owned i).locals
  rw [← h.locals i] at hl
  have hf := (h.agree i).step_follows hl (h.owned i).closed (hs.evolves (h.evolves i))
  rwa [h.alone i] at hf

theorem observed? (h : s.Apart w D t) (i : ι) (step : Step) :
    (s.session i).observed? step = (t i).observed? step := by
  have hl := (h.owned i).locals
  rw [← h.locals i] at hl
  have ho := (h.agree i).observed? hl (h.owned i).closed step
  rwa [h.alone i] at ho

variable [DecidableEq ι]

theorem told_after (h : s.Apart w D t) (i : ι) (step : Step) (r : Key .reporter) (c : Callsite) :
    (s.after i step).world.toldTo r c ↔
      w.toldTo r c ∨ ∃ j, (oneStepped t i step j).world.toldTo r c := by
  have hmixed : (s.after i step).world.toldTo r c ↔ s.world.toldTo r c ∨ _ :=
    ((s.session i).relays_step step).toldTo r c
  have halone := ((t i).relays_step step).toldTo r c
  rw [hmixed, h.observed? i step, h.told]
  unfold oneStepped
  constructor
  · rintro ((hw | ⟨j, hj⟩) | hx)
    · exact .inl hw
    · refine .inr ⟨j, ?_⟩
      split
      · rename_i hji
        exact halone.mpr (.inl (hji ▸ hj))
      · exact hj
    · refine .inr ⟨i, ?_⟩
      rw [if_pos rfl]
      exact halone.mpr (.inr hx)
  · rintro (hw | ⟨j, hj⟩)
    · exact .inl (.inl hw)
    · split at hj
      · rcases halone.mp hj with hold | hx
        · exact .inl (.inr ⟨i, hold⟩)
        · exact .inr hx
      · exact .inl (.inr ⟨j, hj⟩)

theorem after (h : s.Apart w D t) (hd : ∀ i j, i ≠ j → (D i).Disjoint (D j)) {i : ι} {step : Step}
    (hs : step.In (D i) w) :
    (s.after i step).Apart w D (oneStepped t i step) := by
  have hf := h.follows hs
  unfold oneStepped
  -- Render `i` has done the step alone too. The others have not moved, and their domains were
  -- spared.
  refine ⟨fun j => ?_, fun j => ?_, fun j => ?_, fun j => ?_, h.told_after i step, fun r hr => ?_⟩
  · simp only [Renders.after]
    split
    · exact hf.locals
    · exact h.locals j
  · split
    · rename_i hj
      exact hj ▸ hf.moves.agree
    · rename_i hj
      exact (hf.moves.frame.of_disjoint (hd i j (Ne.symm hj))).symm.trans (h.agree j)
  · split
    · rename_i hj
      exact hj ▸ (h.owned i).step (hs.evolves (h.evolves i))
    · exact h.owned j
  · split
    · exact (h.evolves i).trans ((t i).step_evolves step)
    · exact h.evolves j
  · exact ((s.session i).relays_step step).tidy (h.tidy r hr)

end Renders.Apart

variable [DecidableEq ι]

/-- Together the renders go on as each of them goes on alone. By induction on the steps, with
`Apart` as what each step keeps. -/
theorem Renders.Apart.run (hd : ∀ i j, i ≠ j → (D i).Disjoint (D j)) {steps : List (ι × Step)}
    (hs : ∀ x ∈ steps, x.2.In (D x.1) w) (h : s.Apart w D t) :
    (s.run steps).1.Apart w D (fun i => ((t i).run (ofRender i steps)).1) ∧
      ∀ i, shown (ofRender i (s.run steps).2) = shown ((t i).run (ofRender i steps)).2 := by
  induction steps generalizing s t with
  | nil => exact ⟨h, fun _ => rfl⟩
  | cons x rest ih =>
    obtain ⟨j, step⟩ := x
    have hstep : step.In (D j) w := hs (j, step) List.mem_cons_self
    have hf := h.follows hstep
    obtain ⟨hlast, hreplies⟩ := ih (fun x hx => hs x (List.mem_cons_of_mem _ hx)) (h.after hd hstep)
    refine ⟨?_, fun i => ?_⟩
    · simp only [run_oneStepped]
      exact hlast
    · have hrest := hreplies i
      unfold oneStepped at hrest
      change shown (ofRender i ((j, _, _) :: ((s.after j step).run rest).2)) = _
      rw [ofRender_cons, ofRender_cons]
      by_cases hi : j = i
      · subst hi
        rw [if_pos rfl] at hrest
        rw [if_pos rfl, if_pos rfl]
        change (Event.own _, _) :: shown _ = (Event.own _, _) :: shown _
        rw [hf.events, hf.reply, hrest]
      · rw [if_neg (Ne.symm hi)] at hrest
        rw [if_neg hi, if_neg hi]
        exact hrest

end Together

/-! ## The law -/

/-- Renders whose domains are disjoint go together as each of them goes alone. They share the
reporters only, which tell each call site once. -/
theorem renders_independent {ι : Type} [DecidableEq ι] {w : World} (hw : w.Fresh)
    {D : ι → Domain} (hd : ∀ i j, i ≠ j → (D i).Disjoint (D j)) (hc : ∀ i, w.ClosedIn (D i))
    {steps : List (ι × Step)} (hs : ∀ x ∈ steps, x.2.In (D x.1) w) :
    Renders.Independent w D steps := by
  obtain ⟨hlast, hreplies⟩ := (Renders.Apart.start hw hc).run hd hs
  exact ⟨hreplies, hlast.locals, hlast.agree, hlast.told, hlast.tidy⟩

/-- Two requests of one route use their cookies in the same way, and the use is told once. -/
theorem renders_independent_of_one_route :
    let live (n : Nat) : LiveRequest :=
      { cookies := ⟨n⟩, mutableCookies := ⟨n + 2⟩, headers := ⟨n⟩ }
    let w : World :=
      { works := ⟨[{ route := "/" }, { route := "/" }]⟩
        units := ⟨[{ variant := .request (live 0) }, { variant := .request (live 1) }]⟩
        coordinators := ⟨[{ config := { mode := .development }, reporter := ⟨0⟩ }]⟩ }
    let D (i : Fin 2) : Domain := ⟨fun k => k.index % 2 = i⟩
    let fetch (n : Nat) : Step := .fetch .cookies ⟨0⟩ (some ⟨n⟩) (some ⟨n⟩) (some "c")
    let size : Step := .callHandle "c" (.cookies .size)
    let steps : List (Fin 2 × Step) := [(0, fetch 0), (1, fetch 1), (1, size), (0, size)]
    let reported (w : World) : Nat := (w.reporters.get ⟨0⟩).reported
    Renders.Independent w D steps ∧ reported ((Renders.start w).run steps).1.world = 1 ∧
      ∀ i, reported ((Session.ofWorld w).run (ofRender i steps)).1.world = 1 := by
  intro live w D fetch size steps reported
  have hw : w.Fresh := by
    refine fresh_of_rows w ?_ ?_ rfl
    · intro work hwork
      simp only [w, List.mem_cons, List.not_mem_nil, or_false, or_self] at hwork
      rw [hwork]
      exact ⟨rfl, rfl, rfl⟩
    · intro u hu
      simp only [w, List.mem_cons, List.not_mem_nil, or_false] at hu
      rcases hu with rfl | rfl <;> exact ⟨rfl, rfl⟩
  have hd (i j : Fin 2) (hij : i ≠ j) : (D i).Disjoint (D j) := by
    intro kind k hi hj
    exact hij (Fin.ext (hi.symm.trans hj))
  have hc (i : Fin 2) : w.ClosedIn (D i) := by
    have isOwn (n : Nat) (hn : n % 2 = i) : (Variant.request (live n)).In (D i) :=
      ⟨hn, (Nat.add_mod_right n 2).trans hn, hn⟩
    refine ⟨fun k hk => ?_, fun k _ response hr => by cases hr⟩
    match k, hk with
    | ⟨0⟩, hk => exact isOwn 0 hk
    | ⟨1⟩, hk => exact isOwn 1 hk
    | ⟨n + 2⟩, _ => trivial
  have hs : ∀ x ∈ steps, x.2.In (D x.1) w := by
    have ofOwn (i : Fin 2) : (fetch i).In (D i) w := by
      have hi : i.val % 2 = i := Nat.mod_eq_of_lt i.isLt
      refine ⟨?_, ?_, fun _ _ _ _ hr => by cases hr⟩
      · rintro _ ⟨⟩
        exact hi
      · rintro _ ⟨⟩
        exact hi
    intro x hx
    simp only [steps, List.mem_cons, List.not_mem_nil, or_false] at hx
    rcases hx with rfl | rfl | rfl | rfl
    · exact ofOwn 0
    · exact ofOwn 1
    · trivial
    · trivial
  exact ⟨renders_independent hw hd hc hs, by decide +kernel, by decide +kernel⟩

end RequestAccess
