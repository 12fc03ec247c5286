import RequestAccess.Proofs.Origin
import RequestAccess.Proofs.Reports

/-!
# What guards tell

A guard tells the calls on its handle that are made before anyone has asked for the value. What was
told is determined by the run: which handles were made where, who was asked, and what was refused.
-/

namespace RequestAccess

/-! ## Looking back -/

/-- Goes through a list and looks at each element with all that was before it. -/
def filterMapAfter {α β : Type} (f : List α → α → Option β) : List α → List α → List β
  | _, [] => []
  | past, a :: rest => (f past a).toList ++ filterMapAfter f (past ++ [a]) rest

theorem filterMapAfter_snoc {α β : Type} (f : List α → α → Option β) (past l : List α) (a : α) :
    filterMapAfter f past (l ++ [a]) = filterMapAfter f past l ++ (f (past ++ l) a).toList := by
  induction l generalizing past with
  | nil => simp [filterMapAfter]
  | cons x rest ih => simp [filterMapAfter, ih]

/-! ## What is observed -/

/-- Whether a fetch in a scope guards the handle that it makes. -/
def World.guards (w : World) (b : Binding) : Bool :=
  let work := w.works.get b.work
  (w.units.get b.unit).variant.phase = .request &&
    (w.coordinators.get b.coordinator).config.devDiagnostics && !work.forceStatic && !work.prefetch

/-- An access that a guard observes. -/
structure Sighting where
  reporter : Key .reporter
  unit : Key .unit
  route : String
  expression : String
  api : String

namespace Moment

def called? (m : Moment) : Option (Handle × Call) :=
  match m.step with
  | .callHandle name call => (m.before.handles.get? name).map (·, call)
  | _ => none

def polls (m : Moment) (id : HandleId) : Bool :=
  (m.before.polled? m.step).any fun h => h.id = id

/-- Whether the access that the step is was refused where it was decided. -/
def isRefused (m : Moment) : Bool :=
  m.attempt?.isSome &&
    match m.reply with
    | .failed _ => true
    | _ => false

/-- What is observed of a step after a run: a call on a guarded handle no future of which was polled
before. The scope in which the handle was made says who is told, and of which route. -/
def sighting? (past : List Moment) (m : Moment) : Option Sighting :=
  m.called?.bind fun (h, call) =>
    (origin? past h.id).bind fun o =>
      o.attempt?.bind fun a =>
        let w := o.before.world
        if w.guards a.binding && !past.any (·.polls h.id) && !m.isRefused then
          some {
            reporter := (w.coordinators.get a.binding.coordinator).reporter
            unit := a.unit
            route := (w.works.get a.work).route
            expression := call.expression
            api := a.expression }
        else none

end Moment

/-- What guards see in a run, one after the other. -/
def sightings (run : List Moment) : List Sighting :=
  filterMapAfter (fun past m => m.sighting? past) [] run

/-! ## What is told -/

def Variant.dryRun? : Variant → Option DryRun
  | .request q => some q.dryRun
  | _ => none

def World.startsDry (w : World) (k : Key .unit) : Bool :=
  (w.units.get k).variant.dryRun? = some .active

/-- What is said of an access. -/
def Sighting.message (x : Sighting) : String :=
  "Route \"" ++ x.route ++ "\" used `" ++ x.expression ++ "`. `" ++ x.api ++
    "()` should be awaited before using its value."

/-- The diagnostic of an access after others. The first one on a unit ends its dry run. -/
def Sighting.diagnostic (w : World) (earlier : List Sighting) (x : Sighting) : Diagnostic where
  route := some x.route
  expression := x.expression
  api := x.api
  escalated := w.startsDry x.unit && !earlier.any fun y => y.unit = x.unit
  message := x.message

/-- The diagnostics of all that the guards of a reporter have seen. -/
def diagnostics (w : World) (r : Key .reporter) (l : List Sighting) : List Diagnostic :=
  filterMapAfter
    (fun earlier x => if x.reporter = r then some (x.diagnostic w earlier) else none) [] l

/-- The first diagnostic of each call site. -/
def firsts (l : List Diagnostic) : List Diagnostic :=
  filterMapAfter
    (fun earlier d => if earlier.any fun e => e.callsite = d.callsite then none else some d) [] l

/-- What guards have told after a run from a world. -/
structure Session.Tells (w : World) (run : List Moment) (s : Session) : Prop where
  /-- A reporter that starts empty has collected the first diagnostic of each call site. -/
  collected (r : Key .reporter) (hr : w.reporters.get r = {}) :
    (s.world.reporters.get r).collected = firsts (diagnostics w r (sightings run))
  reported (r : Key .reporter) (hr : w.reporters.get r = {}) :
    (s.world.reporters.get r).reported = (s.world.reporters.get r).collected.length
  escalated (k : Key .unit) :
    (s.world.units.get k).variant.dryRun? = some .escalated ↔
      w.startsDry k = true ∧ ∃ x ∈ sightings run, x.unit = k
  /-- A handle is guarded as the fetch that made it says. -/
  guarded (m : Moment) (hm : m ∈ run) (h : Handle) (hg : m.gives? = some h) :
    ∃ o b r, origin? run h.id = some o ∧ o.attempt? = some (.ofFetch b r) ∧
      h.isGuarded = o.before.world.guards b

theorem Sighting.message_eq (x : Sighting) :
    x.message = Diagnostic.messageFor (some x.route) x.expression x.api := by
  have hopening : "\" used `" = "\" " ++ "used `" := rfl
  simp only [message, Diagnostic.messageFor, hopening, String.append_assoc]

theorem Sighting.diagnostic_eq (w : World) (earlier : List Sighting) (x : Sighting) :
    x.diagnostic w earlier = .ofUse (some x.route) x.expression x.api
      (w.startsDry x.unit && !earlier.any fun y => y.unit = x.unit) := by
  simp only [diagnostic, message_eq, Diagnostic.ofUse]

/-! ## Reporters -/

/-- A reporter to which some diagnostics have come. -/
structure Reporter.Follows (r : Reporter) (l : List Diagnostic) : Prop where
  sink : r.sink = .collected
  told (c : Callsite) : r.told.contains c = l.any fun d => d.callsite = c
  collected : r.collected = firsts l
  size : r.told.size = r.collected.length

theorem firsts_snoc (l : List Diagnostic) (d : Diagnostic) :
    firsts (l ++ [d]) =
      firsts l ++ if l.any fun e => e.callsite = d.callsite then [] else [d] := by
  rw [firsts, filterMapAfter_snoc]
  congr 1
  simp only [List.nil_append]
  split <;> rfl

theorem Reporter.Follows.report {r : Reporter} {l : List Diagnostic} (h : r.Follows l)
    (d : Diagnostic) : (r.report d).1.Follows (l ++ [d]) := by
  have told (c : Callsite) : (r.report d).1.told.contains c =
      (l ++ [d]).any fun e => e.callsite = c := by
    rw [Bool.eq_iff_iff, told_report, h.told]
    simp
  obtain ⟨hc, hsame⟩ | ⟨hc, hnew⟩ := r.report_cases d
  · refine ⟨by rw [hsame, h.sink], told, ?_, by rw [hsame, h.size]⟩
    rw [hsame, firsts_snoc, ← h.told, hc, h.collected]
    exact (List.append_nil _).symm
  · simp only [deliver, h.sink] at hnew
    refine ⟨by rw [hnew], told, ?_, ?_⟩
    · rw [hnew, firsts_snoc, ← h.told, hc, ← h.collected]
      rfl
    · have hsize := h.size
      rw [hnew]
      simp only [Callsites.size, List.length_cons, List.length_append, List.length_nil] at hsize ⊢
      rw [hsize]

namespace World

variable {w : World} {b : Binding} {r : Resource} {h : Handle}

/-! ## Guards -/

theorem Makes.guard (hm : w.Makes b r h) :
    h.guard? =
      if w.guards b then
        some {
          reporter := (w.coordinators.get b.coordinator).reporter
          route := (w.works.get b.work).route
          unit := b.unit }
      else none := by
  cases hm with
  | blank hf => simp [guards, hf]
  | remembered key state hf ho hn =>
    unfold guardOf? guards
    cases hv : (w.units.get b.unit).variant <;> simp [Variant.phase, guardFor, hf]

theorem Makes.resolved (hm : w.Makes b r h) (hg : w.guards b = true) :
    ∃ v, h.state = .resolved v := by
  cases hm with
  | blank hf => exact ⟨_, rfl⟩
  | remembered key state hf ho hn =>
    cases ho with
    | draft | cookies _ _ | headers _ _ => exact ⟨_, rfl⟩
    | waiting r p hr hp =>
      unfold guards at hg
      cases hv : (w.units.get b.unit).variant with
      | request q => simp [hv, Variant.deferring?] at hp
      | _ => simp [hv, Variant.phase] at hg

theorem Knows.eq_of_guarded {other : Handle} (hw : w.Fits) (hh : w.Knows h) (ho : w.Knows other)
    (hid : other.id = h.id) (hg : h.isGuarded = true) : other = h := by
  cases hh with
  | detached b r serial hf hs hd =>
    subst hd
    cases hg
  | memoized unit r key hk =>
    cases ho with
    | detached b r serial hf hs hd =>
      subst hd
      obtain ⟨serial', hmade⟩ := (hw.remembered unit _ key h hk).id
      cases hid.trans hmade
    | memoized unit' r' key' hk' => exact (hw.eq_of_id hk' hk hid).2.2

/-! ## Dry runs -/

theorem dryRun_escalate (w : World) (unit k : Key .unit) :
    ((w.escalate unit).1.units.get k).variant.dryRun? =
      (w.units.get k).variant.dryRun?.map fun d => if k = unit then d.escalate.1 else d := by
  rw [units_escalate]
  split
  · rename_i hk
    rw [hk]
    cases (w.units.get unit).variant <;> rfl
  · cases (w.units.get k).variant <;> rfl

theorem escalate_ended (w : World) (unit : Key .unit) :
    (w.escalate unit).2 = ((w.units.get unit).variant.dryRun? = some .active : Bool) := by
  simp only [escalate]
  cases (w.units.get unit).variant with
  | request q => cases hd : q.dryRun <;> simp [Variant.dryRun?, hd, DryRun.escalate]
  | _ => rfl

/-- A change of which no guard tells. -/
structure Hushed (w w' : World) : Prop where
  reporters : w'.reporters = w.reporters
  dryRun (k : Key .unit) : (w'.units.get k).variant.dryRun? = (w.units.get k).variant.dryRun?

namespace Hushed

variable {w' w'' : World}

theorem beside (hr : w'.reporters = w.reporters) (hu : w'.units = w.units) : w.Hushed w' :=
  ⟨hr, fun _ => by rw [hu]⟩

theorem trans (h : w.Hushed w') (h' : w'.Hushed w'') : w.Hushed w'' :=
  ⟨h'.reporters.trans h.reporters, fun k => (h'.dryRun k).trans (h.dryRun k)⟩

end Hushed

theorem hushed_markDynamic (w : World) (unit : Key .unit) : w.Hushed (w.markDynamic unit) where
  reporters := rfl
  dryRun := by
    refine Table.forall_set (P := fun j (u : WorkUnit) =>
      u.variant.dryRun? = (w.units.get j).variant.dryRun?) ?_ fun _ => rfl
    dsimp only
    cases (w.units.get unit).variant <;> rfl

theorem hushed_memoize (w : World) (unit : Key .unit) (r : Resource) (key : MemoKey)
    (state : HandleState) (guard? : Option Guard) :
    w.Hushed (w.memoize unit r key state guard?).1 := by
  unfold memoize
  cases hk : (w.units.get unit).handles.get? (r, key) with
  | some h =>
    simp only [hk]
    exact .beside rfl rfl
  | none =>
    simp only [hk]
    refine ⟨rfl, ?_⟩
    exact Table.forall_set (P := fun j (u : WorkUnit) =>
      u.variant.dryRun? = (w.units.get j).variant.dryRun?) rfl fun _ => rfl

theorem Given.hushed {w' : World} (hg : w.Given b r h w') : w.Hushed w' := by
  cases hg with
  | blank hf => exact .beside rfl rfl
  | live q hf hv hp =>
    subst hp
    exact (w.hushed_markDynamic b.unit).trans (hushed_memoize ..)
  | untracked state hf hv hk hs hp =>
    subst hp
    exact w.hushed_memoize ..

theorem Refused.hushed {w' : World} {a : Attempt} {e : AccessError} {events : List Event}
    (hr : w.Refused a e events w') : w.Hushed w' := by
  refine ⟨hr.spares.reporters, fun k => ?_⟩
  cases hv : (w.units.get k).variant with
  | request q => rw [hr.spares.requests k q hv]
  | _ =>
    have hphase := congrArg Variant.phase (hr.evolves.unit k).made
    rw [Variant.phase_asMade, Variant.phase_asMade, hv] at hphase
    cases hv' : (w'.units.get k).variant with
    | request q =>
      rw [hv'] at hphase
      cases hphase
    | _ => rfl

theorem hushed_decide {v : Value} {call : Call} (hd : (w.decide v call).result = .ok ()) :
    w.Hushed (w.decide v call).world := by
  cases ha : v.attempt? call with
  | none =>
    rw [decide_of_no_attempt ha]
    exact .beside rfl rfl
  | some a =>
    rw [(decide_of_attempt ha).1] at hd ⊢
    obtain ⟨-, ⟨-, hw⟩ | ⟨-, hw, -⟩⟩ := decideSwitch_ok hd
    · rw [hw]
      exact .beside rfl rfl
    · rw [hw]
      exact w.hushed_markDynamic _

theorem hushed_perform (w : World) (v : Value) (call : Call) : w.Hushed (w.perform v call).1 := by
  rw [perform_frame]
  exact .beside rfl rfl

/-! ## Observed calls -/

def sees? (w : World) (u : Use) : Option Sighting :=
  u.through.bind fun h =>
    h.guard?.bind fun g =>
      if w.awaited.contains h.id then none
      else some
        { reporter := g.reporter, unit := g.unit, route := g.route,
          expression := u.call.expression, api := h.resource.api }

/-- A change in which what is seen is told, and nothing else. -/
structure Relays (w : World) (x? : Option Sighting) (w' : World) : Prop where
  reporters : w'.reporters = x?.elim w.reporters fun x =>
    w.reporters.set x.reporter
      ((w.reporters.get x.reporter).report
        (.ofUse (some x.route) x.expression x.api (w.startsDry x.unit))).1
  dryRun (k : Key .unit) : (w'.units.get k).variant.dryRun? =
    (w.units.get k).variant.dryRun?.map fun d =>
      if x?.any fun x => x.unit = k then d.escalate.1 else d

theorem Hushed.relays {w' : World} (h : w.Hushed w') : w.Relays none w' where
  reporters := h.reporters
  dryRun k := by simp [h.dryRun k]

theorem relays_seen (w : World) (u : Use) : w.Relays (w.sees? u) (w.seen u).1 := by
  have nothing : w.Relays none w := (Hushed.beside rfl rfl).relays
  unfold sees? seen observe
  cases u.through with
  | none => exact nothing
  | some h =>
    cases hg : h.guard? with
    | none => simpa [hg] using nothing
    | some g =>
      simp only [Option.bind_some, hg]
      split
      · exact nothing
      · refine ⟨?_, fun k => ?_⟩
        · simp only [tell, escalate_ended]
          rw [escalate_frame]
          rfl
        · refine (w.dryRun_escalate g.unit k).trans ?_
          simp [eq_comm]

theorem Relays.within {w₁ w₂ w' : World} {x? : Option Sighting} (h : w.Hushed w₁)
    (hr : w₁.Relays x? w₂) (h' : w₂.Hushed w') : w.Relays x? w' := by
  refine ⟨?_, fun k => ?_⟩
  · rw [h'.reporters, hr.reporters, h.reporters]
    cases x? with
    | none => rfl
    | some x => simp [startsDry, h.dryRun]
  · rw [h'.dryRun, hr.dryRun, h.dryRun]

/-- What a reporter is told of a call that a guard sees. -/
def toldOf (w : World) (k : Key .reporter) : Option Sighting → List Diagnostic
  | some x =>
    if x.reporter = k then [.ofUse (some x.route) x.expression x.api (w.startsDry x.unit)] else []
  | none => []

theorem Relays.told {x? : Option Sighting} (h : w.Relays x? w') (k : Key .reporter) :
    w'.reporters.get k = (w.reporters.get k).tell (w.toldOf k x?) := by
  rw [h.reporters]
  cases x? with
  | none => rfl
  | some x =>
    simp only [Option.elim_some, Table.get_set, toldOf]
    by_cases hk : x.reporter = k
    · subst hk
      simp [Reporter.tell]
    · simp [hk, Ne.symm hk, Reporter.tell]

theorem relays_use {u : Use} (hd : (w.decide u.value u.call).result = .ok ()) :
    w.Relays (w.sees? u) (w.use u).world := by
  rw [(use_ok hd).1]
  have hsees : (w.decide u.value u.call).world.sees? u = w.sees? u := by
    rw [decide_frame hd]
    rfl
  exact .within (hushed_decide hd) (hsees ▸ relays_seen _ u) (hushed_perform ..)

theorem relays_called (w : World) (u : Use) :
    w.Relays (if (w.decide u.value u.call).result.isOk then w.sees? u else none)
      (w.use u).world := by
  cases hd : (w.decide u.value u.call).result with
  | ok x => exact relays_use hd
  | error e =>
    obtain ⟨a, -, hr⟩ := decide_refuses hd
    have hw : (w.use u).world = (w.decide u.value u.call).world := by
      rw [use, next_error hd]
    rw [hw]
    exact hr.hushed.relays

end World

namespace Session

variable {s : Session} {step : Step}

/-- What guards see of a step. A call that is refused where it is decided is not seen. -/
def observed? (s : Session) (step : Step) : Option Sighting :=
  (s.use? step).bind fun u =>
    if (s.world.decide u.value u.call).result.isOk then s.world.sees? u else none

theorem hushed_step (hu : s.use? step = none) : s.world.Hushed (s.step step).session.world := by
  cases s.effect step with
  | refused a e events w ha hr h =>
    rw [h]
    exact hr.hushed
  | given b r h ha hg hm => exact hg.hushed
  | used u huse hd h => cases hu.symm.trans huse
  | listened h =>
    rw [listened_frame h]
    exact .beside rfl rfl
  | aborted key h | workDropped key h =>
    subst h
    exact .beside rfl rfl
  | unitDropped key h =>
    subst h
    exact ⟨rfl, Table.forall_set (P := fun j (u : WorkUnit) =>
      u.variant.dryRun? = (s.world.units.get j).variant.dryRun?) rfl fun _ => rfl⟩
  | hostJar key call h | hostHeaders key call h | hostDraft key call h =>
    subst h
    rw [host_frame rfl]
    exact .beside rfl rfl

theorem relays_step (s : Session) (step : Step) :
    s.world.Relays (s.observed? step) (s.step step).session.world := by
  unfold observed?
  cases hu : s.use? step with
  | none => exact (hushed_step hu).relays
  | some u =>
    rw [(step_use hu).1]
    exact s.world.relays_called u

/-! ## Who was awaited -/

theorem polled_of_attempt {a : Attempt} (ha : s.attempt? step = some a) :
    s.polled? step = none := by
  cases step with
  | now | poll => cases ha
  | _ => rfl

theorem polled_of_use {u : Use} (hu : s.use? step = some u) : s.polled? step = none := by
  cases step with
  | now | poll => cases hu
  | _ => rfl

theorem awaited_notePolled (w : World) (h? : Option Handle) (id : HandleId) :
    (w.notePolled h?).awaited.contains id =
      (w.awaited.contains id || h?.any fun h => h.isGuarded && h.id = id) := by
  cases h? with
  | none => simp
  | some h =>
    simp only [World.notePolled_some, World.markAwaited, Option.any_some]
    cases hg : h.isGuarded with
    | false => simp
    | true =>
      cases hc : w.awaited.contains h.id with
      | false =>
        simp only [Bool.not_false, Bool.and_self, Bool.true_and, ↓reduceIte, List.contains_cons]
        rw [Bool.or_comm, decide_eq_decide.mpr (eq_comm (a := h.id) (b := id))]
        rfl
      | true =>
        simp only [Bool.not_true, Bool.and_false, Bool.false_eq_true, ↓reduceIte, Bool.true_and]
        by_cases hid : h.id = id
        · rw [← hid, hc]
          rfl
        · simp [hid]

theorem awaited_step (s : Session) (step : Step) (id : HandleId) :
    (s.step step).session.world.awaited.contains id =
      (s.world.awaited.contains id ||
        (s.polled? step).any fun h => h.isGuarded && h.id = id) := by
  have same {w : World} (hw : (s.step step).session.world = w)
      (ha : w.awaited = s.world.awaited) (hp : s.polled? step = none) :
      (s.step step).session.world.awaited.contains id =
        (s.world.awaited.contains id ||
          (s.polled? step).any fun h => h.isGuarded && h.id = id) := by
    rw [hw, ha, hp]
    simp
  cases s.effect step with
  | refused a e events w ha hr h =>
    exact same (congrArg (·.session.world) h) hr.spares.awaited (polled_of_attempt ha)
  | given b r h ha hg hm => exact same hg.frame rfl (polled_of_attempt ha)
  | used u hu hd h =>
    refine same (w := (s.world.use u).world) ?_ ?_ (polled_of_use hu)
    · rw [h]
      rfl
    · rw [World.use_frame hd]
  | listened h =>
    rw [h.frame]
    exact awaited_notePolled ..
  | aborted key h | workDropped key h | unitDropped key h =>
    subst h
    exact same rfl rfl rfl
  | hostJar key call h | hostHeaders key call h | hostDraft key call h =>
    subst h
    exact same (host_frame rfl) rfl rfl

end Session

/-! ## Runs -/

/-- A session with the run that has led to it from a world, and what guards have told on the way. -/
structure Session.Watched (w : World) (run : List Moment) (s : Session) : Prop where
  recorded : s.Recorded run
  polled (m : Moment) (hm : m ∈ run) (h : Handle) (hp : m.before.polled? m.step = some h) :
    s.world.Knows h
  awaited (id : HandleId) : s.world.awaited.contains id = run.any fun m =>
    (m.before.polled? m.step).any fun h => h.isGuarded && h.id = id
  dryRun (k : Key .unit) : (s.world.units.get k).variant.dryRun? =
    (w.units.get k).variant.dryRun?.map fun d =>
      if (sightings run).any fun x => x.unit = k then d.escalate.1 else d
  reporter (r : Key .reporter) (hr : w.reporters.get r = {}) :
    (s.world.reporters.get r).Follows (diagnostics w r (sightings run))

namespace Session

variable {w : World} {run : List Moment} {s : Session}

theorem Watched.awaited_iff (hs : s.Watched w run) {h : Handle} (hh : s.Holds h)
    (hg : h.isGuarded = true) :
    s.world.awaited.contains h.id = run.any fun m => m.polls h.id := by
  rw [hs.awaited, Bool.eq_iff_iff]
  simp only [List.any_eq_true]
  refine exists_congr fun m => and_congr_right fun hm => ?_
  simp only [Moment.polls, Option.any_eq_true, Bool.and_eq_true, decide_eq_true_eq]
  refine exists_congr fun x => and_congr_right fun hx => ⟨And.right, fun hid => ⟨?_, hid⟩⟩
  have hsound := hs.recorded.sound
  rw [(hsound.knows hh).eq_of_guarded hsound.fits (hs.polled m hm x hx) hid hg]
  exact hg

theorem refused_of_use {step : Step} {u : Use} (hu : s.use? step = some u) :
    Moment.isRefused ⟨s, step⟩ = !(s.world.decide u.value u.call).result.isOk := by
  obtain ⟨hstep, ha⟩ := step_use hu
  have hattempt : Moment.attempt? ⟨s, step⟩ = u.value.attempt? u.call := ha
  have hreply : Moment.reply ⟨s, step⟩ = (s.answered (s.world.use u)).reply :=
    congrArg After.reply hstep
  unfold Moment.isRefused
  rw [hattempt, hreply]
  cases hd : (s.world.decide u.value u.call).result with
  | error e =>
    obtain ⟨a, hsome, -⟩ := World.decide_refuses hd
    rw [hsome, World.use, World.next_error hd]
    rfl
  | ok x =>
    cases hv : u.value.attempt? u.call with
    | none => rfl
    | some a =>
      -- Only draft mode is decided on, and no store refuses a call of it.
      obtain ⟨call, hcall⟩ : ∃ call, u.call = .draft call := by
        unfold Value.attempt? at hv
        split at hv
        · exact ⟨_, by assumption⟩
        · cases hv
      obtain ⟨answer, hp⟩ := World.perform_draft
        ((s.world.decide u.value u.call).world.seen u).1 u.value call
      rw [hcall] at hp
      rw [answered, (World.use_ok hd).2, hcall, hp]
      rfl

/-- What guards see of a step is what the run tells. -/
theorem Watched.observed (hs : s.Watched w run) (step : Step) :
    s.observed? step = Moment.sighting? run ⟨s, step⟩ := by
  cases step with
  | callHandle name call =>
    cases hn : s.handles.get? name with
    | none => simp [observed?, use?, hn, Moment.sighting?, Moment.called?]
    | some h =>
      obtain ⟨o, b, r, ho, hm⟩ := hs.recorded.origin (.kept name hn)
      -- The fetch that made the handle has settled whether it is guarded and who is told.
      have hguard := hm.made.guard
      simp only [Moment.sighting?, Moment.called?, hn, Option.map_some, Option.bind_some, ho,
        hm.attempt, Attempt.ofFetch]
      cases hg : o.before.world.guards b with
      | false =>
        rw [hg] at hguard
        simp only [observed?, use?, hn, Option.bind_some]
        cases h.value? <;> simp [World.sees?, hguard]
      | true =>
        rw [hg] at hguard
        obtain ⟨v, hv⟩ := hm.made.resolved hg
        have hu : s.use? (.callHandle name call) = some ⟨some h, v, call⟩ := by
          simp [use?, hn, Handle.value?, hv]
        have hguarded : h.isGuarded = true := by simp [Handle.isGuarded, hguard]
        rw [refused_of_use hu, ← hs.awaited_iff (.kept name hn) hguarded]
        simp only [observed?, hu, Option.bind_some, World.sees?, hguard, ↓reduceIte,
          hm.made.resource]
        cases (s.world.decide v call).result.isOk <;> cases s.world.awaited.contains h.id <;> rfl
  | callValue name call =>
    simp only [observed?, use?]
    cases s.values.get? name <;> simp [World.sees?, Moment.sighting?, Moment.called?]
  | _ => rfl

theorem sightings_snoc (run : List Moment) (m : Moment) :
    sightings (run ++ [m]) = sightings run ++ (m.sighting? run).toList := by
  simp [sightings, filterMapAfter_snoc]

theorem diagnostics_snoc (w : World) (r : Key .reporter) (l : List Sighting) (x : Sighting) :
    diagnostics w r (l ++ [x]) =
      diagnostics w r l ++ if x.reporter = r then [x.diagnostic w l] else [] := by
  rw [diagnostics, filterMapAfter_snoc]
  congr 1
  simp only [List.nil_append]
  split <;> rfl

theorem Watched.startsDry (hs : s.Watched w run) (k : Key .unit) :
    s.world.startsDry k = (w.startsDry k && !(sightings run).any fun x => x.unit = k) := by
  unfold World.startsDry
  rw [hs.dryRun]
  cases (w.units.get k).variant.dryRun? with
  | none => rfl
  | some d => cases (sightings run).any fun x => x.unit = k <;> cases d <;> rfl

theorem holds_of_polled {step : Step} {h : Handle} (hp : s.polled? step = some h) : s.Holds h := by
  cases step with
  | now name saveAs => exact .kept name hp
  | poll name saveAs =>
    obtain ⟨f, hf, hh⟩ := Option.map_eq_some_iff.mp hp
    exact .awaited name f hf hh
  | _ => cases hp

theorem Watched.step (hs : s.Watched w run) (step : Step) :
    Watched w (run ++ [⟨s, step⟩]) (s.step step).session := by
  have hr := s.relays_step step
  rw [hs.observed step] at hr
  have hevolves := s.step_evolves step
  refine ⟨hs.recorded.step step, ?_, ?_, ?_, ?_⟩
  · intro m hm h hp
    rcases List.mem_append.mp hm with hm | hm
    · exact (hs.polled m hm h hp).evolves hevolves
    · rw [List.mem_singleton.mp hm] at hp
      exact (hs.recorded.sound.knows (holds_of_polled hp)).evolves hevolves
  · intro id
    rw [awaited_step, hs.awaited, List.any_append]
    simp
  · intro k
    rw [hr.dryRun, hs.dryRun, sightings_snoc, Option.map_map]
    congr 1
    funext d
    cases Moment.sighting? run ⟨s, step⟩ with
    | none => simp
    | some x =>
      by_cases hx : x.unit = k
      · cases (sightings run).any fun x => x.unit = k <;> cases d <;> simp [hx, DryRun.escalate]
      · simp [hx]
  · intro r hfresh
    rw [hr.reporters, sightings_snoc]
    cases Moment.sighting? run ⟨s, step⟩ with
    | none => simpa using hs.reporter r hfresh
    | some x =>
      simp only [Option.elim_some, Table.get_set, Option.toList_some, diagnostics_snoc]
      split
      · rename_i hx
        rw [← hx, if_pos rfl, Sighting.diagnostic_eq, ← hs.startsDry]
        exact (hs.reporter _ (hx ▸ hfresh)).report _
      · rename_i hx
        rw [if_neg (Ne.symm hx), List.append_nil]
        exact hs.reporter r hfresh

theorem Watched.ofWorld (hw : w.Fresh) : Watched w [] (Session.ofWorld w) where
  recorded := .ofWorld hw
  polled m hm := by cases hm
  awaited id := by
    change w.awaited.contains id = false
    rw [hw.awaited]
    rfl
  dryRun k := by simp [sightings, filterMapAfter, Session.ofWorld]
  reporter r hr := by
    change (w.reporters.get r).Follows []
    rw [hr]
    exact ⟨rfl, fun _ => rfl, rfl, rfl⟩

theorem Watched.tells (hw : w.Fresh) (hs : s.Watched w run) : s.Tells w run where
  collected r hr := (hs.reporter r hr).collected
  reported r hr := (hs.reporter r hr).size
  escalated k := by
    have huntouched := (hw.unit k).2
    have hany : (∃ x ∈ sightings run, x.unit = k) ↔
        ((sightings run).any fun x => x.unit = k) = true := by simp
    rw [hs.dryRun, World.startsDry, hany]
    cases hv : (w.units.get k).variant with
    | request q =>
      rw [hv, Variant.isUntouched] at huntouched
      cases (sightings run).any fun x => x.unit = k <;> cases hd : q.dryRun <;>
        simp_all [Variant.dryRun?, DryRun.escalate, DryRun.isEscalated]
    | _ => simp [Variant.dryRun?]
  guarded m hm h hg := by
    obtain ⟨o, b, r, ho, hmakes⟩ := hs.recorded.made m hm h hg
    refine ⟨o, b, r, ho, hmakes.attempt, ?_⟩
    rw [Handle.isGuarded, hmakes.made.guard]
    cases o.before.world.guards b <;> rfl

end Session

/-- Guards tell what they should and no more. A handle is guarded as the fetch that made it says. A
call on one is told if no future of it was polled before and the call was not refused, once for each
call site, and the first such call on a live request ends its dry run. -/
theorem diagnostics_exact {w : World} (hw : w.Fresh) (steps : List Step) :
    ((Session.ofWorld w).run steps).1.Tells w ((Session.ofWorld w).moments steps) := by
  have hs := Session.run_with_moments (P := Session.Watched w) (fun _ _ step h => h.step step)
    (Session.ofWorld w) [] steps (.ofWorld hw)
  exact hs.tells hw

/-- Of two like calls in a dry run one is told, and no call is told after the handle was awaited. -/
theorem diagnostics_exact_of_two_calls :
    let w : World :=
      { works := ⟨[{ route := "/" }]⟩
        units := ⟨[{ variant := .request {
          cookies := ⟨0⟩, mutableCookies := ⟨0⟩, headers := ⟨0⟩, dryRun := .active } }]⟩
        coordinators := ⟨[{ config := { mode := .development }, reporter := ⟨0⟩ }]⟩ }
    let steps : List Step :=
      [.fetch .cookies ⟨0⟩ (some ⟨0⟩) (some ⟨0⟩) (some "c"), .callHandle "c" (.cookies .size),
        .callHandle "c" (.cookies .size), .now "c" none, .callHandle "c" (.cookies .getAll)]
    let collected := (((Session.ofWorld w).run steps).1.world.reporters.get ⟨0⟩).collected
    w.Fresh ∧ collected.map (fun d => (d.expression, d.escalated, d.message)) =
      [("cookies().size", true, "Route \"/\" used `cookies().size`. " ++
        "`cookies()` should be awaited before using its value.")] := by
  intro w steps collected
  have hw : w.Fresh := fresh_of_one rfl rfl rfl ⟨rfl, rfl, rfl⟩ rfl
  have hcollected : collected = firsts (diagnostics w ⟨0⟩ (sightings _)) :=
    (diagnostics_exact hw steps).collected ⟨0⟩ rfl
  refine ⟨hw, ?_⟩
  rw [hcollected]
  decide +kernel

end RequestAccess
