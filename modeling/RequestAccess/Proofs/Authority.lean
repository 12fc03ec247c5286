import RequestAccess.Proofs.Origin

/-!
# Who may switch draft mode

The host's draft mode is switched through a handle or a value only in the live request that the
value is bound to, before its response is sent. Everywhere else it can at most be read.
-/

namespace RequestAccess

/-! ## Switching and reading -/

def DraftCall.on? : DraftCall → Option Bool
  | .enable => some true
  | .disable => some false
  | .isEnabled => none

def DraftProvider.switched (on : Bool) : DraftProvider → DraftProvider
  | .inert => .inert
  | .switch _ => .switch on
  | .preview draft response => .preview { draft with enabled := on } response

theorem DraftProvider.isEnabled_switched {kept : DraftProvider} (hk : kept ≠ .inert) (on : Bool) :
    (kept.switched on).isEnabled = on := by
  cases kept with
  | inert => exact absurd rfl hk
  | switch | preview => rfl

/-- Static generation and the dry runs, which see no request. -/
def Phase.isPrerender : Phase → Bool
  | .prerender | .prerenderClient | .prerenderRuntime | .prerenderPartial | .prerenderLegacy => true
  | .request | .cache | .privateCache | .unstableCache => false

def Variant.usedDynamic : Variant → Bool
  | .request q => q.usedDynamic
  | _ => false

def World.withDraft (w : World) (key : Key .draft) (kept : DraftProvider) : World :=
  { w with drafts := w.drafts.set key kept }

namespace Session

/-- The call of draft mode that a step makes, and the scope that its value is bound to. -/
def draftUse? (s : Session) (step : Step) : Option (Binding × DraftCall) :=
  match s.use? step with
  | some ⟨_, .draft _ b, .draft call⟩ => some (b, call)
  | _ => none

/-- The step switches the draft mode of a key, whatever the host keeps under it. -/
def Reaches (s : Session) (step : Step) (key : Key .draft) (on : Bool) : Prop :=
  ∀ kept : DraftProvider,
    let t := { s with world := s.world.withDraft key kept }
    (t.step step).session.world.drafts.get key = kept.switched on

end Session

/-- The scope may switch the draft mode of a key. -/
structure World.Authorises (w : World) (b : Binding) (key : Key .draft) : Prop where
  work : (w.works.get b.work).alive = true
  unit : (w.units.get b.unit).alive = true
  forceStatic : (w.works.get b.work).forceStatic = false
  dynamicShouldError : (w.works.get b.work).dynamicShouldError = false
  request : ∃ q, (w.units.get b.unit).variant = .request q ∧ q.draft = some key ∧ q.phase ≠ .after

/-- What a step may do with draft mode. -/
structure Session.DraftLaw (s : Session) (step : Step) (after : Session.After) : Prop where
  /-- Switching reaches a draft mode of the host exactly where the scope of the value may switch
  it. -/
  reaches (b : Binding) (call : DraftCall) (on : Bool) (hu : s.draftUse? step = some (b, call))
    (ho : call.on? = some on) (key : Key .draft) :
    s.Reaches step key on ↔ s.world.Authorises b key
  accepted (b : Binding) (call : DraftCall) (on : Bool) (hu : s.draftUse? step = some (b, call))
    (ho : call.on? = some on) (key : Key .draft) (ha : s.world.Authorises b key) :
    after.reply = .answer .done ∧
      (after.session.world.units.get b.unit).variant.usedDynamic = true
  /-- What the host keeps then answers as it was switched. -/
  kept (b : Binding) (call : DraftCall) (on : Bool) (hu : s.draftUse? step = some (b, call))
    (ho : call.on? = some on) (key : Key .draft) (ha : s.world.Authorises b key)
    (hk : s.world.drafts.get key ≠ .inert) :
    (after.session.world.drafts.get key).isEnabled = on
  spared (b : Binding) (call : DraftCall) (on : Bool) (hu : s.draftUse? step = some (b, call))
    (ho : call.on? = some on) (ha : ∀ key, ¬ s.world.Authorises b key) :
    after.session.world.drafts = s.world.drafts ∧ after.session.world.jars = s.world.jars
  /-- Without a request draft mode is off. -/
  off (b : Binding) (hu : s.draftUse? step = some (b, .isEnabled))
    (hp : (s.world.works.get b.work).forceStatic = true ∨
      (s.world.units.get b.unit).variant.phase.isPrerender = true) :
    after.reply = .answer (.flag false)
  /-- Elsewhere it is what the host keeps now. -/
  shown (b : Binding) (hu : s.draftUse? step = some (b, .isEnabled))
    (hf : (s.world.works.get b.work).forceStatic = false) (key : Key .draft)
    (hk : s.world.hostDraft? b = some key) :
    after.reply = .answer (.flag (s.world.drafts.get key).isEnabled)
  /-- Only an accepted switching changes what the host keeps, or the host itself. -/
  changed (key : Key .draft)
    (hc : after.session.world.drafts.get key ≠ s.world.drafts.get key) :
    (∃ b call on, s.draftUse? step = some (b, call) ∧ call.on? = some on ∧
        s.world.Authorises b key) ∨
      ∃ call, step = .callDraft key call

namespace World

variable {w w' : World} {b : Binding} {key : Key .draft} {on : Bool}

/-! ## What a value is bound to -/

/-- The draft mode that a scope can see. -/
def sourceFor (w : World) (b : Binding) : Source .draft :=
  if (w.works.get b.work).forceStatic then .blank else .ofKey? (w.hostDraft? b)

/-- A value of draft mode reads what its own scope can see. -/
def Bound (w : World) : Value → Prop
  | .draft source b => source = w.sourceFor b
  | _ => True

theorem Evolves.forceStatic (e : w.Evolves w') (k : Key .work) :
    (w'.works.get k).forceStatic = (w.works.get k).forceStatic := by
  have made := congrArg Work.forceStatic (e.work k).made
  exact made

theorem Bound.evolves {v : Value} (e : w.Evolves w') (h : w.Bound v) : w'.Bound v := by
  cases v with
  | cookies _ | headers _ => trivial
  | draft source b =>
    have hs : w'.sourceFor b = w.sourceFor b := by
      simp only [sourceFor, e.forceStatic, e.hostDraft?]
    exact h.trans hs.symm

theorem Makes.bound {r : Resource} {h : Handle} {v : Value} (hm : w.Makes b r h)
    (hv : h.state = .resolved v) : w.Bound v := by
  cases hm with
  | blank hf =>
    cases hv
    cases r with
    | cookies | headers => trivial
    | draftMode => simp [blankValue, Bound, sourceFor, hf]
  | remembered k state hf ho hn =>
    cases ho with
    | draft =>
      cases hv
      simp [Bound, sourceFor, hf]
    | cookies jar _ | headers jar _ =>
      cases hv
      trivial
    | waiting r p _ _ => cases hv

/-! ## Switching -/

def switchSource (w : World) (source : Source .draft) (on : Bool) : World :=
  match source with
  | .shared key => w.switchDraft key on
  | .blank => w

theorem drafts_switchDraft (w : World) (key other : Key .draft) (on : Bool) :
    (w.switchDraft key on).drafts.get other =
      if other = key then (w.drafts.get key).switched on else w.drafts.get other := by
  unfold switchDraft
  split
  · rename_i h
    split
    · rename_i same
      rw [same, h, DraftProvider.switched]
    · rfl
  · rename_i x h
    simp [h, DraftProvider.switched]
  · rename_i draft response h
    simp [h, DraftProvider.switched, PreviewDraft.switch]

theorem drafts_callDraft {w : World} {key other : Key .draft} (h : other ≠ key)
    (call : DraftCall) :
    (w.callDraft (.shared key) call).1.drafts.get other = w.drafts.get other := by
  have switched (on : Bool) : (w.switchDraft key on).drafts.get other = w.drafts.get other := by
    rw [drafts_switchDraft, if_neg h]
  cases call with
  | isEnabled => rfl
  | enable => exact switched true
  | disable => exact switched false

theorem switchSource_congr (hd : w'.drafts = w.drafts) (hj : w'.jars = w.jars)
    (source : Source .draft) (on : Bool) :
    (w'.switchSource source on).drafts = (w.switchSource source on).drafts ∧
      (w'.switchSource source on).jars = (w.switchSource source on).jars := by
  cases source with
  | blank => exact ⟨hd, hj⟩
  | shared key =>
    simp only [switchSource, switchDraft, hd]
    split <;> simp [hd, hj]

theorem perform_switched (w : World) (source : Source .draft) (b : Binding) {call : DraftCall}
    (ho : call.on? = some on) :
    w.perform (.draft source b) (.draft call) = (w.switchSource source on, .ok .done) := by
  cases call with
  | isEnabled => cases ho
  | enable | disable =>
    cases ho
    cases source <;> rfl

theorem Authorises.decided (ha : w.Authorises b key) (expression : String) :
    w.decideSwitch b expression = { world := w.markDynamic b.unit, result := .ok () } := by
  obtain ⟨q, hv, -, hp⟩ := ha.request
  simp [decideSwitch, ha.work, ha.unit, hv, Variant.isAfter, hp, ha.forceStatic, decideIn,
    unlessStatic, ha.dynamicShouldError]

theorem Authorises.sourceFor (ha : w.Authorises b key) : w.sourceFor b = .shared key := by
  obtain ⟨q, hv, hk, -⟩ := ha.request
  simp [World.sourceFor, ha.forceStatic, hostDraft?, hv, Variant.hostDraft?, hk, Source.ofKey?]

theorem Authorises.withDraft (ha : w.Authorises b key) (k : Key .draft) (kept : DraftProvider) :
    (w.withDraft k kept).Authorises b key :=
  ⟨ha.work, ha.unit, ha.forceStatic, ha.dynamicShouldError, ha.request⟩

theorem Authorises.of_withDraft {k : Key .draft} {kept : DraftProvider}
    (ha : (w.withDraft k kept).Authorises b key) : w.Authorises b key :=
  ⟨ha.work, ha.unit, ha.forceStatic, ha.dynamicShouldError, ha.request⟩

theorem authorises_of_decided {expression : String}
    (hd : (w.decideSwitch b expression).result = .ok ()) (hk : w.sourceFor b = .shared key) :
    w.Authorises b key := by
  obtain ⟨⟨hwork, hunit, hafter⟩, ⟨hf, -⟩ | ⟨hf, -, hp, hs⟩⟩ := decideSwitch_ok hd
  · simp [World.sourceFor, hf] at hk
  · refine ⟨hwork, hunit, hf, hs, ?_⟩
    cases hv : (w.units.get b.unit).variant with
    | request q =>
      refine ⟨q, rfl, ?_, by simpa [hv, Variant.isAfter] using hafter⟩
      have hdraft : w.hostDraft? b = q.draft := by simp [hostDraft?, hv, Variant.hostDraft?]
      rw [World.sourceFor, hf, hdraft] at hk
      cases hq : q.draft with
      | none => simp [hq, Source.ofKey?] at hk
      | some own => simpa [hq, Source.ofKey?] using hk
    | _ => simp [hv, Variant.phase] at hp

theorem usedDynamic_markDynamic {q : LiveRequest}
    (hv : (w.units.get b.unit).variant = .request q) :
    ((w.markDynamic b.unit).units.get b.unit).variant.usedDynamic = true := by
  simp [markDynamic, hv, Variant.mapRequest, Variant.usedDynamic]

theorem usedDynamic_seen (w : World) (u : Use) (k : Key .unit) :
    ((w.seen u).1.units.get k).variant.usedDynamic = (w.units.get k).variant.usedDynamic := by
  unfold seen observe
  split
  · split
    · split
      · rfl
      · rename_i g _ _
        simp only [tell, units_escalate]
        split
        · rename_i hk
          rw [hk]
          cases (w.units.get g.unit).variant <;> rfl
        · rfl
    · rfl
  · rfl

theorem use_switched {u : Use} {source : Source .draft} {call : DraftCall}
    (hv : u.value = .draft source b) (hc : u.call = .draft call) (ho : call.on? = some on)
    (hd : (w.decide u.value u.call).result = .ok ()) :
    (w.use u).world.drafts = (w.switchSource source on).drafts ∧
      (w.use u).world.jars = (w.switchSource source on).jars ∧
      (w.use u).result = .ok .done ∧
      (w.use u).world.units = ((w.decide u.value u.call).world.seen u).1.units := by
  obtain ⟨hw, hr⟩ := use_ok hd
  have hbefore : ((w.decide u.value u.call).world.seen u).1.drafts = w.drafts ∧
      ((w.decide u.value u.call).world.seen u).1.jars = w.jars := by
    rw [seen_frame, decide_frame hd]
    exact ⟨rfl, rfl⟩
  obtain ⟨hdrafts, hjars⟩ := switchSource_congr hbefore.1 hbefore.2 source on
  rw [hw, hr, hv, hc, perform_switched _ source b ho, ← hv, ← hc]
  refine ⟨hdrafts, hjars, rfl, ?_⟩
  cases source with
  | blank => rfl
  | shared key =>
    simp only [switchSource]
    rw [switchDraft_frame]

section Switching

variable {u : Use} {call : DraftCall} (hv : u.value = .draft (w.sourceFor b) b)
  (hc : u.call = .draft call)

include hv hc

theorem decide_switch (ho : call.on? = some on) :
    w.decide u.value u.call = w.decideSwitch b call.expression := by
  rw [hv, hc]
  cases call with
  | isEnabled => cases ho
  | enable | disable => rfl

theorem use_authorised (ho : call.on? = some on) (ha : w.Authorises b key) :
    (w.use u).world.drafts = (w.switchDraft key on).drafts ∧ (w.use u).result = .ok .done ∧
      ((w.use u).world.units.get b.unit).variant.usedDynamic = true := by
  have hdecided := (decide_switch hv hc ho).trans (ha.decided call.expression)
  have hd : (w.decide u.value u.call).result = .ok () := by rw [hdecided]
  obtain ⟨hdrafts, -, hr, hunits⟩ := use_switched hv hc ho hd
  rw [ha.sourceFor] at hdrafts
  refine ⟨hdrafts, hr, ?_⟩
  obtain ⟨q, hq, -⟩ := ha.request
  rw [hunits, usedDynamic_seen, hdecided]
  exact usedDynamic_markDynamic hq

theorem use_spared (ho : call.on? = some on) (hn : ∀ key, ¬ w.Authorises b key) :
    (w.use u).world.drafts = w.drafts ∧ (w.use u).world.jars = w.jars := by
  cases hd : (w.decide u.value u.call).result with
  | error e =>
    obtain ⟨a, -, hr⟩ := decide_refuses hd
    rw [use, next_error hd]
    exact ⟨hr.spares.drafts, hr.spares.jars⟩
  | ok x =>
    obtain ⟨hdrafts, hjars, -⟩ := use_switched hv hc ho hd
    rw [decide_switch hv hc ho] at hd
    cases hk : w.sourceFor b with
    | blank =>
      rw [hk] at hdrafts hjars
      exact ⟨hdrafts, hjars⟩
    | shared key => exact absurd (authorises_of_decided hd hk) (hn key)

end Switching

/-! ## Reading -/

theorem seen_decided {u : Use} (hd : (w.decide u.value u.call).result = .ok ()) :
    ((w.decide u.value u.call).world.seen u).1.drafts = w.drafts := by
  rw [seen_frame, decide_frame hd]

theorem use_isEnabled {u : Use} {source : Source .draft} (hv : u.value = .draft source b)
    (hc : u.call = .draft .isEnabled) :
    (w.use u).result = .ok (.flag (w.draftOf source).isEnabled) := by
  have hd : (w.decide u.value u.call).result = .ok () := by
    rw [hv, hc]
    rfl
  have hdrafts := seen_decided hd
  rw [(use_ok hd).2]
  generalize ((w.decide u.value u.call).world.seen u).1 = seen at hdrafts
  rw [hv, hc]
  cases source with
  | blank => rfl
  | shared key =>
    simp only [perform, callDraft, draftOf, hdrafts]
    rfl

theorem sourceFor_blank
    (h : (w.works.get b.work).forceStatic = true ∨
      (w.units.get b.unit).variant.phase.isPrerender = true) : w.sourceFor b = .blank := by
  unfold sourceFor
  split
  · rfl
  · rename_i hf
    have hp := h.resolve_left hf
    unfold hostDraft?
    cases hv : (w.units.get b.unit).variant with
    | request _ | cache _ | privateCache _ _ _ | unstableCache =>
      simp [hv, Variant.phase, Phase.isPrerender] at hp
    | _ => rfl

theorem drafts_perform (w : World) {v : Value} {c : Call}
    (h : ∀ source b call, v = .draft source b → c = .draft call → call.on? = none) :
    (w.perform v c).1.drafts = w.drafts := by
  unfold perform
  split
  · rw [callJar_frame]
  · rw [callHeaders_frame]
  · rename_i source b call
    have hon := h source b call rfl rfl
    cases call with
    | isEnabled => rfl
    | enable | disable => cases hon
  · rfl

end World

/-! ## Steps -/

namespace Session

variable {s : Session} {step : Step} {b : Binding} {call : DraftCall}

theorem use_reads {u : Use} (hu : s.use? step = some u) : s.Reads u.value := by
  cases step with
  | callHandle name call =>
    obtain ⟨h, hn, hv⟩ := Option.bind_eq_some_iff.mp hu
    obtain ⟨v, hvalue, rfl⟩ := Option.map_eq_some_iff.mp hv
    exact .handle h (.kept name hn) (Handle.state_of_value hvalue)
  | callValue name call =>
    obtain ⟨v, hn, rfl⟩ := Option.map_eq_some_iff.mp hu
    exact .value name hn
  | _ => cases hu

theorem draftUse_bound (hs : s.Reachable) (hu : s.draftUse? step = some (b, call)) :
    ∃ u, s.use? step = some u ∧ u.value = .draft (s.world.sourceFor b) b ∧
      u.call = .draft call := by
  unfold draftUse? at hu
  split at hu
  · rename_i through source b' call' huse
    cases hu
    have hbound : s.world.Bound (.draft source b) :=
      hs.reads (P := World.Bound) (fun _ _ _ _ _ hm hh => hm.bound hh)
        (fun _ _ _ e h => h.evolves e) (use_reads huse)
    refine ⟨_, huse, ?_, rfl⟩
    exact congrArg (Value.draft · b) hbound
  · cases hu

/-- A call that changes a draft mode is let through to that one. -/
theorem authorised_of_used (hs : s.Reachable) {key : Key .draft} {u : Use}
    (hu : s.use? step = some u) (hd : (s.world.decide u.value u.call).result = .ok ())
    (hc : (s.world.use u).world.drafts.get key ≠ s.world.drafts.get key) :
    ∃ b call on, s.draftUse? step = some (b, call) ∧ call.on? = some on ∧
      s.world.Authorises b key := by
  -- A call that switches nothing leaves every draft mode, wherever its value reads.
  by_cases hon : ∃ source b call on, u.value = .draft source b ∧ u.call = .draft call ∧
      call.on? = some on
  · obtain ⟨source, b, call, on, hv, hcall, ho⟩ := hon
    have hdu : s.draftUse? step = some (b, call) := by
      obtain ⟨through, v, c⟩ := u
      subst hv hcall
      simp [draftUse?, hu]
    obtain ⟨u', hu', hv', hc'⟩ := draftUse_bound hs hdu
    cases hu.symm.trans hu'
    by_cases ha : ∃ k, s.world.Authorises b k
    · obtain ⟨k, ha⟩ := ha
      refine ⟨b, call, on, hdu, ho, ?_⟩
      by_cases hk : key = k
      · exact hk ▸ ha
      · refine absurd ?_ hc
        rw [(World.use_authorised hv' hc' ho ha).1, World.drafts_switchDraft, if_neg hk]
    · have hspared := World.use_spared hv' hc' ho (not_exists.mp ha)
      exact absurd (congrArg (Table.get · key) hspared.1) hc
  · refine absurd (congrArg (Table.get · key) ?_) hc
    rw [(World.use_ok hd).1, World.drafts_perform, World.seen_decided hd]
    intro source b call hv hcall
    cases ho : call.on? with
    | none => rfl
    | some on => exact absurd ⟨source, b, call, on, hv, hcall, ho⟩ hon

theorem drafts_changed (hs : s.Reachable) {key : Key .draft}
    (hc : (s.step step).session.world.drafts.get key ≠ s.world.drafts.get key) :
    (∃ b call on, s.draftUse? step = some (b, call) ∧ call.on? = some on ∧
        s.world.Authorises b key) ∨
      ∃ call, step = .callDraft key call := by
  have same {w : World} (hw : (s.step step).session.world = w) (hd : w.drafts = s.world.drafts) :
      False := hc (by rw [hw, hd])
  cases s.effect step with
  | refused a e events w ha hr h =>
    exact (same (congrArg (·.session.world) h) hr.spares.drafts).elim
  | given b r h ha hg hm => exact (same hg.frame rfl).elim
  | listened h => exact (same (listened_frame h) rfl).elim
  | used u hu hd h =>
    rw [h] at hc
    exact .inl (authorised_of_used hs hu hd hc)
  | aborted k h | workDropped k h | unitDropped k h =>
    subst h
    exact (hc rfl).elim
  | hostJar k call h =>
    subst h
    exact (same (s.world.callJar_frame (.shared k) call) rfl).elim
  | hostHeaders k call h =>
    subst h
    exact (same (s.world.callHeaders_frame (.shared k) call) rfl).elim
  | hostDraft k call h =>
    subst h
    refine .inr ⟨call, ?_⟩
    by_cases hk : key = k
    · rw [hk]
    · exact absurd (World.drafts_callDraft hk call) hc

theorem reaches_iff (hs : s.Reachable) {on : Bool} (hu : s.draftUse? step = some (b, call))
    (ho : call.on? = some on) (key : Key .draft) :
    s.Reaches step key on ↔ s.world.Authorises b key := by
  obtain ⟨u, huse, hv, hc⟩ := draftUse_bound hs hu
  have step_in (kept : DraftProvider) :
      (Session.step { s with world := s.world.withDraft key kept } step).session.world =
        ((s.world.withDraft key kept).use u).world := by
    have htu : Session.use? { s with world := s.world.withDraft key kept } step = some u := by
      rw [← huse]
      cases step <;> rfl
    rw [(step_use htu).1]
    rfl
  constructor
  · -- A draft mode that is kept the other way round is left so, unless the scope may switch it.
    intro hr
    have hkept :
        ((s.world.withDraft key (.switch !on)).use u).world.drafts.get key = .switch on := by
      rw [← step_in]
      exact hr (.switch !on)
    have hother : (s.world.withDraft key (.switch !on)).drafts.get key ≠ .switch on := by
      simp [World.withDraft]
    by_cases ha : ∃ k, s.world.Authorises b k
    · obtain ⟨k, ha⟩ := ha
      by_cases hk : key = k
      · exact hk ▸ ha
      · rw [(World.use_authorised (w := s.world.withDraft key _) hv hc ho (ha.withDraft key _)).1,
          World.drafts_switchDraft, if_neg hk] at hkept
        exact absurd hkept hother
    · rw [(World.use_spared (w := s.world.withDraft key _) hv hc ho fun k hk =>
        ha ⟨k, hk.of_withDraft⟩).1] at hkept
      exact absurd hkept hother
  · intro ha kept
    simp only [step_in]
    rw [(World.use_authorised (w := s.world.withDraft key kept) hv hc ho (ha.withDraft key kept)).1,
      World.drafts_switchDraft]
    simp [World.withDraft]

/-- Draft mode is switched in a live request before its response is sent, by a work that neither
reads as static nor fails on dynamic data, as long as the callers have both. Everywhere else it is
at most read, and where there is no request it is off. -/
theorem draft_authority (hs : s.Reachable) (step : Step) : s.DraftLaw step (s.step step) where
  reaches b call on hu ho key := reaches_iff hs hu ho key
  accepted b call on hu ho key ha := by
    obtain ⟨u, huse, hv, hc⟩ := draftUse_bound hs hu
    obtain ⟨-, hr, hused⟩ := World.use_authorised hv hc ho ha
    rw [(step_use huse).1, answered, hr]
    exact ⟨rfl, hused⟩
  kept b call on hu ho key ha hk := by
    obtain ⟨u, huse, hv, hc⟩ := draftUse_bound hs hu
    obtain ⟨hdrafts, -, -⟩ := World.use_authorised hv hc ho ha
    rw [(step_use huse).1]
    change ((s.world.use u).world.drafts.get key).isEnabled = on
    rw [hdrafts, World.drafts_switchDraft, if_pos rfl, DraftProvider.isEnabled_switched hk]
  spared b call on hu ho ha := by
    obtain ⟨u, huse, hv, hc⟩ := draftUse_bound hs hu
    rw [(step_use huse).1]
    exact World.use_spared hv hc ho ha
  off b hu hp := by
    obtain ⟨u, huse, hv, hc⟩ := draftUse_bound hs hu
    rw [(step_use huse).1, answered, World.use_isEnabled hv hc, World.sourceFor_blank hp]
    rfl
  shown b hu hf key hk := by
    obtain ⟨u, huse, hv, hc⟩ := draftUse_bound hs hu
    have hsource : s.world.sourceFor b = .shared key := by
      simp [World.sourceFor, hf, hk, Source.ofKey?]
    rw [(step_use huse).1, answered, World.use_isEnabled hv hc, hsource]
    rfl
  changed key hc := drafts_changed hs hc

/-- A live request switches the draft mode that the host keeps for it. -/
theorem draft_authority_of_request :
    let w : World :=
      { drafts := ⟨[.switch false]⟩
        works := ⟨[{ route := "/" }]⟩
        units := ⟨[{ variant := .request {
          cookies := ⟨0⟩, mutableCookies := ⟨0⟩, headers := ⟨0⟩, draft := some ⟨0⟩ } }]⟩ }
    let s := ((ofWorld w).run [.fetch .draftMode ⟨0⟩ (some ⟨0⟩) (some ⟨0⟩) (some "d")]).1
    let step : Step := .callHandle "d" (.draft .enable)
    s.Reachable ∧ s.DraftLaw step (s.step step) ∧ s.Reaches step ⟨0⟩ true ∧
      ((s.step step).session.world.drafts.get ⟨0⟩).isEnabled = true := by
  intro w s step
  have hw : w.Fresh := fresh_of_one rfl rfl rfl ⟨rfl, rfl, rfl⟩ rfl
  have hs : s.Reachable := (Reachable.fresh hw).run _
  have law := draft_authority hs step
  have ha : s.world.Authorises ⟨⟨0⟩, ⟨0⟩, ⟨0⟩⟩ ⟨0⟩ :=
    ⟨rfl, rfl, rfl, rfl, _, rfl, rfl, by decide⟩
  have hkept : s.world.drafts.get ⟨0⟩ = .switch false := rfl
  exact ⟨hs, law, (law.reaches _ .enable true rfl rfl ⟨0⟩).mpr ha,
    law.kept _ .enable true rfl rfl ⟨0⟩ ha (by rw [hkept]; nofun)⟩

end Session

end RequestAccess
