import RequestAccess.Proofs.Authority
import RequestAccess.Proofs.CookieHeader

/-!
# Draft mode from request to request

How draft mode was switched last decides whether it is on, and which cookie the response carries.
The next request finds it as it was left, if a header brings the preview id back.
-/

namespace RequestAccess

/-- The cookie of a response that has switched draft mode. -/
structure Cookie.IsBypass (c : Cookie) (previewId : String) (on : Bool) : Prop where
  name : c.name = bypassCookieName
  value : c.value = if on then previewId else ""
  isExpired : c.isExpired = !on
  path : c.path = some "/"
  httpOnly : c.httpOnly = true
  secure : c.secure = true

/-- Draft mode after calls of which none has switched it. -/
structure Session.LeavesDraft (s : Session) (key : Key .draft) (response : Key .jar)
    (previewId : String) (request : CookieJar) : Prop where
  isEnabled : (s.step (.callDraft key .isEnabled)).reply = .answer (.flag true) ↔
    ∃ c, request.get? bypassCookieName = some c ∧ c.value = previewId
  cookies : (s.world.jars.get response).toList = []

/-- Draft mode after calls of which the last one to switch it has switched it this way. -/
structure Session.SwitchesDraft (s : Session) (key : Key .draft) (response : Key .jar)
    (previewId : String) (on : Bool) : Prop where
  isEnabled : (s.step (.callDraft key .isEnabled)).reply = .answer (.flag on)
  cookies : ∃ c, (s.world.jars.get response).toList = [c] ∧ c.IsBypass previewId on
  /-- The next request sends the cookies of the response back. -/
  next : ∃ header, (s.step (.callJar response .render)).reply = .answer (.text header) ∧
    ((PreviewDraft.ofRequest previewId (.ofHeader header)).enabled = true ↔
      if on then ';' ∉ previewId.toList ∧ Text.isBare previewId.toList = true
      else previewId = "")

namespace PreviewDraft

/-! ## The cookie -/

theorem isBypass (d : PreviewDraft) (on : Bool) : (d.bypassCookie on).IsBypass d.previewId on := by
  cases on <;> exact ⟨rfl, rfl, rfl, rfl, rfl, rfl⟩

theorem file_file {c c' : Cookie} (h : c.name = c'.name) :
    (CookieJar.empty.file c).file c' = CookieJar.empty.file c' := by
  simp only [CookieJar.file, CookieJar.mk.injEq, and_true]
  ext1 name
  simp only [NameMap.get?_insert, h]
  split <;> rfl

theorem switch_file (d : PreviewDraft) (on : Bool) {c : Cookie} (h : c.name = bypassCookieName) :
    (d.switch on (CookieJar.empty.file c)).2 = CookieJar.empty.file (d.bypassCookie on) :=
  file_file h

theorem plain_of_enabled {previewId header : String}
    (h : (ofRequest previewId (.ofHeader header)).enabled = true) :
    Cookie.isPlainValue previewId.toList = true := by
  obtain ⟨c, hc, hvalue⟩ := (Option.any_eq_true _ _).mp h
  have hplain := CookieJar.value_of_ofHeader hc
  rwa [eq_of_beq hvalue] at hplain

theorem enabled_of_plain (d : PreviewDraft) (on : Bool)
    (h : Cookie.isPlainValue (d.bypassCookie on).value.toList = true) :
    (ofRequest d.previewId (.ofHeader (d.bypassCookie on).render)).enabled = true ↔
      (d.bypassCookie on).value = d.previewId := by
  have hname : Cookie.isPlainName (d.bypassCookie on).name.toList = true := by
    change Cookie.isPlainName bypassCookieName.toList = true
    decide
  have hfound : (CookieJar.ofHeader (d.bypassCookie on).render).get? bypassCookieName = _ :=
    CookieJar.ofHeader_render hname h
  rw [ofRequest, hfound]
  simp

theorem enabled_of_header (d : PreviewDraft) (on : Bool) :
    (ofRequest d.previewId (.ofHeader (d.bypassCookie on).render)).enabled = true ↔
      if on then Cookie.isPlainValue d.previewId.toList = true else d.previewId = "" := by
  cases on with
  | false =>
    have hempty : Cookie.isPlainValue "".toList = true := by decide
    exact (d.enabled_of_plain false hempty).trans eq_comm
  | true => exact ⟨plain_of_enabled, fun h => (d.enabled_of_plain true h).mpr rfl⟩

end PreviewDraft

/-! ## Calls of the host -/

/-- How a world keeps draft mode and the cookies of the response, by how it was switched last. -/
structure World.KeepsDraft (w : World) (key : Key .draft) (response : Key .jar)
    (d : PreviewDraft) (last? : Option Bool) : Prop where
  draft : w.drafts.get key = .preview { d with enabled := last?.getD d.enabled } response
  jar : w.jars.get response = last?.elim .empty fun on => CookieJar.empty.file (d.bypassCookie on)

namespace World.KeepsDraft

variable {w : World} {key : Key .draft} {response : Key .jar} {d : PreviewDraft}
  {last? : Option Bool}

theorem switch (h : w.KeepsDraft key response d last?) (on : Bool) :
    (w.switchDraft key on).KeepsDraft key response d (some on) := by
  have hjar : (PreviewDraft.switch { d with enabled := last?.getD d.enabled } on
      (w.jars.get response)).2 = CookieJar.empty.file (d.bypassCookie on) := by
    rw [h.jar]
    cases last? with
    | none => rfl
    | some old => exact PreviewDraft.switch_file _ on rfl
  unfold switchDraft
  rw [h.draft]
  refine ⟨?_, ?_⟩
  · simp [PreviewDraft.switch]
  · simp [hjar]

theorem call (h : w.KeepsDraft key response d last?) (call : DraftCall) :
    (w.callDraft (.shared key) call).1.KeepsDraft key response d (call.on?.or last?) := by
  cases call with
  | isEnabled => exact h
  | enable => exact h.switch true
  | disable => exact h.switch false

end World.KeepsDraft

namespace Session

variable {s : Session} {key : Key .draft} {response : Key .jar} {d : PreviewDraft}
  {last? : Option Bool}

/-- The last call that switches draft mode decides. -/
theorem keepsDraft_run (h : s.world.KeepsDraft key response d last?) (calls : List DraftCall) :
    (s.run (calls.map (.callDraft key))).1.world.KeepsDraft key response d
      ((calls.filterMap DraftCall.on?).getLast?.or last?) := by
  induction calls generalizing s last? with
  | nil => exact h
  | cons call calls ih =>
    have hrest := ih (s := (s.step (.callDraft key call)).session) (h.call call)
    cases ho : call.on? with
    | none =>
      rw [ho, Option.none_or] at hrest
      rw [List.filterMap_cons_none ho]
      exact hrest
    | some on =>
      rw [ho, Option.some_or] at hrest
      rw [List.filterMap_cons_some ho, List.getLast?_cons, Option.some_or]
      cases hl : (calls.filterMap DraftCall.on?).getLast? <;> rw [hl] at hrest <;> exact hrest

theorem isEnabled_of_keepsDraft (h : s.world.KeepsDraft key response d last?) :
    (s.step (.callDraft key .isEnabled)).reply = .answer (.flag (last?.getD d.enabled)) := by
  simp only [Session.step, World.callDraft, World.draftOf, h.draft]
  rfl

/-- However often the host switches draft mode, the last time decides. It is then on or off, the
response carries one cookie that says so, and the next request finds it so, if a header can bring
the preview id back. Where it is not switched, it is as the cookies of the request say. -/
theorem draft_mode_lasts {previewId : String} {request : CookieJar}
    (hd : s.world.drafts.get key = .preview (.ofRequest previewId request) response)
    (hj : s.world.jars.get response = .empty) (calls : List DraftCall) :
    let t := (s.run (calls.map (.callDraft key))).1
    let switches := calls.filterMap DraftCall.on?
    (switches = [] → t.LeavesDraft key response previewId request) ∧
      ∀ on, switches.getLast? = some on → t.SwitchesDraft key response previewId on := by
  intro t switches
  have hstart : s.world.KeepsDraft key response (.ofRequest previewId request) none := ⟨hd, hj⟩
  have hkeeps := keepsDraft_run hstart calls
  rw [Option.or_none] at hkeeps
  refine ⟨fun hnone => ?_, fun on hon => ?_⟩
  · rw [show calls.filterMap DraftCall.on? = [] from hnone] at hkeeps
    refine ⟨?_, ?_⟩
    · rw [isEnabled_of_keepsDraft hkeeps]
      simp [PreviewDraft.ofRequest, Option.any_eq_true]
    · rw [hkeeps.jar]
      rfl
  · rw [show (calls.filterMap DraftCall.on?).getLast? = some on from hon] at hkeeps
    refine ⟨isEnabled_of_keepsDraft hkeeps, ?_, ?_⟩
    · rw [hkeeps.jar]
      exact ⟨_, rfl, PreviewDraft.isBypass _ on⟩
    · refine ⟨(t.world.jars.get response).render, rfl, ?_⟩
      rw [hkeeps.jar]
      have henabled := PreviewDraft.enabled_of_header (.ofRequest previewId request) on
      rw [Cookie.isPlainValue_iff] at henabled
      exact henabled

/-- An equals sign in the preview id does no harm. -/
theorem draft_mode_lasts_with_equals_sign :
    let w : World :=
      { drafts := ⟨[.preview (.ofRequest "a=b" .sealed) ⟨0⟩]⟩, jars := ⟨[.empty]⟩ }
    let s := ofWorld w
    s.world.drafts.get ⟨0⟩ = .preview (.ofRequest "a=b" .sealed) ⟨0⟩ ∧
      s.world.jars.get ⟨0⟩ = .empty ∧
      (PreviewDraft.ofRequest "a=b" (.ofHeader "__prerender_bypass=a=b")).enabled = true := by
  intro w s
  have hd : s.world.drafts.get ⟨0⟩ = .preview (.ofRequest "a=b" .sealed) ⟨0⟩ := rfl
  have hj : s.world.jars.get ⟨0⟩ = .empty := rfl
  obtain ⟨-, hswitched⟩ := draft_mode_lasts hd hj [.disable, .enable]
  refine ⟨hd, hj, ?_⟩
  obtain ⟨header, hh, hnext⟩ := (hswitched true rfl).next
  have hheader : header = "__prerender_bypass=a=b" := by
    cases hh
    rfl
  exact hheader ▸ hnext.mpr ⟨by decide, by decide⟩

end Session

end RequestAccess
