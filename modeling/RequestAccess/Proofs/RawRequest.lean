import RequestAccess.Proofs.Authority
import RequestAccess.Proofs.CookieHeader
import RequestAccess.Proofs.Maker
import RequestAccess.Proofs.StoreCalls
import RequestAccess.Proofs.Supply
import RequestAccess.Setting

/-!
# The raw resources of a request

Live requests and private cache scopes of one request share its cookies, its headers and the cookies
of its response. The first two never change. The cookies of the response change through an action,
or when draft mode is switched.
-/

namespace RequestAccess

/-! ## Requests -/

/-- A request as it came in, and whether draft mode is kept for it. -/
def Request.received (method : Method) (path : String) (lines : List (String × HeaderValue))
    (previewId : Option String) : Request :=
  { Request.ofHeaders method path (.ofValues lines) with previewId }

/-- A world that has the resources of a request under the keys of a live request. -/
structure World.Carries (w : World) (r : Request) (q : LiveRequest) : Prop where
  cookies : w.jars.get q.cookies = r.cookies
  headers : w.headers.get q.headers = r.headers
  response : w.jars.get q.mutableCookies = .empty
  draft : q.draft.map w.drafts.get = r.draftProvider? q.mutableCookies

/-- A live request, or a private cache scope, that was made over the resources of a request. Other
phases are made over none. -/
def Variant.Over (q : LiveRequest) : Variant → Prop
  | .request p =>
    p.cookies = q.cookies ∧ p.mutableCookies = q.mutableCookies ∧ p.headers = q.headers ∧
      p.draft = q.draft
  | .privateCache cookies headers _ => cookies = q.cookies ∧ headers = q.headers
  | _ => True

/-- A live request before or after its action, or a private cache scope. -/
def Variant.seesRaw : Variant → Bool
  | .request q => q.phase != .action
  | .privateCache .. => true
  | _ => false

def Variant.isAction : Variant → Bool
  | .request q => q.phase == .action
  | _ => false

namespace Moment

/-- What a step after others does to the resources of a request. -/
structure Isolates (m : Moment) (earlier : List Moment) (r : Request) (q : LiveRequest) :
    Prop where
  cookies : m.after.session.world.jars.get q.cookies = r.cookies
  headers : m.after.session.world.headers.get q.headers = r.headers
  /-- Every value that is called came from a fetch. -/
  supplied (u : Use) (hu : m.before.use? m.step = some u) :
    ∃ f ∈ earlier, ∃ g, f.Supplies u.value g
  readonlyCookies (u : Use) (hu : m.before.use? m.step = some u) (c : CookieCall)
    (hc : u.call = .cookies c) (hch : c.isChange = true) (f : Moment) (hf : f ∈ earlier)
    (g : Grant) (hg : f.Supplies u.value g) (hr : g.resource = .cookies)
    (hv : (f.variantOf g).seesRaw = true) : m.reply = .failed (.store .readonlyCookies)
  action (u : Use) (hu : m.before.use? m.step = some u) (c : CookieCall)
    (hc : u.call = .cookies c) (hch : c.isChange = true) (f : Moment) (hf : f ∈ earlier)
    (g : Grant) (hg : f.Supplies u.value g) (hr : g.resource = .cookies)
    (hv : (f.variantOf g).isAction = true) (hw : (f.workOf g).forceStatic = false) :
    m.reply = .answer .done
  readonlyHeaders (u : Use) (hu : m.before.use? m.step = some u) (c : HeaderCall)
    (hc : u.call = .headers c) (hch : c.isChange = true) (f : Moment) (hf : f ∈ earlier)
    (g : Grant) (hg : f.Supplies u.value g) (hr : g.resource = .headers) :
    m.reply = .failed (.store .readonlyHeaders)
  /-- The cookies of the response change through an action, or when draft mode is switched. -/
  response (hne : m.after.session.world.jars.get q.mutableCookies ≠
      m.before.world.jars.get q.mutableCookies) :
    m.reply = .answer .done ∧
      ((∃ u c, m.before.use? m.step = some u ∧ u.call = .cookies c ∧ c.isChange = true ∧
          ∃ f ∈ earlier, ∃ g, f.Supplies u.value g ∧ (f.variantOf g).isAction = true ∧
            (f.workOf g).forceStatic = false ∧ (f.workOf g).dynamicShouldError = false) ∨
        ∃ b call, m.before.draftUse? m.step = some (b, call) ∧ call.isSwitch = true ∧
          (m.before.world.works.get b.work).forceStatic = false)

end Moment

/-! ## What is shared -/

namespace World

/-- The raw resources of a request are as they came in, the cookies of the response can be changed,
and its draft mode is kept in them. -/
structure Isolated (w : World) (r : Request) (q : LiveRequest) : Prop where
  cookies : w.jars.get q.cookies = r.cookies
  headers : w.headers.get q.headers = r.headers
  readonly : r.cookies.readonly = true
  isSealed : r.headers.isSealed = true
  writable : (w.jars.get q.mutableCookies).readonly = false
  draft (key : Key .draft) (hk : q.draft = some key) :
    ∃ d, w.drafts.get key = .preview d q.mutableCookies

variable {w w' : World} {r : Request} {q : LiveRequest}

theorem Carries.isolated (hc : w.Carries r q) (hj : r.cookies.readonly = true)
    (hh : r.headers.isSealed = true) : w.Isolated r q where
  cookies := hc.cookies
  headers := hc.headers
  readonly := hj
  isSealed := hh
  writable := by rw [hc.response, CookieJar.empty]
  draft key hk := by
    have hd := hc.draft
    rw [hk, Option.map_some, Request.draftProvider?] at hd
    cases hid : r.previewId with
    | none => simp [hid] at hd
    | some id =>
      rw [hid, Option.map_some, Option.some.injEq] at hd
      exact ⟨_, hd⟩

theorem Isolated.beside (h : w.Isolated r q) (hj : w'.jars = w.jars)
    (hh : w'.headers = w.headers) (hd : w'.drafts = w.drafts) : w'.Isolated r q := by
  obtain ⟨cookies, headers, readonly, isSealed, writable, draft⟩ := h
  rw [← hj] at cookies writable
  rw [← hh] at headers
  rw [← hd] at draft
  exact ⟨cookies, headers, readonly, isSealed, writable, draft⟩

theorem Isolated.apart (h : w.Isolated r q) : q.cookies ≠ q.mutableCookies := by
  intro same
  have hopen := h.writable
  rw [← same, h.cookies, h.readonly] at hopen
  cases hopen

theorem Isolated.changed (h : w.Isolated r q) {jar : CookieJar} (hopen : jar.readonly = false)
    (hj : w'.jars = w.jars.set q.mutableCookies jar) (hh : w'.headers = w.headers)
    (hd : ∀ key, q.draft = some key → ∃ d, w'.drafts.get key = .preview d q.mutableCookies) :
    w'.Isolated r q := by
  refine ⟨?_, ?_, h.readonly, h.isSealed, ?_, hd⟩
  · rw [hj, Table.get_set, if_neg h.apart, h.cookies]
  · rw [hh, h.headers]
  · rw [hj, Table.get_set, if_pos rfl, hopen]

theorem readonly_switch (d : PreviewDraft) (on : Bool) {jar : CookieJar}
    (hopen : jar.readonly = false) : (d.switch on jar).2.readonly = false := by
  simp [PreviewDraft.switch, CookieJar.set, CookieJar.ifWritable, hopen, CookieJar.file]

theorem Isolated.switched (h : w.Isolated r q) {key : Key .draft} (hk : q.draft = some key)
    (on : Bool) (hj : w'.jars = (w.switchDraft key on).jars) (hh : w'.headers = w.headers)
    (hd : w'.drafts = (w.switchDraft key on).drafts) : w'.Isolated r q := by
  obtain ⟨d, hkept⟩ := h.draft key hk
  simp only [switchDraft, hkept] at hj hd
  refine h.changed (readonly_switch d on h.writable) hj hh ?_
  intro other hother
  cases hk.symm.trans hother
  exact ⟨_, by rw [hd, Table.get_set, if_pos rfl]⟩

/-! ## Calls -/

/-- What a call that was not refused does to the stores: nothing, or it changes the cookies of the
response, or it switches a draft mode. -/
inductive Touches (w : World) (q : LiveRequest) (u : Use) : Prop where
  | nothing (hj : (w.use u).world.jars = w.jars) (hh : (w.use u).world.headers = w.headers)
      (hd : (w.use u).world.drafts = w.drafts)
  | response (c : CookieCall) (changed : CookieJar) (hc : u.call = .cookies c)
      (hch : c.isChange = true) (hv : u.value = .cookies (.shared q.mutableCookies))
      (hr : changed.readonly = false) (ho : (w.use u).result = .ok .done)
      (hj : (w.use u).world.jars = w.jars.set q.mutableCookies changed)
      (hh : (w.use u).world.headers = w.headers) (hd : (w.use u).world.drafts = w.drafts)
  | draft (b : Binding) (call : DraftCall) (key : Key .draft) (on : Bool)
      (hv : u.value = .draft (.shared key) b) (hc : u.call = .draft call)
      (hon : call.on? = some on) (ha : w.Authorises b key) (ho : (w.use u).result = .ok .done)
      (hj : (w.use u).world.jars = (w.switchDraft key on).jars)
      (hh : (w.use u).world.headers = w.headers)
      (hd : (w.use u).world.drafts = (w.switchDraft key on).drafts)

section Calls

variable {u : Use} {source : Source .jar} {c : CookieCall}

theorem use_undecided (ha : u.value.attempt? u.call = none) :
    (w.use u).world = ((w.seen u).1.perform u.value u.call).1 ∧
      (w.use u).result = ((w.seen u).1.perform u.value u.call).2.mapError .store := by
  have hd := decide_of_no_attempt (w := w) ha
  have hok : (w.decide u.value u.call).result = .ok () := by rw [hd]
  obtain ⟨hworld, hresult⟩ := use_ok hok
  rw [hd] at hworld hresult
  exact ⟨hworld, hresult⟩

theorem seen_stores (w : World) (u : Use) :
    (w.seen u).1.jars = w.jars ∧ (w.seen u).1.headers = w.headers ∧
      (w.seen u).1.drafts = w.drafts := by
  rw [seen_frame]
  exact ⟨rfl, rfl, rfl⟩

theorem touches_of_seen (ha : u.value.attempt? u.call = none)
    (hw : ((w.seen u).1.perform u.value u.call).1 = (w.seen u).1) : w.Touches q u := by
  obtain ⟨hj, hh, hd⟩ := w.seen_stores u
  have hworld := (use_undecided ha).1.trans hw
  refine .nothing ?_ ?_ ?_
  · rw [hworld, hj]
  · rw [hworld, hh]
  · rw [hworld, hd]

theorem use_readonlyCookies (hv : u.value = .cookies source) (hc : u.call = .cookies c)
    (hr : (w.jarOf source).readonly = true) :
    w.Touches q u ∧
      (c.isChange = true → (w.use u).result = .error (.store .readonlyCookies)) := by
  have ha : u.value.attempt? u.call = none := by rw [hv, hc]; rfl
  have hsame : (w.seen u).1.jarOf source = w.jarOf source := by
    cases source with
    | blank => rfl
    | shared key => simp only [jarOf, (w.seen_stores u).1]
  obtain ⟨hworld, hresult⟩ := callJar_readonly (hsame ▸ hr) c
  have hperform : (w.seen u).1.perform u.value u.call = (w.seen u).1.callJar source c := by
    rw [hv, hc]
    rfl
  refine ⟨touches_of_seen ha ?_, fun hch => ?_⟩
  · rw [hperform, hworld]
  · rw [(use_undecided ha).2, hperform, hresult hch]
    rfl

theorem use_response (hv : u.value = .cookies (.shared q.mutableCookies))
    (hc : u.call = .cookies c) (hr : (w.jars.get q.mutableCookies).readonly = false) :
    w.Touches q u ∧ (c.isChange = true → (w.use u).result = .ok .done) := by
  have ha : u.value.attempt? u.call = none := by rw [hv, hc]; rfl
  obtain ⟨hj, hh, hd⟩ := w.seen_stores u
  have hperform : (w.seen u).1.perform u.value u.call =
      (w.seen u).1.callJar (.shared q.mutableCookies) c := by
    rw [hv, hc]
    rfl
  obtain ⟨hworld, hresult⟩ := use_undecided (w := w) ha
  rw [hperform] at hworld hresult
  obtain ⟨hch, hsame⟩ | ⟨hch, changed, hopen, hcall⟩ := callJar_writable (hj ▸ hr) c
  · refine ⟨touches_of_seen ha (hperform ▸ hsame), ?_⟩
    simp [hch]
  · rw [hcall] at hworld hresult
    refine ⟨.response c changed hc hch hv hopen hresult ?_ ?_ ?_, fun _ => hresult⟩
    · rw [hworld, hj]
    · rw [hworld, hh]
    · rw [hworld, hd]

theorem use_readonlyHeaders {source : Source .headers} {c : HeaderCall}
    (hv : u.value = .headers source) (hc : u.call = .headers c)
    (hs : (w.headersOf source).isSealed = true) :
    w.Touches q u ∧
      (c.isChange = true → (w.use u).result = .error (.store .readonlyHeaders)) := by
  have ha : u.value.attempt? u.call = none := by rw [hv, hc]; rfl
  have hsame : (w.seen u).1.headersOf source = w.headersOf source := by
    cases source with
    | blank => rfl
    | shared key => simp only [headersOf, (w.seen_stores u).2.1]
  obtain ⟨hworld, hresult⟩ := callHeaders_sealed (hsame ▸ hs) c
  have hperform : (w.seen u).1.perform u.value u.call = (w.seen u).1.callHeaders source c := by
    rw [hv, hc]
    rfl
  refine ⟨touches_of_seen ha ?_, fun hch => ?_⟩
  · rw [hperform, hworld]
  · rw [(use_undecided ha).2, hperform, hresult hch]
    rfl

theorem use_draft {source : Source .draft} {b : Binding} {call : DraftCall}
    (hv : u.value = .draft source b) (hc : u.call = .draft call) (hb : w.Bound u.value)
    (hd : (w.decide u.value u.call).result = .ok ()) : w.Touches q u := by
  cases hon : call.on? with
  | none =>
    have hcall : call = .isEnabled := by
      cases call with
      | isEnabled => rfl
      | enable | disable => simp [DraftCall.on?] at hon
    have ha : u.value.attempt? u.call = none := by rw [hv, hc, hcall]; rfl
    exact touches_of_seen ha (by rw [hv, hc, hcall]; rfl)
  | some on =>
    -- What `use_switched` leaves open is the headers, which no switch changes.
    obtain ⟨hdrafts, hjars, ho, -⟩ := use_switched hv hc hon hd
    have hheaders : (w.use u).world.headers = w.headers := by
      rw [(use_ok hd).1, hv, hc, perform_switched _ source b hon]
      have hseen : ((w.decide u.value u.call).world.seen u).1.headers = w.headers := by
        rw [seen_frame, decide_frame hd]
      cases source with
      | blank => rw [← hv, ← hc]; exact hseen
      | shared key =>
        simp only [switchSource]
        rw [switchDraft_frame, ← hv, ← hc]
        exact hseen
    cases source with
    | blank => exact .nothing hjars hheaders hdrafts
    | shared key =>
      have hsource : w.sourceFor b = .shared key := by
        rw [hv] at hb
        exact hb.symm
      have hdecide : w.decide u.value u.call = w.decideSwitch b call.expression :=
        decide_switch (hv.trans (by rw [hsource])) hc hon
      have ha := authorises_of_decided (hdecide ▸ hd) hsource
      exact .draft b call key on hv hc hon ha ho hjars hheaders hdrafts

end Calls

end World

/-! ## Units of one request -/

namespace Variant

variable {q : LiveRequest} {v : Variant}

theorem over_congr {v' : Variant} (hm : v.asMade = v'.asMade) : v.Over q ↔ v'.Over q := by
  have asMade (v : Variant) : v.asMade.Over q ↔ v.Over q := by
    cases v <;> exact Iff.rfl
  rw [← asMade, hm, asMade]

theorem phase_of_isAction (ha : v.isAction = true) : v.phase = .request := by
  cases v with
  | request p => rfl
  | _ => cases ha

theorem Over.jar?_of_seesRaw (h : v.Over q) (hs : v.seesRaw = true) : v.jar? = some q.cookies := by
  cases v with
  | request p =>
    have hphase : p.phase ≠ .action := by simpa [seesRaw] using hs
    have hvisible : p.visibleCookies = p.cookies := by
      unfold LiveRequest.visibleCookies
      split
      · contradiction
      · rfl
      · rfl
    simp only [jar?, hvisible, h.1]
  | privateCache cookies headers forwarded => exact congrArg some h.1
  | _ => cases hs

theorem Over.jar?_of_isAction (h : v.Over q) (ha : v.isAction = true) :
    v.jar? = some q.mutableCookies := by
  cases v with
  | request p =>
    have hphase : p.phase = .action := by simpa [isAction] using ha
    simp only [jar?, LiveRequest.visibleCookies, hphase, h.2.1]
  | _ => cases ha

theorem Over.jar (h : v.Over q) {jar : Key .jar} (hj : v.jar? = some jar) :
    jar = q.cookies ∨ jar = q.mutableCookies ∧ v.isAction = true := by
  cases ha : v.isAction with
  | true => exact .inr ⟨Option.some.inj (hj.symm.trans (h.jar?_of_isAction ha)), rfl⟩
  | false =>
    have hs : v.seesRaw = true := by
      cases v with
      | request p => simpa [seesRaw, isAction] using ha
      | privateCache _ _ _ => rfl
      | _ => cases hj
    exact .inl (Option.some.inj (hj.symm.trans (h.jar?_of_seesRaw hs)))

theorem Over.headers (h : v.Over q) {key : Key .headers} (hk : v.headers? = some key) :
    key = q.headers := by
  cases v with
  | request p =>
    cases hk
    exact h.2.2.1
  | privateCache cookies headers forwarded =>
    cases hk
    exact h.2
  | _ => cases hk

end Variant

/-! ## Runs -/

/-- A session with the run that has led to it, in which no unit works with anything but the
resources of one request. -/
structure Session.Confined (r : Request) (q : LiveRequest) (run : List Moment) (s : Session) :
    Prop where
  traced : s.Traced run
  units (k : Key .unit) : (s.world.units.get k).variant.Over q
  isolated : s.world.Isolated r q
  supplied (v : Value) (hv : s.Reads v) : ∃ f ∈ run, ∃ g, f.Supplies v g

namespace Session.Confined

variable {r : Request} {q : LiveRequest} {run : List Moment} {s : Session} {step : Step} {u : Use}
  {f : Moment} {g : Grant}

theorem past (hs : s.Confined r q run) (hf : f ∈ run) (g : Grant) : (f.variantOf g).Over q :=
  (Variant.over_congr ((hs.traced.evolves f hf).unit g.unit).made).mp (hs.units g.unit)

theorem cookies (hs : s.Confined r q run) {source : Source .jar} (hf : f ∈ run)
    (hg : f.Supplies (.cookies source) g) :
    (s.world.jarOf source).readonly = true ∨
      source = .shared q.mutableCookies ∧ (f.variantOf g).isAction = true ∧
        (f.workOf g).forceStatic = false := by
  have hsound := hs.traced.recorded.past f hf
  obtain ⟨hv, -⟩ | ⟨jar, hv, hj, hlive⟩ := hg.cookies hsound (hg.resource hsound).symm
  · cases hv
    exact .inl rfl
  · cases hv
    obtain rfl | ⟨rfl, haction⟩ := (hs.past hf g).jar hj
    · refine .inl ?_
      rw [World.jarOf, hs.isolated.cookies, hs.isolated.readonly]
    · exact .inr ⟨rfl, haction, hlive⟩

theorem headers (hs : s.Confined r q run) {source : Source .headers} (hf : f ∈ run)
    (hg : f.Supplies (.headers source) g) : (s.world.headersOf source).isSealed = true := by
  have hsound := hs.traced.recorded.past f hf
  obtain hv | ⟨key, hv, hk⟩ := hg.headers hsound (hg.resource hsound).symm
  · cases hv
    rfl
  · cases hv
    rw [World.headersOf, (hs.past hf g).headers hk, hs.isolated.headers, hs.isolated.isSealed]

theorem touches (hs : s.Confined r q run) (hu : s.use? step = some u)
    (hd : (s.world.decide u.value u.call).result = .ok ()) : s.world.Touches q u := by
  have hread := use_reads hu
  obtain ⟨through, value, call⟩ := u
  obtain ⟨f, hf, g, hg⟩ := hs.supplied value hread
  cases value with
  | cookies source =>
    cases call with
    | cookies c =>
      obtain hr | ⟨rfl, -, -⟩ := hs.cookies hf hg
      · exact (World.use_readonlyCookies rfl rfl hr).1
      · exact (World.use_response rfl rfl hs.isolated.writable).1
    | headers c | draft c => exact World.touches_of_seen rfl rfl
  | headers source =>
    cases call with
    | headers c => exact (World.use_readonlyHeaders rfl rfl (hs.headers hf hg)).1
    | cookies c | draft c => exact World.touches_of_seen rfl rfl
  | draft source b =>
    cases call with
    | draft c =>
      have hbound : s.world.Bound (.draft source b) :=
        hs.traced.reachable.reads (P := World.Bound) (fun _ _ _ _ _ hm hh => hm.bound hh)
          (fun _ _ _ e h => h.evolves e) hread
      exact World.use_draft rfl rfl hbound hd
    | cookies c | headers c => exact World.touches_of_seen rfl rfl

theorem draft_of_authorises (hs : s.Confined r q run) {b : Binding} {key : Key .draft}
    (ha : s.world.Authorises b key) : q.draft = some key := by
  obtain ⟨p, hv, hk, -⟩ := ha.request
  have hover := hs.units b.unit
  rw [hv] at hover
  exact hover.2.2.2.symm.trans hk

theorem isolated_use (hs : s.Confined r q run) (ht : s.world.Touches q u) :
    (s.world.use u).world.Isolated r q := by
  cases ht with
  | nothing hj hh hd => exact hs.isolated.beside hj hh hd
  | response c changed _ _ _ hopen _ hj hh hd =>
    refine hs.isolated.changed hopen hj hh ?_
    rw [hd]
    exact hs.isolated.draft
  | draft b call key on _ _ _ ha _ hj hh hd =>
    exact hs.isolated.switched (hs.draft_of_authorises ha) on hj hh hd

end Session.Confined

theorem Session.stores_of_no_use {s : Session} {step : Step} (hh : step.isHost = false)
    (hn : ∀ u, s.use? step = some u → (s.world.decide u.value u.call).result ≠ .ok ()) :
    (s.step step).session.world.jars = s.world.jars ∧
      (s.step step).session.world.headers = s.world.headers ∧
      (s.step step).session.world.drafts = s.world.drafts := by
  cases s.effect step with
  | refused a e events w ha hr h =>
    rw [h]
    exact ⟨hr.spares.jars, hr.spares.headers, hr.spares.drafts⟩
  | given b r h ha hg hm =>
    rw [hg.frame]
    exact ⟨rfl, rfl, rfl⟩
  | used u hu hd h => exact absurd hd (hn u hu)
  | listened h =>
    rw [listened_frame h]
    exact ⟨rfl, rfl, rfl⟩
  | aborted key h | workDropped key h | unitDropped key h =>
    subst h
    exact ⟨rfl, rfl, rfl⟩
  | hostJar key call h | hostHeaders key call h | hostDraft key call h =>
    subst h
    cases hh

namespace Session.Confined

variable {r : Request} {q : LiveRequest} {run earlier : List Moment} {s : Session} {m : Moment}

theorem ofWorld {w : World} (hw : w.Fresh) (hc : w.Isolated r q)
    (hv : ∀ k, (w.units.get k).variant.Over q) : Confined r q [] (Session.ofWorld w) where
  traced := ⟨.fresh hw, .ofWorld hw, nofun⟩
  units := hv
  isolated := hc
  supplied v hr := by
    cases hr with
    | value name hn => cases hn
    | handle h hh _ => exact absurd hh (not_holds_of_fresh hw)

theorem step (hs : s.Confined r q run) {step : Step} (hh : step.isHost = false) :
    Confined r q (run ++ [⟨s, step⟩]) (s.step step).session where
  traced := hs.traced.step step
  units k := (Variant.over_congr ((s.step_evolves step).unit k).made).mpr (hs.units k)
  isolated := by
    by_cases hn : ∃ u, s.use? step = some u ∧ (s.world.decide u.value u.call).result = .ok ()
    · obtain ⟨u, hu, hd⟩ := hn
      rw [(step_use hu).1]
      exact hs.isolated_use (hs.touches hu hd)
    · obtain ⟨hj, hheaders, hd⟩ := stores_of_no_use hh fun u hu hd => hn ⟨u, hu, hd⟩
      exact hs.isolated.beside hj hheaders hd
  supplied v hr := by
    rcases reads_step hr with hold | ⟨b, resource, h, hm, hv⟩
    · obtain ⟨f, hf, hg⟩ := hs.supplied v hold
      exact ⟨f, List.mem_append_left _ hf, hg⟩
    · exact ⟨_, List.mem_append_right _ (List.mem_singleton.mpr rfl),
        Moment.supplies_of_makes hm hv⟩

/-- The cookies of the response change by an accepted use only. -/
theorem response (hs : m.before.Confined r q earlier) (hh : m.step.isHost = false)
    (hne : m.after.session.world.jars.get q.mutableCookies ≠
      m.before.world.jars.get q.mutableCookies) :
    m.reply = .answer .done ∧
      ((∃ u c, m.before.use? m.step = some u ∧ u.call = .cookies c ∧ c.isChange = true ∧
          ∃ f ∈ earlier, ∃ g, f.Supplies u.value g ∧ (f.variantOf g).isAction = true ∧
            (f.workOf g).forceStatic = false ∧ (f.workOf g).dynamicShouldError = false) ∨
        ∃ b call, m.before.draftUse? m.step = some (b, call) ∧ call.isSwitch = true ∧
          (m.before.world.works.get b.work).forceStatic = false) := by
  obtain ⟨s, step⟩ := m
  by_cases hn : ∃ u, s.use? step = some u ∧ (s.world.decide u.value u.call).result = .ok ()
  · obtain ⟨u, hu, hd⟩ := hn
    have hafter : Moment.after ⟨s, step⟩ = s.answered (s.world.use u) := (step_use hu).1
    have hreply (ho : (s.world.use u).result = .ok .done) :
        Moment.reply ⟨s, step⟩ = .answer .done := by
      rw [Moment.reply, hafter, answered, ho]
    rw [hafter] at hne
    cases hs.touches hu hd with
    | nothing hj _ _ => exact absurd (congrArg (·.get q.mutableCookies) hj) hne
    | response c changed hc hch hv _ ho _ _ _ =>
      obtain ⟨f, hf, g, hg⟩ := hs.supplied u.value (use_reads hu)
      have hsupply := hg
      rw [hv] at hsupply
      have hopen : ¬ (s.world.jarOf (.shared q.mutableCookies)).readonly = true := by
        simp [World.jarOf, hs.isolated.writable]
      obtain ⟨-, haction, hlive⟩ := (hs.cookies hf hsupply).resolve_left hopen
      refine ⟨hreply ho, .inl ⟨u, c, hu, hc, hch, f, hf, g, hg, haction, hlive, ?_⟩⟩
      exact hg.dynamicShouldError (Variant.phase_of_isAction haction) hlive
    | draft b call key on hv hc hon ha ho _ _ _ =>
      refine ⟨hreply ho, .inr ⟨b, call, ?_, ?_, ha.forceStatic⟩⟩
      · obtain ⟨through, v, c⟩ := u
        subst hv hc
        simp [draftUse?, hu]
      · cases call with
        | isEnabled => cases hon
        | enable | disable => rfl
  · have hj := (stores_of_no_use hh fun u hu hd => hn ⟨u, hu, hd⟩).1
    exact absurd (congrArg (·.get q.mutableCookies) hj) hne

theorem isolates (hs : m.before.Confined r q earlier) (hh : m.step.isHost = false) :
    m.Isolates earlier r q := by
  have hafter := hs.step hh
  have answered {u : Use} (hu : m.before.use? m.step = some u) :
      m.reply = (m.before.answered (m.before.world.use u)).reply :=
    congrArg After.reply (step_use hu).1
  have failed {u : Use} {e : AccessError} (hu : m.before.use? m.step = some u)
      (he : (m.before.world.use u).result = .error e) : m.reply = .failed e := by
    rw [answered hu, Session.answered, he]
  refine ⟨hafter.isolated.cookies, hafter.isolated.headers, ?_, ?_, ?_, ?_, hs.response hh⟩
  · exact fun u hu => hs.supplied u.value (use_reads hu)
  · intro u hu c hc hch f hf g hg hr hv
    have hsound := hs.traced.recorded.past f hf
    obtain ⟨source, hvalue, hreadonly⟩ : ∃ source, u.value = .cookies source ∧
        (m.before.world.jarOf source).readonly = true := by
      obtain ⟨hvalue, -⟩ | ⟨jar, hvalue, hj, -⟩ := hg.cookies hsound hr
      · exact ⟨_, hvalue, rfl⟩
      · refine ⟨_, hvalue, ?_⟩
        cases hj.symm.trans ((hs.past hf g).jar?_of_seesRaw hv)
        rw [World.jarOf, hs.isolated.cookies, hs.isolated.readonly]
    exact failed hu ((World.use_readonlyCookies (q := q) hvalue hc hreadonly).2 hch)
  · intro u hu c hc hch f hf g hg hr hv hlive
    have hsound := hs.traced.recorded.past f hf
    obtain ⟨-, hstatic⟩ | ⟨jar, hvalue, hj, -⟩ := hg.cookies hsound hr
    · simp [hlive] at hstatic
    · cases hj.symm.trans ((hs.past hf g).jar?_of_isAction hv)
      have hdone := (World.use_response hvalue hc hs.isolated.writable).2 hch
      rw [answered hu, Session.answered, hdone]
  · intro u hu c hc hch f hf g hg hr
    have hsound := hs.traced.recorded.past f hf
    obtain ⟨source, hvalue⟩ : ∃ source, u.value = .headers source := by
      obtain hvalue | ⟨key, hvalue, -⟩ := hg.headers hsound hr
      · exact ⟨_, hvalue⟩
      · exact ⟨_, hvalue⟩
    have hsealed := hs.headers hf (hvalue ▸ hg)
    exact failed hu ((World.use_readonlyHeaders (q := q) hvalue hc hsealed).2 hch)

end Session.Confined

/-! ## The law -/

/-- Live requests and private cache scopes of one request, however many, leave its cookies and its
headers as they came in, and refuse every change of them. The cookies of its response change through
an action, or when draft mode is switched. -/
theorem raw_resources_isolated (method : Method) (path : String)
    (lines : List (String × HeaderValue)) (previewId : Option String) {w : World} (hw : w.Fresh)
    {q : LiveRequest} (hc : w.Carries (.received method path lines previewId) q)
    (hv : ∀ k, (w.units.get k).variant.Over q) {steps : List Step}
    (hsteps : ∀ step ∈ steps, step.isHost = false) {earlier later : List Moment} {m : Moment}
    (hrun : (Session.ofWorld w).moments steps = earlier ++ m :: later) :
    m.Isolates earlier (.received method path lines previewId) q := by
  have hstart : Session.Confined (.received method path lines previewId) q [] (.ofWorld w) :=
    .ofWorld hw (hc.isolated (CookieJar.readonly_ofHeader _) (Headers.isSealed_ofValues _)) hv
  have hbefore := Session.run_with_moments_at
    (P := fun run s => (∀ o ∈ run, o.step.isHost = false) → s.Confined _ q run)
    (fun run s step hs hrun => (hs fun o ho => hrun o (List.mem_append_left _ ho)).step
      (hrun ⟨s, step⟩ (List.mem_append_right _ (List.mem_singleton.mpr rfl))))
    (fun _ => hstart) hrun
  have hhost (o : Moment) (ho : o ∈ earlier ++ m :: later) : o.step.isHost = false :=
    hsteps _ (Session.step_mem_of_moments (hrun ▸ ho))
  refine (hbefore fun o ho => hhost o (List.mem_append_left _ ho)).isolates (hhost m ?_)
  exact List.mem_append_right _ List.mem_cons_self

/-- A render and an action of one request get its cookies. Only the action can set one. -/
theorem raw_resources_isolated_from_render :
    let r : Request := .received .get "/" [] (some "id")
    let q : LiveRequest :=
      { cookies := ⟨0⟩, mutableCookies := ⟨1⟩, headers := ⟨0⟩, draft := some ⟨0⟩ }
    let w : World :=
      { jars := ⟨[r.cookies, .empty]⟩
        headers := ⟨[r.headers]⟩
        drafts := ⟨[.preview (.ofRequest "id" r.cookies) ⟨1⟩]⟩
        works := ⟨[{ route := "/" }]⟩
        units :=
          ⟨[{ variant := .request q }, { variant := .request { q with phase := .action } }]⟩ }
    let set : Call := .cookies (.set { name := "theme", value := "dark" })
    let render : Step := .fetch .cookies ⟨0⟩ (some ⟨0⟩) (some ⟨0⟩) (some "render")
    let action : Step := .fetch .cookies ⟨0⟩ (some ⟨0⟩) (some ⟨1⟩) (some "action")
    let s := Session.ofWorld w
    let earlier := s.moments [render, action]
    let fetched := (s.run [render, action]).1
    Moment.Isolates ⟨fetched, .callHandle "render" set⟩ earlier r q ∧
      Moment.Isolates ⟨fetched, .callHandle "action" set⟩ earlier r q ∧
      Moment.reply ⟨fetched, .callHandle "render" set⟩ = .failed (.store .readonlyCookies) ∧
      Moment.reply ⟨fetched, .callHandle "action" set⟩ = .answer .done := by
  intro r q w set render action s earlier fetched
  have hw : w.Fresh := by
    refine fresh_of_rows w ?_ ?_ rfl
    · intro work hwork
      rw [List.mem_singleton.mp hwork]
      exact ⟨rfl, rfl, rfl⟩
    · intro u hu
      simp only [w, List.mem_cons, List.not_mem_nil, or_false] at hu
      rcases hu with rfl | rfl <;> exact ⟨rfl, rfl⟩
  have hc : w.Carries r q := ⟨rfl, rfl, rfl, rfl⟩
  have hv : ∀ k, (w.units.get k).variant.Over q := by
    refine Table.forall_get (P := fun u : WorkUnit => u.variant.Over q) ?_ trivial
    intro u hu
    simp only [w, List.mem_cons, List.not_mem_nil, or_false] at hu
    rcases hu with rfl | rfl <;> exact ⟨rfl, rfl, rfl, rfl⟩
  have isolated (name : String) : Moment.Isolates ⟨fetched, .callHandle name set⟩ earlier r q := by
    have hrun : s.moments [render, action, .callHandle name set] =
        earlier ++ ⟨fetched, .callHandle name set⟩ :: [] := rfl
    refine raw_resources_isolated .get "/" [] (some "id") hw hc hv ?_ hrun
    intro step hstep
    simp only [List.mem_cons, List.not_mem_nil, or_false] at hstep
    rcases hstep with rfl | rfl | rfl <;> rfl
  exact ⟨isolated "render", isolated "action", rfl, rfl⟩

end RequestAccess
