import RequestAccess.Proofs.Sightings

/-!
# Expressions of calls

The expression of a call names what the call does and the name that it is given, and nothing else.
Guards and pending handles spell it apart and alike, and a reporter holds two calls for one only if
they do the same with the same name.
-/

namespace RequestAccess

/-! ## What an expression tells -/

/-- What a call does, whatever it is given. -/
inductive Operation where
  | getCookie
  | allCookies
  | hasCookie
  | countCookies
  | setCookie
  | deleteCookie
  | clearCookies
  | renderCookies
  | getHeader
  | getSetCookies
  | hasHeader
  | headerEntries
  | headerKeys
  | headerValues
  | setHeader
  | appendHeader
  | deleteHeader
  | readDraft
  | enableDraft
  | disableDraft
deriving DecidableEq

def Call.operation : Call → Operation
  | .cookies (.get _) => .getCookie
  | .cookies .getAll => .allCookies
  | .cookies (.has _) => .hasCookie
  | .cookies .size => .countCookies
  | .cookies (.set _) => .setCookie
  | .cookies (.delete _) => .deleteCookie
  | .cookies .clear => .clearCookies
  | .cookies .render => .renderCookies
  | .headers (.get _) => .getHeader
  | .headers .getSetCookie => .getSetCookies
  | .headers (.has _) => .hasHeader
  | .headers .entries => .headerEntries
  | .headers .keys => .headerKeys
  | .headers .values => .headerValues
  | .headers (.set ..) => .setHeader
  | .headers (.append ..) => .appendHeader
  | .headers (.delete _) => .deleteHeader
  | .draft .isEnabled => .readDraft
  | .draft .enable => .enableDraft
  | .draft .disable => .disableDraft

/-- The name that a call is given. What is set or appended does not count. -/
def Call.name? : Call → Option String
  | .cookies (.get name) | .cookies (.has name) | .cookies (.delete name) => some name
  | .headers (.get name) | .headers (.has name) | .headers (.delete name) => some name
  | _ => none

namespace Operation

def all : List Operation :=
  [getCookie, allCookies, hasCookie, countCookies, setCookie, deleteCookie, clearCookies,
    renderCookies, getHeader, getSetCookies, hasHeader, headerEntries, headerKeys, headerValues,
    setHeader, appendHeader, deleteHeader, readDraft, enableDraft, disableDraft]

theorem mem_all (o : Operation) : o ∈ all := by cases o <;> decide

/-- The expression up to the name, or all of it where there is none. -/
def opening : Operation → String
  | getCookie => "cookies().get('"
  | allCookies => "cookies().getAll()"
  | hasCookie => "cookies().has('"
  | countCookies => "cookies().size"
  | setCookie => "cookies().set(...)"
  | deleteCookie => "cookies().delete('"
  | clearCookies => "cookies().clear()"
  | renderCookies => "cookies().toString()"
  | getHeader => "headers().get('"
  | getSetCookies => "headers().getSetCookie()"
  | hasHeader => "headers().has('"
  | headerEntries => "headers().entries()"
  | headerKeys => "headers().keys()"
  | headerValues => "headers().values()"
  | setHeader => "headers().set(...)"
  | appendHeader => "headers().append(...)"
  | deleteHeader => "headers().delete('"
  | readDraft => "draftMode().isEnabled"
  | enableDraft => "draftMode().enable()"
  | disableDraft => "draftMode().disable()"

/-- No operation's expression starts with that of another, so that what comes behind it cannot
make up for the difference. -/
theorem eq_of_opening_prefix {o p : Operation} (h : o.opening.toList <+: p.opening.toList) :
    o = p := by
  have hall : ∀ o ∈ all, ∀ p ∈ all, o.opening.toList <+: p.opening.toList → o = p := by
    decide +kernel
  exact hall o o.mem_all p p.mem_all h

end Operation

namespace Call

/-- The rest of an expression. -/
def closing : Option String → String
  | some name => name ++ "')"
  | none => ""

theorem closing_injective {a b : Option String} (h : closing a = closing b) : a = b := by
  have hne (name : String) : name ++ "')" ≠ "" := by
    intro hempty
    have hlength := congrArg String.length hempty
    rw [String.length_append] at hlength
    exact absurd hlength (Nat.succ_ne_zero _)
  cases a with
  | none =>
    cases b with
    | none => rfl
    | some n => exact absurd h.symm (hne n)
  | some m =>
    cases b with
    | none => exact absurd h (hne m)
    | some n =>
      have hchars := congrArg String.toList h
      simp only [closing, String.toList_append] at hchars
      rw [String.toList_inj.mp (List.append_cancel_right hchars)]

theorem expression_eq (c : Call) : c.expression = c.operation.opening ++ closing c.name? := by
  cases c with
  | cookies c =>
    cases c with
    | get name | has name | delete name => exact String.append_assoc ..
    | _ => exact String.append_empty.symm
  | headers c =>
    cases c with
    | get name | has name | delete name => exact String.append_assoc ..
    | _ => exact String.append_empty.symm
  | draft c => cases c <;> exact String.append_empty.symm

theorem expression_eq_iff (a b : Call) :
    a.expression = b.expression ↔ a.operation = b.operation ∧ a.name? = b.name? := by
  constructor
  · intro h
    have hchars := congrArg String.toList h
    simp only [expression_eq, String.toList_append] at hchars
    have ha := List.prefix_append a.operation.opening.toList (closing a.name?).toList
    have hb := List.prefix_append b.operation.opening.toList (closing b.name?).toList
    rw [hchars] at ha
    have hoperation : a.operation = b.operation := by
      rcases List.prefix_or_prefix_of_prefix ha hb with hp | hp
      · exact Operation.eq_of_opening_prefix hp
      · exact (Operation.eq_of_opening_prefix hp).symm
    rw [hoperation, List.append_right_inj] at hchars
    exact ⟨hoperation, closing_injective (String.toList_inj.mp hchars)⟩
  · rintro ⟨hoperation, hname⟩
    rw [expression_eq, expression_eq, hoperation, hname]

end Call

/-! ## Who speaks of a call -/

/-- A call that is told on a route. -/
structure Telling where
  route : Option String
  call : Call
  /-- Whether the call ended a dry run. -/
  escalated : Bool := false

def Telling.diagnostic (t : Telling) : Diagnostic :=
  .ofUse t.route t.call.observed t.call.resource.api t.escalated

namespace World

variable (w : World)

theorem decide_undecided {c : Call} (hc : c.resource ≠ .draftMode) (v : Value) :
    w.decide v c = { world := w, result := .ok () } := by
  refine decide_of_no_attempt ?_
  unfold Value.attempt?
  split
  · exact absurd rfl hc
  · rfl

theorem told_callHandle {c : Call} (hc : c.resource ≠ .draftMode) {h : Handle} {g : Guard}
    {v : Value} (hg : h.guard? = some g) (hs : h.state = .resolved v) (hr : h.resource = c.resource)
    (ha : h.id ∉ w.awaited) :
    (w.callHandle h c).world.reporters.get g.reporter = (w.reporters.get g.reporter).tell
      [Telling.diagnostic ⟨some g.route, c, w.startsDry g.unit⟩] := by
  have hd : (w.decide v c).result = .ok () := by rw [w.decide_undecided hc v]
  have hsees : w.sees? ⟨some h, v, c⟩ = some
      { reporter := g.reporter, unit := g.unit, route := g.route, expression := c.expression,
        api := h.resource.api } := by
    simp [sees?, hg, ha]
  have htold := (relays_use (u := ⟨some h, v, c⟩) hd).told g.reporter
  rw [Session.use_callHandle hs, htold, hsees, toldOf, if_pos rfl, hr, Telling.diagnostic,
    c.observed_eq]

theorem callHandle_pending {h : Handle} {r : Resource} {key : Key .signal} {route : String}
    (hs : h.state = .pending r key route) (c : Call) : (w.callHandle h c).result =
      .error (.syncAccessUnavailable route c.expression r.api) := by
  rw [callHandle, hs]
  rfl

end World

/-! ## What a reporter holds for the same -/

namespace Reporter

theorem report_eq_self_iff (r : Reporter) (d : Diagnostic) :
    r.report d = (r, []) ↔ r.told.contains d.callsite = true := by
  obtain ⟨hc, -⟩ | ⟨hc, -⟩ := r.report_cases d
  · simp [report, Callsites.visit, hc]
  · refine ⟨fun h => ?_, fun h => absurd (hc.symm.trans h) (by decide)⟩
    have htold := r.told_report d d.callsite
    rw [h] at htold
    exact htold.mpr (.inr rfl)

theorem keeps_back_iff {r : Reporter} (hr : r.told = .empty) (past : List Telling) (t : Telling) :
    (r.tell (past.map Telling.diagnostic)).report t.diagnostic =
        (r.tell (past.map Telling.diagnostic), []) ↔
      ∃ p ∈ past, p.route = t.route ∧ p.call.operation = t.call.operation ∧
        p.call.name? = t.call.name? := by
  have hempty : r.told.contains t.diagnostic.callsite = false := by rw [hr]; rfl
  have hsite (p : Telling) : p.diagnostic.callsite = t.diagnostic.callsite ↔
      p.route = t.route ∧ p.call.operation = t.call.operation ∧ p.call.name? = t.call.name? := by
    rw [← Call.expression_eq_iff, ← p.call.observed_eq, ← t.call.observed_eq]
    exact Callsite.mk.injEq .. ▸ Iff.rfl
  rw [report_eq_self_iff, told_tell, hempty]
  simp only [Bool.false_eq_true, false_or]
  constructor
  · rintro ⟨d, hd, hat⟩
    obtain ⟨p, hp, rfl⟩ := List.mem_map.mp hd
    exact ⟨p, hp, (hsite p).mp hat⟩
  · rintro ⟨p, hp, hlike⟩
    exact ⟨p.diagnostic, List.mem_map_of_mem hp, (hsite p).mpr hlike⟩

end Reporter

/-- What a guard tells of a call and what a pending handle says of it is spelled alike, and tells
the call from every one that does something else or is given another name. No such call keeps it
back in a reporter. -/
theorem calls_told_apart :
    (∀ (w : World) (c : Call), c.resource ≠ .draftMode →
      ∀ (h : Handle) (g : Guard) (v : Value), h.guard? = some g → h.state = .resolved v →
        h.resource = c.resource → h.id ∉ w.awaited →
      ∀ (p : Handle) (key : Key .signal) (route : String),
        p.state = .pending c.resource key route →
      (w.callHandle h c).world.reporters.get g.reporter = (w.reporters.get g.reporter).tell
        [.ofUse (some g.route) c.observed c.resource.api (w.startsDry g.unit)] ∧
      (w.callHandle p c).result =
        .error (.syncAccessUnavailable route c.expression c.resource.api)) ∧
    (∀ c : Call, c.observed = c.expression) ∧
    (∀ a b : Call,
      a.expression = b.expression ↔ a.operation = b.operation ∧ a.name? = b.name?) ∧
    ∀ (r : Reporter), r.told = .empty → ∀ (past : List Telling) (t : Telling),
      ((r.tell (past.map Telling.diagnostic)).report t.diagnostic =
          (r.tell (past.map Telling.diagnostic), []) ↔
        ∃ p ∈ past, p.route = t.route ∧ p.call.operation = t.call.operation ∧
          p.call.name? = t.call.name?) := by
  refine ⟨fun w c hc h g v hg hs hr ha p key route hp => ?_, Call.observed_eq,
    Call.expression_eq_iff, fun r hr past t => Reporter.keeps_back_iff hr past t⟩
  exact ⟨w.told_callHandle hc hg hs hr ha, w.callHandle_pending hp c⟩

/-- A name that ends like another call is not told for that call. -/
theorem calls_told_apart_by_odd_names :
    let w : World := { works := ⟨[{ route := "/" }]⟩, reporters := ⟨[{}]⟩ }
    let h : Handle :=
      { id := .made ⟨0⟩ 0, state := .resolved (.cookies .blank)
        guard? := some { reporter := ⟨0⟩, route := "/", unit := ⟨0⟩ } }
    let p : Handle := { id := .made ⟨1⟩ 0, state := .pending .cookies ⟨0⟩ "/" }
    let odd : Call := .cookies (.get "') + cookies().has('a")
    let plain : Call := .cookies (.has "a")
    let r := ({} : Reporter).tell [Telling.diagnostic ⟨some "/", odd, false⟩]
    (w.callHandle h odd).world.reporters.get ⟨0⟩ = r ∧
      (w.callHandle p odd).result = .error
        (.syncAccessUnavailable "/" "cookies().get('') + cookies().has('a')" "cookies") ∧
      odd.expression ≠ plain.expression ∧
      r.report (Telling.diagnostic ⟨some "/", plain, false⟩) ≠ (r, []) := by
  intro w h p odd plain r
  obtain ⟨hspeak, -, hiff, hback⟩ := calls_told_apart
  have hawaited : h.id ∉ w.awaited := List.not_mem_nil
  obtain ⟨htold, hpending⟩ := hspeak w odd (by decide) h _ _ rfl rfl rfl hawaited p ⟨0⟩ "/" rfl
  refine ⟨htold, hpending, fun heq => ?_, fun heq => ?_⟩
  · exact absurd ((hiff odd plain).mp heq).1 (by decide)
  · have hpast := (hback {} rfl [⟨some "/", odd, false⟩] ⟨some "/", plain, false⟩).mp heq
    obtain ⟨q, hq, -, hoperation, -⟩ := hpast
    rw [List.mem_singleton.mp hq] at hoperation
    exact absurd hoperation (by decide)

end RequestAccess
