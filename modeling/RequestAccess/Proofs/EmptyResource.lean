import RequestAccess.Proofs.Refusal

/-!
# Empty resources

Behind a handle to an empty resource nothing is found and no change is taken. Draft mode is off
there, and stays so.
-/

namespace RequestAccess

/-- What a call comes to where there is nothing: no cookie, no header, and no draft mode. Cookies
and headers refuse every change. The switching of draft mode is taken and does nothing. -/
def Call.onNothing : Call → Except StoreError Answer
  | .cookies (.get _) => .ok (.cookie none)
  | .cookies .getAll => .ok (.cookies [])
  | .cookies (.has _) => .ok (.flag false)
  | .cookies .size => .ok (.count 0)
  | .cookies .render => .ok (.text "")
  | .cookies (.set _) | .cookies (.delete _) | .cookies .clear => .error .readonlyCookies
  | .headers (.get _) => .ok (.header none)
  | .headers (.has _) => .ok (.flag false)
  | .headers .entries => .ok (.entries [])
  | .headers .getSetCookie | .headers .keys | .headers .values => .ok (.texts [])
  | .headers (.set ..) | .headers (.append ..) | .headers (.delete _) => .error .readonlyHeaders
  | .draft .isEnabled => .ok (.flag false)
  | .draft .enable | .draft .disable => .ok .done

/-- Whether a call switches draft mode. -/
def World.switches : Resource → Call → Bool
  | .draftMode, .draft call => call.isSwitch
  | _, _ => false

/-- The value is empty and closed to change, in whatever world it is used. -/
structure Value.IsNothing (v : Value) (b : Binding) : Prop where
  answers (w : World) (call : Call) (hr : call.resource = v.resource)
      (hs : World.switches v.resource call = false) :
    w.callValue v call = { world := w, result := call.onNothing.mapError .store }
  /-- Under a force-static work draft mode stays off, whether or not its switching is taken. -/
  inert (w : World) (call : Call) (hs : World.switches v.resource call = true)
      (hf : (w.works.get b.work).forceStatic = true) :
    (w.callValue v call).world = w ∧
      ∀ answer, (w.callValue v call).result = .ok answer → answer = .done

namespace World

variable (w : World) (b : Binding) (r : Resource) (call : Call)

theorem perform_blank :
    (w.perform (blankValue b r) call).1 = w ∧
      ∀ (w' : World) (b' : Binding),
        (w.perform (blankValue b r) call).2 = (w'.perform (blankValue b' r) call).2 := by
  cases r <;> cases call <;> rename_i call <;> try exact ⟨rfl, fun _ _ => rfl⟩
  all_goals cases call <;> exact ⟨rfl, fun _ _ => rfl⟩

theorem blankValue_resource : (blankValue b r).resource = r := by cases r <;> rfl

theorem perform_nothing :
    w.perform (blankValue b call.resource) call = (w, call.onNothing) := by
  cases call with
  | cookies c => cases c <;> rfl
  | headers c =>
    cases c with
    | get name =>
      have hnone : Headers.sealed.get? name = none := by
        unfold Headers.get?
        split <;> rfl
      exact congrArg (fun v => (w, Except.ok (Answer.header v))) hnone
    | has name =>
      have hnone : Headers.sealed.contains name = false := by
        unfold Headers.contains
        split <;> rfl
      exact congrArg (fun b => (w, Except.ok (Answer.flag b))) hnone
    | _ => rfl
  | draft c => cases c <;> rfl

theorem perform_switch {r : Resource} {call : Call} (h : switches r call = true) :
    (w.perform (blankValue b r) call).2 = .ok .done := by
  unfold switches at h
  split at h
  · rename_i call
    cases call with
    | isEnabled => cases h
    | enable | disable => rfl
  · cases h

/-- The attempt that a call on an empty resource is, if it is one. -/
theorem attempt_blank : (blankValue b r).attempt? call =
    if switches r call then some (.ofSwitch b call.expression) else none := by
  cases r with
  | cookies | headers => rfl
  | draftMode => cases call <;> rfl

theorem decideSwitch_keeps {w : World} {b : Binding} (expression : String)
    (hf : (w.works.get b.work).forceStatic = true) : (w.decideSwitch b expression).world = w := by
  simp only [decideSwitch, hf, if_true]
  split
  · rfl
  · split <;> rfl

theorem isNothing_blankValue : (blankValue b r).IsNothing b where
  answers w call hr hs := by
    rw [blankValue_resource] at hr hs
    have ha : (blankValue b r).attempt? call = none := by rw [attempt_blank, hs]; rfl
    subst hr
    simp only [callValue, decide_of_no_attempt ha, Outcome.next, performed, perform_nothing,
      List.nil_append]
  inert w call hs hf := by
    rw [blankValue_resource] at hs
    have ha : (blankValue b r).attempt? call = some (.ofSwitch b call.expression) := by
      rw [attempt_blank, hs]
      rfl
    have hworld : (w.decide (blankValue b r) call).world = w := by
      rw [(decide_of_attempt ha).1]
      exact decideSwitch_keeps _ hf
    unfold callValue Outcome.next
    split
    · exact ⟨hworld, fun _ h => by cases h⟩
    · simp only [performed, hworld, (perform_blank w b r call).1, perform_switch w b hs]
      refine ⟨trivial, fun answer h => ?_⟩
      cases h
      rfl

end World

theorem World.callHandle_eq_callValue {h : Handle} {v : Value} (hs : h.state = .resolved v)
    (hg : h.guard? = none) (w : World) (call : Call) :
    w.callHandle h call = w.callValue v call := by
  simp only [callHandle, hs, observe, hg, List.nil_append]
  rfl

end RequestAccess
