import RequestAccess.World.Use

/-!
# Calls on a store

A call either asks or changes. A readonly jar and sealed headers refuse every change, and a jar that
is not readonly takes it.
-/

namespace RequestAccess

def CookieCall.isChange : CookieCall → Bool
  | .set _ | .delete _ | .clear => true
  | .get _ | .getAll | .has _ | .size | .render => false

def HeaderCall.isChange : HeaderCall → Bool
  | .set .. | .append .. | .delete _ => true
  | .get _ | .getSetCookie | .has _ | .entries | .keys | .values => false

namespace Effect

variable {α : Type}

/-- What is left of a store after a call. A refused call leaves it as it is. -/
def left (a : α) : Effect α → α
  | .change (.ok changed) => changed
  | .change (.error _) | .answer _ => a

/-- Whether the call was a change and the store took it. -/
def isTaken : Effect α → Bool
  | .change (.ok _) => true
  | .change (.error _) | .answer _ => false

end Effect

/-! ## Jars -/

namespace CookieJar

/-- What is left of a jar after calls. -/
def after (j : CookieJar) (calls : List CookieCall) : CookieJar :=
  calls.foldl (fun j c => (j.run c).left j) j

variable {j : CookieJar} {c : CookieCall}

theorem run_change (j : CookieJar) {c : CookieCall} (hc : c.isChange = true) :
    ∃ changed : CookieJar, changed.readonly = j.readonly ∧
      j.run c = .change (j.ifWritable changed) := by
  cases c with
  | set cookie => exact ⟨j.file cookie, rfl, rfl⟩
  | delete name => exact ⟨{ j with cookies := j.cookies.erase name }, rfl, rfl⟩
  | clear => exact ⟨{ j with cookies := .empty }, rfl, rfl⟩
  | _ => simp [CookieCall.isChange] at hc

theorem run_answer (j : CookieJar) {c : CookieCall} (hc : c.isChange = false) :
    ∃ a, j.run c = .answer a := by
  cases c with
  | set _ | delete _ | clear => simp [CookieCall.isChange] at hc
  | _ => exact ⟨_, rfl⟩

theorem run_readonly (hr : j.readonly = true) (hc : c.isChange = true) :
    j.run c = .change (.error .readonlyCookies) := by
  obtain ⟨changed, -, hrun⟩ := j.run_change hc
  rw [hrun, ifWritable, if_pos hr]

theorem run_writable (hr : j.readonly = false) (hc : c.isChange = true) :
    ∃ changed : CookieJar, changed.readonly = false ∧ j.run c = .change (.ok changed) := by
  obtain ⟨changed, hsame, hrun⟩ := j.run_change hc
  refine ⟨changed, hsame.trans hr, ?_⟩
  rw [hrun, ifWritable, if_neg (by simp [hr])]

theorem isTaken_run (j : CookieJar) (c : CookieCall) :
    (j.run c).isTaken = (!j.readonly && c.isChange) := by
  cases hc : c.isChange with
  | false =>
    obtain ⟨a, hrun⟩ := j.run_answer hc
    rw [hrun, Bool.and_false]
    rfl
  | true =>
    cases hr : j.readonly with
    | true => rw [run_readonly hr hc]; rfl
    | false =>
      obtain ⟨changed, -, hrun⟩ := run_writable hr hc
      rw [hrun]
      rfl

theorem readonly_left (j : CookieJar) (c : CookieCall) :
    ((j.run c).left j).readonly = j.readonly := by
  cases hc : c.isChange with
  | true =>
    obtain ⟨changed, hsame, hrun⟩ := j.run_change hc
    rw [hrun, ifWritable]
    split
    · rfl
    · exact hsame
  | false =>
    obtain ⟨a, hrun⟩ := j.run_answer hc
    rw [hrun]
    rfl

theorem readonly_after (j : CookieJar) (calls : List CookieCall) :
    (j.after calls).readonly = j.readonly := by
  induction calls generalizing j with
  | nil => rfl
  | cons c rest ih => exact (ih _).trans (j.readonly_left c)

theorem left_of_readonly (hr : j.readonly = true) (c : CookieCall) : (j.run c).left j = j := by
  cases hc : c.isChange with
  | true => rw [run_readonly hr hc]; rfl
  | false =>
    obtain ⟨a, hrun⟩ := j.run_answer hc
    rw [hrun]
    rfl

theorem after_of_readonly (hr : j.readonly = true) (calls : List CookieCall) :
    j.after calls = j := by
  induction calls with
  | nil => rfl
  | cons c rest ih => rw [after, List.foldl_cons, left_of_readonly hr]; exact ih

end CookieJar

/-! ## Headers -/

namespace Headers

/-- What is left of headers after calls. -/
def after (h : Headers) (calls : List HeaderCall) : Headers :=
  calls.foldl (fun h c => (h.run c).left h) h

variable {h : Headers}

theorem isSealed_ofValues (lines : List (String × HeaderValue)) :
    (Headers.ofValues lines).isSealed = true := by
  have keep (h : Headers) : (lines.foldl (fun h v => h.add v.1 v.2) h).isSealed = h.isSealed := by
    induction lines generalizing h with
    | nil => rfl
    | cons v rest ih => exact ih (h.add v.1 v.2)
  exact keep .sealed

theorem run_sealed (hs : h.isSealed = true) (c : HeaderCall) :
    (c.isChange = true ∧ h.run c = .change (.error .readonlyHeaders)) ∨
      ∃ a, h.run c = .answer a := by
  cases c with
  | set name value => exact .inl ⟨rfl, by simp [run, set, hs]⟩
  | append name value => exact .inl ⟨rfl, by simp [run, append, hs]⟩
  | delete name => exact .inl ⟨rfl, by simp [run, erase, hs]⟩
  | _ => exact .inr ⟨_, rfl⟩

theorem left_of_sealed (hs : h.isSealed = true) (c : HeaderCall) : (h.run c).left h = h := by
  obtain ⟨-, hrun⟩ | ⟨a, hrun⟩ := run_sealed hs c
  · rw [hrun]; rfl
  · rw [hrun]; rfl

theorem after_of_sealed (hs : h.isSealed = true) (calls : List HeaderCall) : h.after calls = h := by
  induction calls with
  | nil => rfl
  | cons c rest ih => rw [after, List.foldl_cons, left_of_sealed hs]; exact ih

end Headers

/-! ## Stores of a world -/

namespace World

variable {w : World}

theorem callJar_readonly {source : Source .jar} (hr : (w.jarOf source).readonly = true)
    (c : CookieCall) :
    (w.callJar source c).1 = w ∧
      (c.isChange = true → (w.callJar source c).2 = .error .readonlyCookies) := by
  cases hc : c.isChange with
  | true => simp [callJar, CookieJar.run_readonly hr hc]
  | false =>
    obtain ⟨a, hrun⟩ := (w.jarOf source).run_answer hc
    simp [callJar, hrun]

theorem callJar_writable {key : Key .jar} (hr : (w.jars.get key).readonly = false)
    (c : CookieCall) :
    (c.isChange = false ∧ (w.callJar (.shared key) c).1 = w) ∨
      c.isChange = true ∧ ∃ changed : CookieJar, changed.readonly = false ∧
        w.callJar (.shared key) c = ({ w with jars := w.jars.set key changed }, .ok .done) := by
  cases hc : c.isChange with
  | true =>
    obtain ⟨changed, hopen, hrun⟩ := CookieJar.run_writable hr hc
    exact .inr ⟨rfl, changed, hopen, by simp [callJar, jarOf, hrun]⟩
  | false =>
    obtain ⟨a, hrun⟩ := (w.jars.get key).run_answer hc
    simp [callJar, jarOf, hrun]

theorem callHeaders_sealed {source : Source .headers}
    (hs : (w.headersOf source).isSealed = true) (c : HeaderCall) :
    (w.callHeaders source c).1 = w ∧
      (c.isChange = true → (w.callHeaders source c).2 = .error .readonlyHeaders) := by
  obtain ⟨-, hrun⟩ | ⟨a, hrun⟩ := Headers.run_sealed hs c
  · simp [callHeaders, hrun]
  · refine ⟨by simp [callHeaders, hrun], fun hc => ?_⟩
    cases c <;> simp [HeaderCall.isChange, Headers.run] at hc hrun

theorem callHeaders_refused {source : Source .headers} {c : HeaderCall} {e : StoreError}
    (h : (w.callHeaders source c).2 = .error e) : (w.callHeaders source c).1 = w := by
  unfold callHeaders at h ⊢
  split <;> simp_all

theorem headers_callHeaders (w : World) (key : Key .headers) (c : HeaderCall) :
    (w.callHeaders (.shared key) c).1.headers.get key =
      ((w.headers.get key).run c).left (w.headers.get key) := by
  unfold callHeaders
  rw [headersOf]
  split <;> simp_all [Effect.left]

theorem jars_callJar (w : World) (key : Key .jar) (c : CookieCall) :
    (w.callJar (.shared key) c).1.jars.get key =
      ((w.jars.get key).run c).left (w.jars.get key) := by
  unfold callJar
  rw [jarOf]
  split <;> simp_all [Effect.left]

theorem headers_after (w : World) (key : Key .headers) (calls : List HeaderCall) :
    (calls.foldl (fun w c => (w.callHeaders (.shared key) c).1) w).headers.get key =
      (w.headers.get key).after calls := by
  induction calls generalizing w with
  | nil => rfl
  | cons c rest ih => rw [List.foldl_cons, ih, headers_callHeaders]; rfl

theorem jars_after (w : World) (key : Key .jar) (calls : List CookieCall) :
    (calls.foldl (fun w c => (w.callJar (.shared key) c).1) w).jars.get key =
      (w.jars.get key).after calls := by
  induction calls generalizing w with
  | nil => rfl
  | cons c rest ih => rw [List.foldl_cons, ih, jars_callJar]; rfl

end World

end RequestAccess
