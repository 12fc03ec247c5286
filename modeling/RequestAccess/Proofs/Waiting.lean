import Mathlib.Data.List.Nodup
import RequestAccess.Signal

/-!
# Waiting for a signal

Who waits for a signal and who is woken by it is read off what was done to the signal. A listener
waits from its first question until it is dropped or the signal fires, and it is woken once, with
the waker that it asked with last.
-/

namespace RequestAccess

/-! ## What is done to a signal -/

/-- What may be done to a signal. -/
inductive SignalStep where
  | listen
  | poll (listener : Nat) (waker : Waker)
  | drop (listener : Nat)
  /-- Fires the signal, directly or through a clone. -/
  | abort
deriving DecidableEq

/-- What a signal answers. -/
inductive SignalReply where
  | listener (number : Nat)
  /-- Whether the signal has fired. -/
  | asked (fired : Bool)
  | dropped
  /-- Whether it was this call that fired the signal. -/
  | aborted (first : Bool)
deriving DecidableEq

namespace Signal

def step (s : Signal) : SignalStep → Signal × SignalReply
  | .listen => (s.listen.1, .listener s.listen.2)
  | .poll l w => ((s.poll l w).1, .asked (s.poll l w).2)
  | .drop l => (s.drop l, .dropped)
  | .abort => (s.abort.1, .aborted s.abort.2)

/-- Does the steps in turn. -/
def run (s : Signal) : List SignalStep → Signal × List SignalReply
  | [] => (s, [])
  | step :: rest =>
    let (last, replies) := (s.step step).1.run rest
    (last, (s.step step).2 :: replies)

end Signal

/-! ## What the steps tell -/

namespace SignalStep

variable {steps : List SignalStep} {l l' : Nat} {w w' : Waker} {step : SignalStep}

/-- The listener was made and is not dropped. -/
def Holds (steps : List SignalStep) (l : Nat) : Prop :=
  l < steps.count .listen ∧ .drop l ∉ steps

/-- Only a listener that is there can ask or be dropped. -/
def Allowed (steps : List SignalStep) : SignalStep → Prop
  | .poll l _ | .drop l => Holds steps l
  | .listen | .abort => True

instance (steps : List SignalStep) (l : Nat) : Decidable (Holds steps l) :=
  inferInstanceAs (Decidable (_ ∧ _))

instance (steps : List SignalStep) : (step : SignalStep) → Decidable (Allowed steps step)
  | .poll l _ | .drop l => inferInstanceAs (Decidable (Holds steps l))
  | .listen | .abort => isTrue trivial

/-- Every step can be made after those before it. -/
def Lawful (before : List SignalStep) : List SignalStep → Prop
  | [] => True
  | step :: rest => Allowed before step ∧ Lawful (before ++ [step]) rest

instance decidableLawful (before : List SignalStep) :
    (steps : List SignalStep) → Decidable (Lawful before steps)
  | [] => isTrue trivial
  | step :: rest =>
    have := decidableLawful (before ++ [step]) rest
    inferInstanceAs (Decidable (Allowed before step ∧ Lawful (before ++ [step]) rest))

/-- The waker of a question of a listener. -/
def wakerOf? (l : Nat) : SignalStep → Option Waker
  | .poll l' w => if l' = l then some w else none
  | _ => none

/-- The waker that a listener has asked with last. -/
def lastWaker? (steps : List SignalStep) (l : Nat) : Option Waker :=
  (steps.filterMap (wakerOf? l)).getLast?

/-- The listeners that are there and have asked, each with the waker that it asked with last. -/
def asking (steps : List SignalStep) : List (Nat × Waker) :=
  (List.range (steps.count .listen)).filterMap fun l =>
    if .drop l ∈ steps then none else (lastWaker? steps l).map (l, ·)

/-- The steps before the one that fires the signal. -/
def beforeAbort (steps : List SignalStep) : List SignalStep := steps.takeWhile (· ≠ .abort)

/-- What a step answers after others. -/
def replyAfter (steps : List SignalStep) : SignalStep → SignalReply
  | .listen => .listener (steps.count .listen)
  | .poll .. => .asked (.abort ∈ steps)
  | .drop _ => .dropped
  | .abort => .aborted (.abort ∉ steps)

/-! ## One more step -/

theorem lastWaker?_snoc :
    lastWaker? (steps ++ [step]) l = (wakerOf? l step).or (lastWaker? steps l) := by
  unfold lastWaker?
  rw [List.filterMap_append, List.getLast?_append]
  cases h : wakerOf? l step <;> simp [h]

theorem count_le_snoc : steps.count .listen ≤ (steps ++ [step]).count .listen :=
  (List.sublist_append_left steps [step]).count_le _

/-- Only listeners that were made have asked. -/
def OnlyMade (steps : List SignalStep) : Prop :=
  ∀ l w, lastWaker? steps l = some w → l < steps.count .listen

theorem OnlyMade.snoc (h : OnlyMade steps) (hstep : Allowed steps step) :
    OnlyMade (steps ++ [step]) := by
  intro l w hw
  rw [lastWaker?_snoc] at hw
  refine Nat.lt_of_lt_of_le ?_ count_le_snoc
  cases ho : wakerOf? l step with
  | none =>
    rw [ho, Option.none_or] at hw
    exact h l w hw
  | some w' =>
    cases step with
    | poll l' _ =>
      simp only [wakerOf?, Option.ite_none_right_eq_some] at ho
      exact ho.1 ▸ hstep.1
    | _ => cases ho

theorem mem_asking :
    (l, w) ∈ asking steps ↔ Holds steps l ∧ lastWaker? steps l = some w := by
  unfold asking Holds
  simp only [List.mem_filterMap, List.mem_range, Option.ite_none_left_eq_some,
    Option.map_eq_some_iff, Prod.mk.injEq]
  constructor
  · rintro ⟨l', hmade, hdrop, w', hw, rfl, rfl⟩
    exact ⟨⟨hmade, hdrop⟩, hw⟩
  · rintro ⟨⟨hmade, hdrop⟩, hw⟩
    exact ⟨l, hmade, hdrop, w, hw, rfl, rfl⟩

theorem nodup_asking (steps : List SignalStep) : (asking steps).Nodup := by
  refine List.Nodup.filterMap (fun a b e ha hb => ?_) List.nodup_range
  simp only [Option.mem_def, Option.ite_none_left_eq_some, Option.map_eq_some_iff] at ha hb
  obtain ⟨-, _, -, rfl⟩ := ha
  obtain ⟨-, _, -, he⟩ := hb
  exact (congrArg Prod.fst he).symm

theorem beforeAbort_of_none (h : .abort ∉ steps) : beforeAbort (steps ++ [.abort]) = steps := by
  unfold beforeAbort
  rw [List.takeWhile_append_of_pos]
  · simp
  · intro x hx
    exact decide_eq_true fun he => h (he ▸ hx)

theorem beforeAbort_of_some (h : .abort ∈ steps) (step : SignalStep) :
    beforeAbort (steps ++ [step]) = beforeAbort steps := by
  unfold beforeAbort
  induction steps with
  | nil => cases h
  | cons x rest ih =>
    by_cases hx : x = .abort
    · simp [hx]
    · have hrest : .abort ∈ rest := (List.mem_cons.mp h).resolve_left (Ne.symm hx)
      rw [List.cons_append, List.takeWhile_cons, List.takeWhile_cons, ih hrest]

end SignalStep

/-! ## The rows of those who wait -/

namespace Signal

open SignalStep

theorem keys_await (l : Nat) (w : Waker) (rows : List (Nat × Waker)) :
    (await l w rows).map (·.1) =
      if l ∈ rows.map (·.1) then rows.map (·.1) else rows.map (·.1) ++ [l] := by
  induction rows with
  | nil => rfl
  | cons row rest ih =>
    rw [await]
    by_cases h : row.1 = l
    · simp [h]
    · simp only [if_neg h, List.map_cons, ih, List.mem_cons, Ne.symm h, false_or]
      split <;> rfl

theorem nodup_await {rows : List (Nat × Waker)} (h : (rows.map (·.1)).Nodup) (l : Nat)
    (w : Waker) : ((await l w rows).map (·.1)).Nodup := by
  rw [keys_await]
  split
  · exact h
  · next hnew =>
    refine List.nodup_append.mpr ⟨h, List.nodup_singleton l, ?_⟩
    rintro k hk _ hl rfl
    exact hnew (List.mem_singleton.mp hl ▸ hk)

theorem mem_await {rows : List (Nat × Waker)} (h : (rows.map (·.1)).Nodup) {l l' : Nat}
    {w w' : Waker} :
    (l', w') ∈ await l w rows ↔ if l' = l then w' = w else (l', w') ∈ rows := by
  induction rows with
  | nil => by_cases hl : l' = l <;> simp [await, hl]
  | cons row rest ih =>
    obtain ⟨k, v⟩ := row
    obtain ⟨hnew, hrest⟩ := List.nodup_cons.mp h
    rw [await]
    by_cases hk : k = l
    · subst hk
      have habsent (v' : Waker) : (k, v') ∉ rest := fun hm =>
        hnew (List.mem_map.mpr ⟨_, hm, rfl⟩)
      by_cases hl : l' = k <;> simp [hl, habsent]
    · rw [if_neg hk, List.mem_cons, ih hrest]
      by_cases hl : l' = l
      · have hne : l ≠ k := Ne.symm hk
        simp [hl, hne]
      · simp [hl]

/-! ## The account of a signal -/

/-- A signal is as the steps have left it. -/
structure Follows (s : Signal) (steps : List SignalStep) : Prop where
  aborted : s.aborted = decide (.abort ∈ steps)
  made : s.nextListener = steps.count .listen
  onlyMade : OnlyMade steps
  nodup : (s.waiting.map (·.1)).Nodup
  waiting (h : .abort ∉ steps) (l : Nat) (w : Waker) :
    (l, w) ∈ s.waiting ↔ Holds steps l ∧ lastWaker? steps l = some w
  asleep (h : .abort ∉ steps) : s.woken = []
  fired (h : .abort ∈ steps) :
    s.waiting = [] ∧ s.woken.Perm ((asking (beforeAbort steps)).map (·.2))

namespace Follows

variable {s : Signal} {steps : List SignalStep} (h : s.Follows steps)

include h

theorem waiting_perm (hn : .abort ∉ steps) : s.waiting.Perm (asking steps) := by
  refine (List.perm_ext_iff_of_nodup (List.Nodup.of_map _ h.nodup) (nodup_asking steps)).mpr ?_
  rintro ⟨l, w⟩
  rw [h.waiting hn, mem_asking]

theorem reply (step : SignalStep) : (s.step step).2 = replyAfter steps step := by
  cases step with
  | listen => exact congrArg SignalReply.listener h.made
  | poll l w =>
    have hpoll : (s.poll l w).2 = s.aborted := by
      unfold Signal.poll
      split <;> simp_all
    exact congrArg SignalReply.asked (hpoll.trans h.aborted)
  | drop l => rfl
  | abort =>
    have habort : s.abort.2 = !s.aborted := by
      unfold Signal.abort
      split <;> simp_all
    refine congrArg SignalReply.aborted (habort.trans ?_)
    rw [h.aborted, decide_not]

theorem listen : s.listen.1.Follows (steps ++ [.listen]) where
  aborted := by simpa [Signal.listen] using h.aborted
  made := by simpa [Signal.listen] using h.made
  onlyMade := h.onlyMade.snoc trivial
  nodup := h.nodup
  waiting hn l w := by
    have hold : .abort ∉ steps := fun hm => hn (List.mem_append_left _ hm)
    have hlast : lastWaker? (steps ++ [.listen]) l = lastWaker? steps l := lastWaker?_snoc
    rw [hlast]
    refine (h.waiting hold l w).trans ⟨fun hw => ⟨⟨?_, by simpa using hw.1.2⟩, hw.2⟩,
      fun hw => ⟨⟨h.onlyMade l w hw.2, fun hm => hw.1.2 (List.mem_append_left _ hm)⟩, hw.2⟩⟩
    simpa using Nat.lt_succ_of_lt hw.1.1
  asleep hn := h.asleep fun hm => hn (List.mem_append_left _ hm)
  fired hm := by
    have hold : .abort ∈ steps := by simpa using hm
    rw [beforeAbort_of_some hold]
    exact h.fired hold

theorem of_fired {t : Signal} {step : SignalStep} (hstep : Allowed steps step)
    (hold : .abort ∈ steps) (haborted : t.aborted = true) (hwaiting : t.waiting = [])
    (hwoken : t.woken = s.woken)
    (hmade : t.nextListener = (steps ++ [step]).count .listen) : t.Follows (steps ++ [step]) where
  aborted := by simp [haborted, hold]
  made := hmade
  onlyMade := h.onlyMade.snoc hstep
  nodup := by simp [hwaiting]
  waiting hn := absurd (List.mem_append_left _ hold) hn
  asleep hn := absurd (List.mem_append_left _ hold) hn
  fired _ := by
    rw [beforeAbort_of_some hold, hwoken]
    exact ⟨hwaiting, (h.fired hold).2⟩

theorem poll {l : Nat} {w : Waker} (hl : Holds steps l) :
    (s.poll l w).1.Follows (steps ++ [.poll l w]) := by
  have hmade : s.nextListener = List.count SignalStep.listen (steps ++ [.poll l w]) := by
    simpa using h.made
  unfold Signal.poll
  split
  · next ha =>
    have hold : .abort ∈ steps := by simpa [ha] using h.aborted
    exact h.of_fired hl hold ha (h.fired hold).1 rfl hmade
  · next ha =>
    have hold : .abort ∉ steps := by simpa [ha] using h.aborted
    refine ⟨by simp [ha, hold], hmade, h.onlyMade.snoc hl, nodup_await h.nodup l w,
      fun _ l' w' => ?_, fun _ => h.asleep hold, fun hm => absurd (by simpa using hm) hold⟩
    have hholds : Holds (steps ++ [.poll l w]) l' ↔ Holds steps l' := by simp [Holds]
    rw [mem_await h.nodup, h.waiting hold, lastWaker?_snoc, hholds]
    by_cases hl' : l' = l
    · subst hl'
      simp [wakerOf?, hl, eq_comm]
    · simp [wakerOf?, hl', Ne.symm hl']

theorem drop {l : Nat} (hl : Holds steps l) : (s.drop l).Follows (steps ++ [.drop l]) where
  aborted := by simpa [Signal.drop] using h.aborted
  made := by simpa [Signal.drop] using h.made
  onlyMade := h.onlyMade.snoc hl
  nodup := h.nodup.sublist (List.Sublist.map _ List.filter_sublist)
  waiting hn l' w := by
    have hold : .abort ∉ steps := fun hm => hn (List.mem_append_left _ hm)
    have hlast : lastWaker? (steps ++ [.drop l]) l' = lastWaker? steps l' := lastWaker?_snoc
    have hholds : Holds (steps ++ [.drop l]) l' ↔ Holds steps l' ∧ l' ≠ l := by
      simp [Holds, and_assoc]
    rw [hlast, hholds]
    simp only [Signal.drop, List.mem_filter, h.waiting hold, decide_eq_true_eq]
    exact and_right_comm
  asleep hn := h.asleep fun hm => hn (List.mem_append_left _ hm)
  fired hm := by
    have hold : .abort ∈ steps := by simpa using hm
    rw [beforeAbort_of_some hold]
    refine ⟨?_, (h.fired hold).2⟩
    simp [Signal.drop, (h.fired hold).1]

theorem abort : s.abort.1.Follows (steps ++ [.abort]) := by
  have hmade : s.nextListener = List.count SignalStep.listen (steps ++ [.abort]) := by
    simpa using h.made
  unfold Signal.abort
  split
  · next ha =>
    have hold : .abort ∈ steps := by simpa [ha] using h.aborted
    exact h.of_fired trivial hold ha (h.fired hold).1 rfl hmade
  · next ha =>
    have hold : .abort ∉ steps := by simpa [ha] using h.aborted
    refine ⟨by simp, hmade, h.onlyMade.snoc trivial, by simp, fun hn => absurd (by simp) hn,
      fun hn => absurd (by simp) hn, fun _ => ⟨rfl, ?_⟩⟩
    rw [beforeAbort_of_none hold, h.asleep hold, List.nil_append]
    exact (h.waiting_perm hold).map _

theorem step {step : SignalStep} (hstep : Allowed steps step) :
    (s.step step).1.Follows (steps ++ [step]) := by
  cases step with
  | listen => exact h.listen
  | poll l w => exact h.poll hstep
  | drop l => exact h.drop hstep
  | abort => exact h.abort

/-- Every step answers as those before it tell, and leaves the signal as they tell with it. -/
theorem run {more : List SignalStep} (hs : Lawful steps more) :
    (s.run more).1.Follows (steps ++ more) ∧
      ∀ n : Nat, (s.run more).2[n]? = more[n]?.map (replyAfter (steps ++ more.take n)) := by
  induction more generalizing s steps with
  | nil => exact ⟨by simpa [Signal.run] using h, by simp [Signal.run]⟩
  | cons step rest ih =>
    obtain ⟨hfollows, hreplies⟩ := ih (h.step hs.1) hs.2
    refine ⟨by rwa [List.append_cons], fun n => ?_⟩
    cases n with
    | zero => simp [Signal.run, h.reply step]
    | succ n => simpa [Signal.run] using hreplies n

end Follows

theorem follows_nil : Follows {} [] where
  aborted := rfl
  made := rfl
  onlyMade l w hw := nomatch hw
  nodup := List.nodup_nil
  waiting _ l w := by simp [lastWaker?]
  asleep _ := rfl
  fired h := nomatch h

/-- A question is answered yes if and only if the signal was fired before, and only the first call
fires it. Until then the listeners wait that have asked and are still there, and afterwards nobody
does. Each of those who waited is woken once, with the waker that it asked with last. -/
theorem waiters_woken_once {steps : List SignalStep} (h : Lawful [] steps) :
    (∀ n : Nat, (run {} steps).2[n]? = steps[n]?.map (replyAfter (steps.take n))) ∧
    (run {} steps).1.waiters = (if .abort ∈ steps then 0 else (asking steps).length) ∧
    ∀ w, (run {} steps).1.woken.count w =
      if .abort ∈ steps then (asking (beforeAbort steps)).countP (·.2 = w) else 0 := by
  obtain ⟨hfollows, hreplies⟩ := follows_nil.run h
  refine ⟨hreplies, ?_, fun w => ?_⟩
  · split
    · next hm => rw [waiters, (hfollows.fired hm).1, List.length_nil]
    · next hn => exact (hfollows.waiting_perm hn).length_eq
  · split
    · next hm =>
      rw [(hfollows.fired hm).2.count_eq, List.count, List.countP_map]
      rfl
    · next hn => rw [hfollows.asleep hn, List.count_nil]

/-- One listener asks with two wakers, one is dropped, and one never asks. -/
theorem waiters_woken_once_of_four :
    let steps : List SignalStep := [.listen, .listen, .listen, .listen, .poll 0 7, .poll 0 8,
      .poll 1 8, .poll 2 8, .drop 1, .abort, .poll 3 9, .abort]
    Lawful [] steps ∧ (run {} steps).1.woken.count 7 = 0 ∧ (run {} steps).1.woken.count 8 = 2 := by
  intro steps
  have hlawful : Lawful [] steps := by decide
  obtain ⟨-, -, hwoken⟩ := waiters_woken_once hlawful
  exact ⟨hlawful, (hwoken 7).trans (by decide), (hwoken 8).trans (by decide)⟩

end Signal

end RequestAccess
