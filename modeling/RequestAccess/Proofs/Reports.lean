import RequestAccess.Reporter

/-!
# What a reporter does

A call site that is new is told, and remembered. What is shown then is a report.
-/

namespace RequestAccess

/-- Reports to whoever develops the program. -/
def Event.isReport : Event → Bool
  | diagnosed _ | logged _ _ => true
  | _ => false

theorem Sink.isReport_of_mem (sink : Sink) (d : Diagnostic) {e : Event}
    (he : e ∈ sink.events d) : e.isReport = true := by
  cases sink with
  | observed =>
    rw [List.mem_singleton.mp he]
    rfl
  | collected => cases he
  | logger l =>
    obtain ⟨entry, -, rfl⟩ := Option.map_eq_some_iff.mp (Option.mem_toList.mp he)
    rfl

namespace Reporter

theorem isReport_of_mem (r : Reporter) (d : Diagnostic) {e : Event}
    (he : e ∈ (r.report d).2) : e.isReport = true := by
  simp only [report] at he
  split at he
  · exact r.sink.isReport_of_mem d he
  · cases he

theorem report_cases (r : Reporter) (d : Diagnostic) :
    r.told.contains d.callsite = true ∧ (r.report d).1 = r ∨
      r.told.contains d.callsite = false ∧
        (r.report d).1 = { r with told := ⟨d.callsite :: r.told.met⟩ }.deliver d := by
  cases hc : r.told.contains d.callsite with
  | true => simp [report, Callsites.visit, hc]
  | false => simp [report, Callsites.visit, hc]

theorem told_deliver (r : Reporter) (d : Diagnostic) : (r.deliver d).told = r.told := by
  unfold deliver
  split <;> rfl

theorem told_report (r : Reporter) (d : Diagnostic) (c : Callsite) :
    (r.report d).1.told.contains c = true ↔ r.told.contains c = true ∨ d.callsite = c := by
  obtain ⟨hc, hsame⟩ | ⟨-, hnew⟩ := r.report_cases d
  · rw [hsame]
    refine (or_iff_left_of_imp ?_).symm
    rintro rfl
    exact hc
  · rw [hnew, told_deliver]
    simp only [Callsites.contains, List.contains_cons, Bool.or_eq_true, beq_iff_eq]
    exact or_comm.trans (or_congr_right eq_comm)

/-- Diagnostics that come to the reporter one after the other. -/
def tell (r : Reporter) (l : List Diagnostic) : Reporter := l.foldl (fun r d => (r.report d).1) r

theorem tell_append (r : Reporter) (l m : List Diagnostic) :
    r.tell (l ++ m) = (r.tell l).tell m := List.foldl_append

theorem told_tell (r : Reporter) (l : List Diagnostic) (c : Callsite) :
    (r.tell l).told.contains c = true ↔
      r.told.contains c = true ∨ ∃ d ∈ l, d.callsite = c := by
  induction l generalizing r with
  | nil => simp [tell]
  | cons d l ih =>
    change ((r.report d).1.tell l).told.contains c = true ↔ _
    rw [ih, told_report]
    simp [or_assoc]

theorem tell_of_told (r : Reporter) (l : List Diagnostic)
    (h : ∀ d ∈ l, r.told.contains d.callsite = true) : r.tell l = r := by
  induction l with
  | nil => rfl
  | cons d l ih =>
    have hsame : (r.report d).1 = r := by
      obtain ⟨-, hsame⟩ | ⟨hnew, -⟩ := r.report_cases d
      · exact hsame
      · cases hnew.symm.trans (h d List.mem_cons_self)
    change (r.report d).1.tell l = r
    rw [hsame]
    exact ih fun e he => h e (List.mem_cons_of_mem _ he)

theorem tell_tell (r : Reporter) (l : List Diagnostic) : (r.tell l).tell l = r.tell l :=
  (r.tell l).tell_of_told l fun d hd => (r.told_tell l d.callsite).mpr (.inr ⟨d, hd, rfl⟩)

end Reporter

end RequestAccess
