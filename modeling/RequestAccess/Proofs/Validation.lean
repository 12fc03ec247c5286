import RequestAccess.Codec.Standard
import RequestAccess.Command
import RequestAccess.Proofs.Explaining

/-!
# Valid scenarios

A scenario in which validation finds no fault can be explained if its headers are valid, which
validation does not look at. Every listed phase is then reported, with every listed access.
-/

namespace RequestAccess

/-! ## Accesses -/

namespace Scenario

theorem accessFaults_eq_nil (n : Nat) (texts : List String) :
    accessFaults n texts = [] ↔ ∀ text ∈ texts, ∃ a, Access.parse text = .ok a := by
  induction texts generalizing n with
  | nil => simp [accessFaults]
  | cons text rest ih =>
    rw [accessFaults, List.forall_mem_cons]
    cases hp : Access.parse text with
    | ok a => simp [ih]
    | error fault => simp

theorem parsed_of_faults {s : Scenario} (h : s.faults = []) :
    ∀ text ∈ s.accesses, ∃ a, Access.parse text = .ok a :=
  (accessFaults_eq_nil 0 s.accesses).mp (List.append_eq_nil_iff.mp h).2

end Scenario

/-- Each access with the text that it was read from. -/
def ReadFrom (texts : List String) (accesses : List (String × Access)) : Prop :=
  accesses.map (·.1) = texts ∧ ∀ e ∈ accesses, Access.parse e.1 = .ok e.2

theorem Command.accessesOf_parsed {texts : List String}
    (h : ∀ text ∈ texts, ∃ a, Access.parse text = .ok a) :
    ∃ accesses, accessesOf texts = .ok accesses ∧ ReadFrom texts accesses := by
  induction texts with
  | nil => exact ⟨[], rfl, rfl, by simp⟩
  | cons text rest ih =>
    obtain ⟨⟨a, ha⟩, hrest⟩ := List.forall_mem_cons.mp h
    obtain ⟨accesses, hread, htexts, hparsed⟩ := ih hrest
    refine ⟨(text, a) :: accesses, ?_, ?_, ?_⟩
    · simp only [accessesOf, ha, hread]
      rfl
    · rw [List.map_cons, htexts]
    · exact List.forall_mem_cons.mpr ⟨ha, hparsed⟩

/-! ## Headers -/

/-- Every header has a name that can be one and a value that can be one. -/
def RequestPlan.HasValidHeaders (r : RequestPlan) : Prop :=
  ∀ e ∈ r.headers.entries, headerName? e.1 ≠ none ∧ HeaderValue.ofString? e.2 ≠ none

instance (r : RequestPlan) : Decidable r.HasValidHeaders :=
  inferInstanceAs (Decidable (∀ e ∈ r.headers.entries, _))

namespace Headers

theorem line_isOk (name value : String) :
    (line name value).isOk = true ↔
      headerName? name ≠ none ∧ HeaderValue.ofString? value ≠ none := by
  unfold line
  cases headerName? name with
  | none => simp [Except.isOk, Except.toBool]
  | some key => cases HeaderValue.ofString? value <;> simp [Except.isOk, Except.toBool]

theorem mapM_line_isOk (pairs : List (String × String)) :
    (pairs.mapM fun p => line p.1 p.2).isOk = true ↔ ∀ p ∈ pairs, (line p.1 p.2).isOk = true := by
  induction pairs with
  | nil => simp [Except.isOk, Except.toBool, pure, Except.pure]
  | cons p rest ih =>
    rw [List.mapM_cons, List.forall_mem_cons, ← ih]
    cases line p.1 p.2 with
    | error e => simp [Except.isOk, Except.toBool, bind, Except.bind]
    | ok l =>
      cases rest.mapM fun p => line p.1 p.2 <;>
        simp [Except.isOk, Except.toBool, bind, Except.bind, pure, Except.pure]

theorem ofPairs_isOk (pairs : List (String × String)) :
    (ofPairs pairs).isOk = true ↔ ∀ p ∈ pairs, (line p.1 p.2).isOk = true := by
  rw [← mapM_line_isOk]
  unfold ofPairs
  cases pairs.mapM fun p => line p.1 p.2 <;> rfl

end Headers

theorem Scenario.incoming_isOk (s : Scenario) :
    s.incoming.isOk = true ↔ s.request.HasValidHeaders := by
  have hpairs : s.incoming.isOk = (Headers.ofPairs s.request.headers.entries).isOk := by
    unfold incoming
    cases Headers.ofPairs s.request.headers.entries <;> rfl
  rw [hpairs, Headers.ofPairs_isOk]
  simp only [Headers.line_isOk, RequestPlan.HasValidHeaders]

theorem Scenario.incoming_of_valid {s : Scenario} (h : s.request.HasValidHeaders) :
    ∃ r, s.incoming = .ok r := by
  have hmade := s.incoming_isOk.mpr h
  cases hr : s.incoming with
  | ok r => exact ⟨r, rfl⟩
  | error e =>
    rw [hr] at hmade
    cases hmade

/-! ## Reports -/

namespace Explain.Progress

variable (p : Progress)

def labels : List String := p.reports.map (·.access)

theorem labels_report (w : World) (r : AccessReport) :
    (p.report w r).labels = p.labels ++ [r.access] := by
  simp [labels, report]

theorem labels_wait (label : String) (h : Handle) : (p.wait label h).labels = p.labels := by
  unfold wait
  split
  · rfl
  · split <;> rfl

theorem labels_await (window : Nat) (label : String) (w : World) (h : Handle) :
    (p.await window label w h).labels = p.labels ++ [label] := by
  unfold await
  rw [labels_wait, labels_report]
  cases (w.pollOnce h 0).2 with
  | none => rfl
  | some result => cases result <;> rfl

theorem labels_call (label : String) (w : World) (h : Handle) (call : Call) :
    (p.call label w h call).labels = p.labels ++ [label] := by
  unfold Progress.call
  rw [labels_report]
  cases (w.callHandle h call).result <;> rfl

theorem labels_access (window : Nat) (label : String) (a : Access) :
    (p.access window label a).labels = p.labels ++ [label] := by
  unfold access
  dsimp only
  split
  · exact p.labels_report ..
  · exact p.labels_await ..
  · exact p.labels_call ..

theorem labels_accesses (window : Nat) (accesses : List (String × Access)) :
    (accesses.foldl (fun p e => p.access window e.1 e.2) p).labels =
      p.labels ++ accesses.map (·.1) := by
  induction accesses generalizing p with
  | nil => simp
  | cons e rest ih =>
    rw [List.foldl_cons, ih, labels_access, List.map_cons, List.append_assoc, List.singleton_append]

theorem reports_reject (waiting : List (String × Hanging)) :
    ∃ after, (p.reject waiting).reports = p.reports ++ after := by
  induction waiting generalizing p with
  | nil => exact ⟨[], (List.append_nil _).symm⟩
  | cons e rest ih =>
    simp only [reject]
    split
    · next answer _ =>
      obtain ⟨after, hafter⟩ := ih (p.report _ (.ofError (e.1 ++ " (after abort)") answer))
      exact ⟨_, hafter.trans (List.append_assoc ..)⟩
    · exact ⟨[], (List.append_nil _).symm⟩

theorem reports_abort : ∃ after, p.abort.reports = p.reports ++ after := by
  unfold abort
  split
  · exact ⟨[], (List.append_nil _).symm⟩
  · exact reports_reject _ _

theorem labels_abort : p.labels <+: p.abort.labels := by
  obtain ⟨after, hafter⟩ := p.reports_abort
  exact ⟨after.map (·.access), by simp [labels, hafter]⟩

end Explain.Progress

namespace Explanation

variable (x : Explanation) (r : Request)

theorem phase_labels (told : Reporter) (p : Phase) :
    x.accesses.map (·.1) <+: (x.phase r told p).1.accesses.map (·.access) := by
  have hmade : _ = x.accesses.map (·.1) := Explain.Progress.labels_accesses
    { world := Explain.world x.scenario r told p } x.window x.accesses
  rw [← hmade]
  unfold phase Explain.summary
  dsimp only
  split
  · exact Explain.Progress.labels_abort _
  · exact List.prefix_rfl

/-- Each phase is reported once, in the order given. -/
theorem phases_reported (told : Reporter) (phases : List Phase) :
    (x.phases r told phases).map (·.phase) = phases ∧
      ∀ report ∈ x.phases r told phases,
        x.accesses.map (·.1) <+: report.accesses.map (·.access) := by
  induction phases generalizing told with
  | nil => exact ⟨rfl, by simp [Explanation.phases]⟩
  | cons p rest ih =>
    obtain ⟨hphases, hlabels⟩ := ih (x.phase r told p).2
    refine ⟨?_, ?_⟩
    · rw [Explanation.phases, List.map_cons, hphases]
      rfl
    · exact List.forall_mem_cons.mpr ⟨x.phase_labels r told p, hlabels⟩

variable {x r}

theorem mem_phases {told : Reporter} {phases : List Phase} {report : PhaseReport}
    (h : report ∈ x.phases r told phases) : ∃ told p, report = (x.phase r told p).1 := by
  induction phases generalizing told with
  | nil => cases h
  | cons p rest ih =>
    rcases List.mem_cons.mp h with h | h
    · exact ⟨told, p, h⟩
    · exact ih h

end Explanation

/-! ## Validation and explanation -/

namespace Command

/-- The whole scenario is explained: each of its accesses is read, the request is made, and each of
its phases is reported, with each of the accesses in turn. -/
structure Explains [Codec] (p : Place) (o : ExplainOptions) (accesses : List (String × Access))
    (r : Request) (reports : List PhaseReport) : Prop where
  read : ReadFrom p.loaded.scenario.accesses accesses
  made : p.loaded.scenario.incoming = .ok r
  explained : ({ scenario := p.loaded.scenario, accesses, window := o.window, abort := o.abort } :
    Explanation).run p.loaded.scenario.phases = .ok reports
  reported : reports.map (·.phase) = p.loaded.scenario.phases
  answered (report : PhaseReport) (h : report ∈ reports) :
    p.loaded.scenario.accesses <+: report.accesses.map (·.access)
  ran : run p (.explain o) =
    { printed :=
        p.console.debug (countText accesses.length reports.length) ++
          printReports p.console p.loaded.scenario.route.path reports
      files := p.files }

theorem planOf_faultless {s : Scenario} (h : s.faults = []) (window : Nat) (abort : Bool) :
    ∃ accesses, ReadFrom s.accesses accesses ∧
      planOf s { window, abort } = .ok ({ scenario := s, accesses, window, abort }, s.phases) := by
  obtain ⟨accesses, hread, hfrom⟩ := accessesOf_parsed (Scenario.parsed_of_faults h)
  exact ⟨accesses, hfrom, by simp [planOf, hread]⟩

/-- A scenario without a fault is explained as a whole if its headers are valid. If they are not, it
is not explained at all, unless it lists no phase. -/
theorem faultless_scenario_explained [Codec] (p : Place) (window : Nat) (abort : Bool)
    (h : p.loaded.scenario.faults = []) :
    (p.loaded.scenario.request.HasValidHeaders →
      ∃ accesses r reports, Explains p { window, abort } accesses r reports) ∧
    (¬ p.loaded.scenario.request.HasValidHeaders → p.loaded.scenario.phases ≠ [] →
      ∃ e, p.loaded.scenario.incoming = .error e ∧
        (run p (.explain { window, abort })).failure = some (.requestHeader e)) := by
  obtain ⟨accesses, hfrom, hplan⟩ := planOf_faultless h window abort
  have hmade := p.loaded.scenario.incoming_isOk
  let x : Explanation := { scenario := p.loaded.scenario, accesses, window, abort }
  cases hr : p.loaded.scenario.incoming with
  | ok r =>
    rw [hr] at hmade
    refine ⟨fun _ => ?_, fun hbad => absurd (hmade.mp rfl) hbad⟩
    obtain ⟨hphases, hlabels⟩ := x.phases_reported r {} p.loaded.scenario.phases
    have hlength := congrArg List.length hphases
    rw [List.length_map] at hlength
    have hrun : x.run p.loaded.scenario.phases = .ok (x.phases r {} p.loaded.scenario.phases) :=
      Explanation.run_eq hr _
    refine ⟨accesses, r, _, hfrom, hr, hrun, hphases, fun report hreport => ?_, ?_⟩
    · exact hfrom.1 ▸ hlabels report hreport
    · simp only [run, explainIn, hplan]
      rw [hrun, hlength]
  | error e =>
    rw [hr] at hmade
    refine ⟨fun hvalid => absurd (hmade.mpr hvalid) (by simp [Except.isOk, Except.toBool]),
      fun _ hsome => ⟨e, rfl, ?_⟩⟩
    simp only [run, explainIn, hplan, Explanation.run]
    rw [hr]

/-- Two phases of a valid scenario, one of them with a pending handle. -/
theorem faultless_scenario_explained_in_two_phases :
    let s : Scenario :=
      { route := { path := "/shop" }
        request := { headers := .ofList [("accept", "text/html")] }
        accesses := ["cookies", "headers.get: accept"]
        phases := [.prerender, .request] }
    let p : Place :=
      { files := {}, cwd := [], console := {}, loaded := { scenario := s, file := none } }
    s.faults = [] ∧ s.request.HasValidHeaders ∧
      ∃ reports, (run p (.explain { abort := true })).printed =
        printReports p.console "/shop" reports ∧
        reports.map (·.phase) = [.prerender, .request] := by
  intro s p
  have hfaults : s.faults = [] := List.isEmpty_iff.mp (by decide +kernel)
  have hheaders : s.request.HasValidHeaders := by decide +kernel
  obtain ⟨accesses, r, reports, h⟩ :=
    (faultless_scenario_explained p 20 true hfaults).1 hheaders
  exact ⟨hfaults, hheaders, reports, congrArg Ran.printed h.ran, h.reported⟩

/-- Validation passes over a header whose name has a blank in it, and explaining stops at it. -/
theorem faultless_scenario_refused :
    let s : Scenario := { request := { headers := .ofList [("bad name", "1")] } }
    let p : Place :=
      { files := {}, cwd := [], console := {}, loaded := { scenario := s, file := none } }
    s.faults = [] ∧ (run p .validate).failure = none ∧
      (run p (.explain {})).failure = some (.requestHeader (.invalidHeader "bad name")) :=
  ⟨rfl, rfl, rfl⟩

end Command

end RequestAccess
