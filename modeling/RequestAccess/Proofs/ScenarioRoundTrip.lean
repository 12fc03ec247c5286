import RequestAccess.Command
import RequestAccess.Proofs.Decoding
import RequestAccess.Proofs.StandardCodec

/-!
# Shown scenarios

A scenario that is shown as JSON is read back from a scenario file as it was, whatever is left out
of the text or is empty in it. The libraries that write and read the text keep their laws.
-/

namespace RequestAccess

namespace Scenario

/-! ## Records -/

def textsJson (m : NameMap String) : Json := .object (m.entries.map fun e => (e.1, .text e.2))

section Records

variable {δ : Type} [Format δ] {data : Json → δ} (hd : Format.Answers data)
include hd

theorem texts_textsJson (m : NameMap String) : texts (data (textsJson m)) = some m := by
  rw [textsJson, texts_object hd (Entries.nodup_names m.sorted), NameMap.ofList_entries]

theorem fields?_render (r : RenderConfig) :
    Format.fields? ["mode", "dev_diagnostics"] (data r.toJson) =
      some [some (data (.text r.mode.name)), (r.diagnosticsOverride.map .bool).map data] := by
  obtain ⟨mode, diagnostics⟩ := r
  cases diagnostics <;> exact hd.fields _ (by simp [Json.optional])

theorem fields?_route (r : RouteConfig) :
    Format.fields? ["path", "dynamic", "revalidate"] (data r.toJson) =
      some [some (data (.text r.path)), some (data (.text r.dynamic.name)),
        some (data (.ofOption (fun s => .int s.toNat) r.revalidate))] :=
  hd.fields _ (by simp)

theorem fields?_request (r : RequestPlan) :
    Format.fields? ["headers", "cookies", "preview_id", "prefetch", "phase", "dry_run",
        "forward_draft_mode"] (data r.toJson) =
      some [some (data (textsJson r.headers)), some (data (textsJson r.cookies)),
        (r.previewId.map .text).map data, some (data (.bool r.prefetch)),
        some (data (.text r.phase.name)), some (data (.bool r.dryRun)),
        some (data (.bool r.forwardDraftMode))] := by
  obtain ⟨headers, cookies, previewId, prefetch, phase, dryRun, forwardDraftMode⟩ := r
  cases previewId <;> exact hd.fields _ (by simp [Json.optional])

theorem fields?_scenario (s : Scenario) :
    Format.fields? ["render", "route", "request", "accesses", "phases"] (data s.toJson) =
      some [some (data s.render.toJson), some (data s.route.toJson), some (data s.request.toJson),
        some (data (.array (s.accesses.map .text))),
        some (data (.array (s.phases.map fun p => .text p.name)))] :=
  hd.fields _ (by simp)

end Records

/-! ## Records read back -/

section ReadBack

variable [Codec] {data : Json → Codec.JsonData} (hr : Codec.ReadsJson data)
include hr

theorem optional_revalidate (x : Option UInt64) :
    optional Format.whole? (some (data (.ofOption (fun s => .int s.toNat) x))) = some x := by
  cases x with
  | none => rw [Json.ofOption, optional, hr.null, if_pos rfl]
  | some s =>
    rw [Json.ofOption, optional, hr.isNull (by simp), hr.whole]
    rfl

theorem decodeRender_toJson (r : RenderConfig) : decodeRender (data r.toJson) = some r := by
  have hmode : choice RenderMode.all RenderMode.name (data (.text r.mode.name)) = some r.mode :=
    choice_text hr.toAnswers (by cases r.mode <;> rfl)
  have hdiagnostics : optional Format.flag? ((r.diagnosticsOverride.map Json.bool).map data) =
      some r.diagnosticsOverride := optional_map hr.toAnswers hr.flag (by simp) _
  rw [decodeRender, fields?_render hr.toAnswers]
  simp only [orElse, hmode, hdiagnostics]

theorem decodeRoute_toJson (r : RouteConfig) : decodeRoute (data r.toJson) = some r := by
  have hdynamic : choice DynamicBehavior.all DynamicBehavior.name (data (.text r.dynamic.name)) =
      some r.dynamic := choice_text hr.toAnswers (by cases r.dynamic <;> rfl)
  rw [decodeRoute, fields?_route hr.toAnswers]
  simp only [orElse, hr.text, hdynamic, optional_revalidate hr]

theorem decodeRequest_toJson (r : RequestPlan) : decodeRequest (data r.toJson) = some r := by
  have hpreview : optional Format.text? ((r.previewId.map Json.text).map data) =
      some r.previewId := optional_map hr.toAnswers hr.text (by simp) _
  have hphase : choice RequestPhase.all RequestPhase.name (data (.text r.phase.name)) =
      some r.phase := choice_text hr.toAnswers (by cases r.phase <;> rfl)
  rw [decodeRequest, fields?_request hr.toAnswers]
  simp only [orElse, texts_textsJson hr.toAnswers, hpreview, hr.flag, hphase]

/-- Every field is written or has the default that is read for it. -/
theorem decode_toJson (s : Scenario) : decode (data s.toJson) = some s := by
  have haccesses : listOf Format.text? (data (.array (s.accesses.map .text))) = some s.accesses :=
    listOf_array hr.toAnswers hr.text _
  have hphases : listOf (choice Phase.all Phase.name)
      (data (.array (s.phases.map fun p => .text p.name))) = some s.phases :=
    listOf_array hr.toAnswers (fun p => choice_text hr.toAnswers (by cases p <;> rfl)) _
  rw [decode, fields?_scenario hr.toAnswers]
  simp only [orElse, decodeRender_toJson hr, decodeRoute_toJson hr, decodeRequest_toJson hr,
    haccesses, hphases]

end ReadBack

/-! ## The tree of a scenario -/

theorem whole_optional {α : Type} {f : α → Json} (h : ∀ a, (f a).Whole) (name : String)
    (x : Option α) : ∀ m ∈ Json.optional name (x.map f), m.2.Whole := by
  intro m hm
  cases x with
  | none => cases hm
  | some a =>
    rw [List.mem_singleton.mp hm]
    exact h a

theorem whole_map {α : Type} {f : α → Json} (h : ∀ a, (f a).Whole) (l : List α) :
    (Json.array (l.map f)).Whole := by
  refine .array fun v hv => ?_
  obtain ⟨a, -, rfl⟩ := List.mem_map.mp hv
  exact h a

theorem whole_textsJson (m : NameMap String) : (textsJson m).Whole := by
  refine .object fun e he => ?_
  obtain ⟨a, -, rfl⟩ := List.mem_map.mp he
  exact .text a.2

theorem whole_render (r : RenderConfig) : r.toJson.Whole :=
  .object (List.forall_mem_cons.mpr ⟨.text _, whole_optional .bool _ _⟩)

theorem whole_route (r : RouteConfig) : r.toJson.Whole := by
  have hrevalidate : (Json.ofOption (fun s => .int s.toNat) r.revalidate).Whole := by
    cases r.revalidate with
    | none => exact .null
    | some s =>
      have := s.toNat_lt
      exact .int (by omega) (by omega)
  refine .object ?_
  simp only [List.forall_mem_cons, List.not_mem_nil, false_implies, implies_true, and_true]
  exact ⟨.text _, .text _, hrevalidate⟩

theorem whole_request (r : RequestPlan) : r.toJson.Whole := by
  refine .object ?_
  simp only [List.forall_mem_append, List.forall_mem_cons, List.not_mem_nil, false_implies,
    implies_true, and_true]
  exact ⟨⟨⟨whole_textsJson _, whole_textsJson _⟩, whole_optional .text _ _⟩,
    .bool _, .text _, .bool _, .bool _⟩

theorem whole_toJson (s : Scenario) : s.toJson.Whole := by
  refine .object ?_
  simp only [List.forall_mem_cons, List.not_mem_nil, false_implies, implies_true, and_true]
  exact ⟨whole_render _, whole_route _, whole_request _, whole_map .text _,
    whole_map (fun p : Phase => .text p.name) _⟩

theorem depth_textsJson (m : NameMap String) : (textsJson m).depth = 1 := by
  have hitems (l : List (String × String)) :
      Json.depthOfMembers (l.map fun e => (e.1, .text e.2)) = 0 := by
    induction l with
    | nil => rfl
    | cons e l ih => simp [Json.depthOfMembers, Json.depth, ih]
  rw [textsJson, Json.depth, hitems]

theorem depthOfItems_text {α : Type} (f : α → String) (l : List α) :
    Json.depthOfItems (l.map fun a => .text (f a)) = 0 := by
  induction l with
  | nil => rfl
  | cons a l ih => simp [Json.depthOfItems, Json.depth, ih]

theorem depth_toJson (s : Scenario) : s.toJson.depth = 3 := by
  have hrender : s.render.toJson.depth = 1 := by
    obtain ⟨mode, diagnostics⟩ := s.render
    cases diagnostics <;> rfl
  have hroute : s.route.toJson.depth = 1 := by
    obtain ⟨path, dynamic, revalidate⟩ := s.route
    cases revalidate <;> rfl
  have hrequest : s.request.toJson.depth = 2 := by
    obtain ⟨headers, cookies, previewId, prefetch, phase, dryRun, forwardDraftMode⟩ := s.request
    have hheaders := depth_textsJson headers
    have hcookies := depth_textsJson cookies
    rw [textsJson] at hheaders hcookies
    cases previewId <;>
      simp [RequestPlan.toJson, Json.optional, Json.depth, Json.depthOfMembers] at * <;> omega
  have haccesses := depthOfItems_text id s.accesses
  have hphases := depthOfItems_text Phase.name s.phases
  simp only [id_eq] at haccesses
  simp [toJson, Json.depth, Json.depthOfMembers, hrender, hroute, hrequest, haccesses, hphases]

/-! ## The text -/

section Text

variable [Codec] {data : Json → Codec.JsonData}

theorem parse_of_reads (hr : Codec.ReadsJson data) {s : Scenario} {text : String}
    (h : Json.Reads text s.toJson) (path : String) : parse (path ++ ".json") text = .ok s := by
  have hname : isJsonName (path ++ ".json") = true := isJsonName_append path (by decide)
  have hparse : Format.parse? text = some (data s.toJson) :=
    hr.parse h s.whole_toJson (by rw [depth_toJson]; decide)
  rw [parse, if_pos hname, ofJson?, hparse, Option.bind_some, decode_toJson hr]

theorem parse_indented (hw : Codec.WritesJson) (hr : Codec.ReadsJson data) (s : Scenario)
    (path : String) :
    (Codec.indented? s.toJson).map (parse (path ++ ".json")) = some (.ok s) := by
  obtain ⟨text, htext, hspells⟩ := hw.indented s.whole_toJson
  rw [htext, Option.map_some, parse_of_reads hr hspells.reads]

theorem parse_compact (hw : Codec.WritesJson) (hr : Codec.ReadsJson data) (s : Scenario)
    (path : String) :
    (Codec.compact? s.toJson).map (parse (path ++ ".json")) = some (.ok s) := by
  obtain ⟨text, htext, hspells⟩ := hw.compact s.whole_toJson
  rw [htext, Option.map_some, parse_of_reads hr hspells.blank.reads]

end Text

end Scenario

/-- A scenario is read back as it was from what is shown of it as JSON. So is one that was read from
any other text. -/
theorem shown_scenario_reads_back [Codec] {data : Json → Codec.JsonData} (hw : Codec.WritesJson)
    (hr : Codec.ReadsJson data) :
    (∀ (s : Scenario) (path : String),
      (Codec.indented? s.toJson).map (Scenario.parse (path ++ ".json")) = some (.ok s) ∧
        (Codec.compact? s.toJson).map (Scenario.parse (path ++ ".json")) = some (.ok s)) ∧
    (∀ (files : FileTree) (cwd : Path) (verbose : Bool) (l : Loaded),
      ∃ text, Codec.indented? l.scenario.toJson = some text ∧
        Command.run { files, cwd, console := { json := true, verbose }, loaded := l } .show =
          { printed := [.out text], files }) ∧
    ∀ (path text copy : String) (s : Scenario), Scenario.parse path text = .ok s →
      (Codec.indented? s.toJson).map (Scenario.parse (copy ++ ".json")) =
        some (Scenario.parse path text) := by
  refine ⟨fun s path => ⟨s.parse_indented hw hr path, s.parse_compact hw hr path⟩,
    fun files cwd verbose l => ?_, fun path text copy s h => ?_⟩
  · obtain ⟨text, htext, -⟩ := hw.indented l.scenario.whole_toJson
    refine ⟨text, htext, ?_⟩
    rw [Command.run, Command.showIn]
    simp only [if_true, Console.value, htext, Option.toList_some, List.map_cons, List.map_nil]
  · rw [h, s.parse_indented hw hr copy]

/-- Empty lists and a period that is none are not taken for what is left out. -/
theorem shown_scenario_reads_back_with_nothing_in_it :
    let s : Scenario := { accesses := [], phases := [], request := { previewId := some "\"\x00" } }
    Codec.WritesJson ∧ Codec.ReadsJson (fun v => v) ∧
      Scenario.parse "edge.json" s.toJson.indented = .ok s ∧
      Scenario.parse "edge.json" s.toJson.compact = .ok s := by
  intro s
  obtain ⟨hback, -, -⟩ :=
    shown_scenario_reads_back Codec.writesJson_standard Codec.readsJson_standard
  exact ⟨Codec.writesJson_standard, Codec.readsJson_standard, Option.some.inj (hback s "edge").1,
    Option.some.inj (hback s "edge").2⟩

end RequestAccess
