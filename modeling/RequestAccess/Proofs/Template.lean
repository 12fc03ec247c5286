import RequestAccess.Proofs.Decoding
import RequestAccess.Proofs.StandardCodec
import RequestAccess.Scenario.File

/-!
# The file of a new scenario

The template is a valid scenario for every route that can be written between quotes as it is. The
route is not escaped, so that for any other route the file is no scenario, or one of another route.
-/

namespace RequestAccess

/-! ## Strings on one line -/

namespace Toml

theorem SpellsChar.length_pos {w : List Char} {c : Char} (h : SpellsChar w c) : 1 ≤ w.length := by
  cases h <;> simp

theorem not_digit_of_newline {digits : List Char} {n : Nat}
    (h : Text.hexNumber? digits = some n) : '\n' ∉ digits :=
  fun hmem => absurd (Text.isSome_hexValue? h _ hmem) (by decide)

theorem SpellsChar.oneLine {w : List Char} {c : Char} (h : SpellsChar w c) : '\n' ∉ w := by
  cases h with
  | verbatim h =>
    rintro hmem
    cases List.mem_singleton.mp hmem
    exact absurd h (by decide)
  | @escaped e _ h =>
    have hnames : ∀ x ∈ escapes, x.1 ≠ '\n' := by decide
    simpa using (hnames _ h).symm
  | short _ h | long _ h => simpa using not_digit_of_newline h

theorem SpellsChar.verbatim_of_length {w : List Char} {c : Char} (h : SpellsChar w c)
    (hw : w.length ≤ 1) : w = [c] ∧ isVerbatim c = true := by
  cases h with
  | verbatim h => exact ⟨rfl, h⟩
  | escaped | short | long => simp at hw

namespace SpellsString

variable {written cs : List Char}

theorem oneLine (h : SpellsString written cs) : '\n' ∉ written := by
  have hall : ∀ x ∈ written, x ≠ '\n' :=
    h.forall_mem fun _ _ hc x hx heq => hc.oneLine (heq ▸ hx)
  intro hmem
  exact hall _ hmem rfl

theorem verbatim (h : SpellsString written cs) (hlength : written.length ≤ cs.length) :
    written = cs ∧ cs.all isVerbatim = true := by
  induction h with
  | nil => exact ⟨rfl, rfl⟩
  | cons hc h ih =>
    have hpos := hc.length_pos
    have hle := h.length_le fun _ _ hc => hc.length_pos
    rw [List.length_append, List.length_cons] at hlength
    obtain ⟨rfl, hall⟩ := ih (by omega)
    obtain ⟨rfl, hverbatim⟩ := hc.verbatim_of_length (by omega)
    exact ⟨rfl, by rw [List.all_cons, hverbatim, hall]; rfl⟩

/-- Where a string is read in front of a quote and the end of a line, and comes to the very text
that stands before them, each character of the text stands for itself. -/
theorem verbatim_of_same {tail rest : List Char} (h : SpellsString written cs)
    (hs : cs ++ '"' :: '\n' :: tail = written ++ '"' :: rest) : cs.all isVerbatim = true := by
  have hle := h.length_le fun _ _ hc => hc.length_pos
  have hsame (hw : written = cs) : cs.all isVerbatim = true :=
    (h.verbatim (Nat.le_of_eq (congrArg List.length hw))).2
  rcases List.append_eq_append_iff.mp hs with ⟨more, hw, hmore⟩ | ⟨more, hw, -⟩
  · -- The string cannot go on behind the text, where its line ends.
    match more, hmore with
    | [], _ => exact hsame (hw.trans (List.append_nil cs))
    | [_], hmore => cases hmore
    | _ :: c :: more, hmore =>
      cases hmore
      exact absurd (by simp [hw]) h.oneLine
  · have hnil : more = [] := by
      rw [hw, List.length_append] at hle
      exact List.length_eq_zero_iff.mp (by omega)
    exact hsame (by rw [hw, hnil, List.append_nil])

end SpellsString

end Toml

namespace Scenario

open Toml

/-! ## The template as a document -/

/-- What stands above the tables. -/
def templateLines : List Plain.Line :=
  [.comment " Edge render scenario",
    .blank,
    .comment " Accesses run in order under every phase:",
    .comment "   cookies, cookies.get:NAME, cookies.has:NAME, cookies.size, cookies.set:NAME=VALUE",
    .comment "   headers, headers.get:NAME, headers.has:NAME, headers.keys",
    .comment "   draft, draft.is-enabled, draft.enable, draft.disable",
    .pair "accesses" (.texts
      [⟨[], "cookies.get:session"⟩, ⟨[' '], "headers"⟩, ⟨[' '], "draft.is-enabled"⟩] false []),
    .blank,
    .pair "phases" (.texts
      (["request", "prerender", "prerender-ppr", "prerender-legacy", "cache", "private-cache"].map
        (Plain.Item.mk "\n    ".toList)) true ['\n']),
    .blank]

def renderTable : Plain.Table where
  name := "render"
  lines := [.pair "mode" (.text "development"), .blank]
  tables := []

def routeTable (route : String) : Plain.Table where
  name := "route"
  lines :=
    [.pair "path" (.text route),
      .comment " dynamic = \"auto\" | \"force-dynamic\" | \"force-static\" | \"error\"",
      .pair "dynamic" (.text "auto"),
      .pair "revalidate" (.int 60),
      .blank]
  tables := []

def requestTable : Plain.Table where
  name := "request"
  lines :=
    [.pair "phase" (.text "render"),
      .pair "prefetch" (.bool false),
      .pair "dry_run" (.bool false),
      .pair "forward_draft_mode" (.bool false),
      .comment " preview_id = \"preview-secret\"",
      .blank]
  tables :=
    [("headers", [.pair "accept" (.text "text/html"), .blank]),
      ("cookies", [.pair "session" (.text "abc123")])]

/-- What the template has before the table of the route. -/
def templateFront : Plain.Document := ⟨templateLines, [renderTable]⟩

def templateDocument (route : String) : Plain.Document :=
  ⟨templateLines, [renderTable, routeTable route, requestTable]⟩

set_option maxRecDepth 10000 in
theorem templateHead_eq : templateHead.toList =
    templateFront.chars ++ Plain.header ["route"] ++ "path".toList ++ [' ', '=', ' ', '"'] := by
  unfold templateHead
  simp only [String.toList_append, -String.reduceToList]
  repeat rw [String.toList_ofList]
  rfl

/-- What the template has behind the line of the path. -/
def templateEnd : List Char :=
  Plain.charsOf ((routeTable "").lines.drop 1) ++ requestTable.chars

set_option maxRecDepth 10000 in
theorem templateTail_eq : templateTail.toList = '"' :: '\n' :: templateEnd := by
  unfold templateTail
  simp only [String.toList_append, -String.reduceToList]
  repeat rw [String.toList_ofList]
  rfl

theorem chars_templateDocument (route : String) : (templateDocument route).chars =
    templateFront.chars ++ Plain.header ["route"] ++ "path".toList ++ [' ', '=', ' ', '"'] ++
      (route.toList ++ '"' :: '\n' :: templateEnd) := by
  simp only [templateDocument, templateFront, Plain.Document.chars, Plain.Table.chars, routeTable,
    templateEnd, Plain.charsOf, List.flatMap_cons, List.flatMap_nil, List.drop, Plain.Line.chars,
    Plain.Value.chars, Text.inQuotes, List.append_assoc, List.append_nil, List.cons_append,
    List.nil_append]

theorem template_eq (route : String) :
    template route = String.ofList (templateDocument route).chars := by
  rw [template, chars_templateDocument, ← templateTail_eq]
  apply String.toList_inj.mp
  rw [String.toList_ofList, String.toList_append, String.toList_append, templateHead_eq,
    List.append_assoc]

/-! ## The document is sound -/

theorem sound_templateLines : ∀ l ∈ templateLines, l.Sound := by decide

theorem sound_renderTable : renderTable.Sound where
  name := by decide
  lines := by decide
  innerNames := by decide
  innerLines := by decide
  nodup := by decide
  innerNodup := by decide

theorem sound_requestTable : requestTable.Sound where
  name := by decide
  lines := by decide
  innerNames := by decide
  innerLines := by decide
  nodup := by decide
  innerNodup := by decide

theorem sound_routeTable {route : String} (h : IsVerbatim route) : (routeTable route).Sound where
  name := (by decide : IsBare "route")
  lines := by
    have hrest : ∀ l ∈ (routeTable "").lines.drop 1, l.Sound := by decide
    exact List.forall_mem_cons.mpr ⟨⟨by decide, h⟩, hrest⟩
  innerNames := nofun
  innerLines := nofun
  nodup := by
    have hnames : ["path", "dynamic", "revalidate"].Nodup := by decide
    exact hnames
  innerNodup := nofun

theorem sound_templateFront : templateFront.Sound where
  lines := sound_templateLines
  tables := List.forall_mem_cons.mpr ⟨sound_renderTable, nofun⟩
  nodup := by decide

theorem sound_templateDocument {route : String} (h : IsVerbatim route) :
    (templateDocument route).Sound where
  lines := sound_templateLines
  tables := by
    simp only [templateDocument, List.forall_mem_cons]
    exact ⟨sound_renderTable, sound_routeTable h, sound_requestTable, nofun⟩
  nodup := by
    have hnames : ["accesses", "phases", "render", "route", "request"].Nodup := by decide
    exact hnames

/-! ## What the document says -/

/-- What a new scenario file is meant to say. -/
def ofTemplate (route : String) : Scenario where
  render := { mode := .development }
  route := { path := route, dynamic := .auto, revalidate := some 60 }
  request := {
    headers := .ofList [("accept", "text/html")]
    cookies := .ofList [("session", "abc123")] }
  accesses := ["cookies.get:session", "headers", "draft.is-enabled"]
  phases := [.request, .prerender, .prerenderPartial, .prerenderLegacy, .cache, .privateCache]

theorem faults_ofTemplate {route : String} (hroute : route.toList.head? = some '/') :
    (ofTemplate route).faults = [] := by
  have hpath : (ofTemplate route).route.path.toList.head? = some '/' := hroute
  rw [faults, if_pos hpath]
  rfl

section Reading

variable [Codec] {data : Json → Codec.TomlData} (ht : Codec.ReadsToml data) {route : String}
include ht

theorem decodeRender_template :
    decodeRender (data (.object renderTable.members)) = some (ofTemplate "").render := by
  have hfields : Format.fields? ["mode", "dev_diagnostics"] (data (.object renderTable.members)) =
      some [some (data (.text "development")), none] := ht.fields _ (by decide)
  have hmode : choice RenderMode.all RenderMode.name (data (.text "development")) =
      some .development := choice_text ht.toAnswers rfl
  rw [decodeRender, hfields]
  simp only [orElse, hmode]
  rfl

theorem decodeRoute_template (route : String) :
    decodeRoute (data (.object (routeTable route).members)) = some (ofTemplate route).route := by
  have hnames : ["path", "dynamic", "revalidate"].Nodup := by decide
  have hfields : Format.fields? ["path", "dynamic", "revalidate"]
      (data (.object (routeTable route).members)) =
        some [some (data (.text route)), some (data (.text "auto")), some (data (.int 60))] :=
    ht.fields _ hnames
  have hdynamic : choice DynamicBehavior.all DynamicBehavior.name (data (.text "auto")) =
      some .auto := choice_text ht.toAnswers rfl
  have hrevalidate : optional Format.whole? (some (data (.int 60))) = some (some 60) := by
    have hwhole := ht.whole 60 (by decide)
    rw [optional, ht.isNull (by simp)]
    exact congrArg (Option.map some) hwhole
  rw [decodeRoute, hfields]
  simp only [orElse, ht.text, hdynamic, hrevalidate]
  rfl

theorem decodeRequest_template :
    decodeRequest (data (.object requestTable.members)) = some (ofTemplate "").request := by
  have hfields : Format.fields? ["headers", "cookies", "preview_id", "prefetch", "phase", "dry_run",
      "forward_draft_mode"] (data (.object requestTable.members)) =
        some [some (data (.object [("accept", .text "text/html")])),
          some (data (.object [("session", .text "abc123")])), none, some (data (.bool false)),
          some (data (.text "render")), some (data (.bool false)), some (data (.bool false))] :=
    ht.fields _ (by decide)
  have hphase : choice RequestPhase.all RequestPhase.name (data (.text "render")) =
      some .render := choice_text ht.toAnswers rfl
  have htexts (name value : String) : texts (data (.object [(name, .text value)])) =
      some (.ofList [(name, value)]) :=
    texts_object ht.toAnswers (l := [(name, value)]) (by simp)
  rw [decodeRequest, hfields]
  simp only [orElse, optional, htexts, ht.flag, hphase]
  rfl

theorem decode_template (route : String) :
    decode (data (templateDocument route).tree) = some (ofTemplate route) := by
  have hnames : ["accesses", "phases", "render", "route", "request"].Nodup := by decide
  have hfields : Format.fields? ["render", "route", "request", "accesses", "phases"]
      (data (templateDocument route).tree) =
        some [some (data (.object renderTable.members)),
          some (data (.object (routeTable route).members)),
          some (data (.object requestTable.members)),
          some (data (.array ((ofTemplate route).accesses.map .text))),
          some (data (.array ((ofTemplate route).phases.map fun p => .text p.name)))] :=
    ht.fields _ hnames
  have haccesses := listOf_array ht.toAnswers ht.text (ofTemplate route).accesses
  have hphases : listOf (choice Phase.all Phase.name)
      (data (.array ((ofTemplate route).phases.map fun p => .text p.name))) =
        some (ofTemplate route).phases :=
    listOf_array ht.toAnswers (fun p => choice_text ht.toAnswers (by cases p <;> rfl)) _
  rw [decode, hfields]
  simp only [orElse, decodeRender_template ht, decodeRoute_template ht, decodeRequest_template ht,
    haccesses, hphases]
  rfl

theorem ofToml?_template (hroute : route.toList.head? = some '/')
    (h : route.toList.all isVerbatim = true) :
    ofToml? (template route) = some (ofTemplate route) := by
  have hne : route.toList ≠ [] := by
    intro hnil
    rw [hnil] at hroute
    cases hroute
  rw [ofToml?, template_eq, ht.plain (sound_templateDocument ⟨hne, h⟩)]
  exact decode_template ht route

end Reading

/-! ## The path that is read -/

section Path

variable {δ : Type} [Format δ] {v : δ} {path : String}

theorem path_of_decodeRoute {r : RouteConfig} (h : decodeRoute v = some r)
    (hp : Format.Says ["path"] path v) : r.path = path := by
  unfold decodeRoute at h
  split at h
  · next pathField _ _ hfields =>
    obtain ⟨u, hu, htext⟩ := hp _ _ hfields 0 rfl
    cases hu
    have htext : Format.text? pathField = some path := htext
    split at h
    · next hpath _ _ =>
      cases h
      exact Option.some.inj (hpath.symm.trans htext)
    · cases h
  · cases h

theorem path_of_decode {s : Scenario} (h : decode v = some s)
    (hp : Format.Says ["route", "path"] path v) : s.route.path = path := by
  unfold decode at h
  split at h
  · next hfields =>
    obtain ⟨u, hu, hroute⟩ := hp _ _ hfields 1 rfl
    cases hu
    split at h
    · next hdecode _ _ _ =>
      cases h
      exact path_of_decodeRoute hdecode hroute
    · cases h
  · cases h

end Path

theorem verbatim_of_path [Codec] {data : Json → Codec.TomlData} (ht : Codec.ReadsToml data)
    {route : String} (hroute : route.toList.head? = some '/') {s : Scenario}
    (hs : ofToml? (template route) = some s) (hpath : s.route.path = route) :
    route.toList.all isVerbatim = true := by
  obtain ⟨v, hv, hdecode⟩ := Option.bind_eq_some_iff.mp hs
  rw [template_eq, chars_templateDocument] at hv
  have hhead : (route.toList ++ '"' :: '\n' :: templateEnd).head? ≠ some '"' := by
    rw [List.head?_append, hroute]
    simp
  obtain ⟨written, cs, more, hwritten, hspells, hsays⟩ :=
    ht.string sound_templateFront (by decide) (by decide) hhead hv
  have hcs : cs = route.toList := by
    rw [← hpath, path_of_decode hdecode hsays, String.toList_ofList]
  rw [← hcs] at hwritten
  exact hcs ▸ hspells.verbatim_of_same hwritten

/-- The file of a new scenario is a valid scenario of the route if each character of the route
stands for itself between quotes. Of no other route is it a scenario. -/
theorem template_valid [Codec] {data : Json → Codec.TomlData} (ht : Codec.ReadsToml data)
    {route : String} (hroute : route.toList.head? = some '/') :
    (route.toList.all isVerbatim = true →
      ofToml? (template route) = some (ofTemplate route) ∧ (ofTemplate route).faults = [] ∧
        (ofTemplate route).warnings = []) ∧
    ((∃ s, ofToml? (template route) = some s ∧ s.route.path = route) →
      route.toList.all isVerbatim = true) :=
  ⟨fun h => ⟨ofToml?_template ht hroute h, faults_ofTemplate hroute, rfl⟩,
    fun ⟨_, hs, hpath⟩ => verbatim_of_path ht hroute hs hpath⟩

theorem template_valid_with_brackets :
    Codec.ReadsToml Toml.ofTree ∧ "/blog/[slug]".toList.head? = some '/' ∧
      ofToml? (template "/blog/[slug]") = some (ofTemplate "/blog/[slug]") ∧
      (ofTemplate "/blog/[slug]").faults = [] ∧ (ofTemplate "/blog/[slug]").warnings = [] := by
  have ht := Codec.readsToml_standard
  have hroute : "/blog/[slug]".toList.head? = some '/' := by decide
  exact ⟨ht, hroute, (template_valid ht hroute).1 (by decide)⟩

/-- A quote in the route ends the path. -/
theorem template_of_another_route :
    "/a\"b".toList.head? = some '/' ∧
      ¬ ∃ s, ofToml? (template "/a\"b") = some s ∧ s.route.path = "/a\"b" := by
  have hroute : "/a\"b".toList.head? = some '/' := by decide
  refine ⟨hroute, fun ⟨s, hs, hpath⟩ => ?_⟩
  exact absurd (verbatim_of_path Codec.readsToml_standard hroute hs hpath) (by decide)

end Scenario

end RequestAccess
