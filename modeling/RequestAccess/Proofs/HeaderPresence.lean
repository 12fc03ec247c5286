import RequestAccess.Proofs.HeaderViews

/-!
# Headers that are there and cannot be read

A name can be read exactly if it is listed. A name whose values are all no visible text is there,
and it can neither be read nor is it listed.
-/

namespace RequestAccess

namespace Headers

variable {h changed : Headers} {b : HeaderBlock}

/-! ## Names in any letter case -/

theorem get?_toLower (h : Headers) (name : String) : h.get? name.toLower = h.get? name := by
  unfold get?
  rw [headerName?_toLower]

theorem get?_of_name {name key : String} (hname : headerName? name = some key) :
    h.get? name = combined? (h.valuesOf key) := by
  simp only [get?, hname]

/-! ## What is there -/

theorem Holds.contains (hb : h.Holds b) (name : String) :
    h.contains name = true ↔ b.named name ≠ [] := by
  unfold Headers.contains
  cases hname : headerName? name with
  | none =>
    simp [HeaderBlock.named_of_no_name hname]
  | some key =>
    have hvalues : h.valuesOf key = (b.named name).map (·.value) := by
      rw [hb.values, headerName?_eq_some hname]
      rfl
    have hkey : h.lines.contains key = true ↔ h.valuesOf key ≠ [] := by
      have hoccupied := hb.occupied key
      rw [NameMap.contains, valuesOf]
      cases hlines : h.lines.get? key with
      | none => simp
      | some values => simpa [hlines] using hoccupied
    change h.lines.contains key = true ↔ _
    rw [hkey, hvalues, Ne, List.map_eq_nil_iff]

theorem Reads.isSome_get? (hb : h.Reads b) (name : String) :
    (h.get? name).isSome = true ↔ ∃ l ∈ b.named name, l.text? ≠ none := by
  have htexts : b.texts name ≠ [] ↔ ∃ l ∈ b.named name, l.text? ≠ none := by
    simp [HeaderBlock.texts, List.filterMap_eq_nil_iff]
  rw [hb.get, ← htexts, HeaderBlock.combined?]
  split <;> simp_all

theorem Reads.mem_names (hb : h.Reads b) (name : String) :
    (h.get? name).isSome = true ↔ name.toLower ∈ h.names := by
  rw [hb.names, List.mem_map, Option.isSome_iff_exists]
  constructor
  · rintro ⟨text, htext⟩
    rw [← get?_toLower, hb.get] at htext
    exact ⟨_, (hb.entry name.toLower text).mpr ⟨Text.toLower_toLower name, htext⟩, rfl⟩
  · rintro ⟨⟨_, text⟩, hmem, rfl⟩
    refine ⟨text, ?_⟩
    rw [← get?_toLower, hb.get]
    exact ((hb.entry name.toLower text).mp hmem).2

/-! ## What was put there -/

theorem combined?_concat (values : List HeaderValue) (value : HeaderValue) :
    combined? (values ++ [value]) = match value.text? with
      | some text => some ((combined? values).elim text (· ++ ", " ++ text))
      | none => combined? values := by
  rw [combined?_eq, combined?_eq, List.filterMap_append]
  cases htext : value.text? with
  | none => simp [htext]
  | some text =>
    by_cases hnil : values.filterMap HeaderValue.text? = []
    · simp [hnil, htext, Text.join]
    · have hjoin := Text.join_concat ", " hnil text
      simp [hnil, htext, hjoin]

section Line

variable {name value : String} {l : HeaderLine}

theorem combined?_line (hl : HeaderLine.ofTexts? name value = some l) (values : List HeaderValue) :
    combined? (values ++ [l.value]) =
      if HeaderValue.isVisibleText value then
        some ((combined? values).elim value (· ++ ", " ++ value))
      else combined? values := by
  rw [combined?_concat, l.text?_value, HeaderLine.text?_ofTexts? hl]
  by_cases hvisible : HeaderValue.isVisibleText value = true
  · simp only [if_pos hvisible]
  · simp only [if_neg hvisible]

theorem get?_insert_line (hl : HeaderLine.ofTexts? name value = some l) (h : Headers)
    (values : List HeaderValue) :
    Headers.get? { h with lines := h.lines.insert l.name values } name = combined? values := by
  rw [get?_of_name (HeaderLine.of_ofTexts? hl).1, valuesOf_insert, if_pos rfl]

theorem of_line_ok {refused : Bool} {line? : Option HeaderLine} {f : HeaderLine → Headers}
    {e e' : StoreError} (hline : (if refused then .error e else match line? with
      | some l => .ok (f l)
      | none => .error e') = Except.ok changed) : ∃ l, line? = some l ∧ changed = f l := by
  split at hline
  · cases hline
  · split at hline
    · next l => exact ⟨l, rfl, (Except.ok.inj hline).symm⟩
    · cases hline

theorem of_set_ok (hset : h.set name value = .ok changed) :
    ∃ l, HeaderLine.ofTexts? name value = some l ∧
      changed = { h with lines := h.lines.insert l.name [l.value] } := by
  rw [set_eq] at hset
  exact of_line_ok hset

theorem of_append_ok (happend : h.append name value = .ok changed) :
    ∃ l, HeaderLine.ofTexts? name value = some l ∧
      changed = { h with lines := h.lines.insert l.name (h.valuesOf l.name ++ [l.value]) } := by
  rw [append_eq] at happend
  exact of_line_ok happend

theorem get?_of_set (hset : h.set name value = .ok changed) :
    changed.get? name = if HeaderValue.isVisibleText value then some value else none := by
  obtain ⟨l, hl, rfl⟩ := of_set_ok hset
  rw [get?_insert_line hl]
  exact combined?_line hl []

theorem get?_of_append (happend : h.append name value = .ok changed) :
    changed.get? name = if HeaderValue.isVisibleText value then
      some ((h.get? name).elim value (· ++ ", " ++ value)) else h.get? name := by
  obtain ⟨l, hl, rfl⟩ := of_append_ok happend
  rw [get?_insert_line hl, combined?_line hl, ← get?_of_name (HeaderLine.of_ofTexts? hl).1]

end Line

end Headers

/-- A name can be read exactly if it is listed, which is if it has a value that is visible text. It
is there if it has any value, so that being there and being read differ if it has values and none of
them is visible text. What is set is read back, and what is appended is read after what was there,
if it is visible text. If not, setting leaves nothing to read and appending leaves what there was.
-/
theorem headers_present_by_text (o : HeaderOrigin) {start : Headers}
    (hstart : o.headers = .ok start) (calls : List HeaderCall) (name : String) :
    let h := start.after calls
    let lines := HeaderBlock.named (o.after calls) name
    ((h.get? name).isSome = true ↔ name.toLower ∈ h.names) ∧
    ((h.get? name).isSome = true ↔ ∃ l ∈ lines, l.text? ≠ none) ∧
    (h.contains name = true ↔ lines ≠ []) ∧
    ((h.contains name = true ↔ (h.get? name).isSome = true) ↔
      (lines = [] ∨ ∃ l ∈ lines, l.text? ≠ none)) ∧
    (∀ value changed, h.set name value = .ok changed →
      changed.get? name = if HeaderValue.isVisibleText value then some value else none) ∧
    ∀ value changed, h.append name value = .ok changed →
      changed.get? name = if HeaderValue.isVisibleText value then
        some ((h.get? name).elim value (· ++ ", " ++ value)) else h.get? name := by
  intro h lines
  have hb : h.Holds (o.after calls) := (HeaderOrigin.holds_after hstart calls).1
  have hread := hb.reads.isSome_get? name
  have hthere := hb.contains name
  refine ⟨hb.reads.mem_names name, hread, hthere, ?_, fun _ _ => Headers.get?_of_set,
    fun _ _ => Headers.get?_of_append⟩
  rw [hread, hthere]
  constructor
  · intro hagree
    by_cases hnil : lines = []
    · exact .inl hnil
    · exact .inr (hagree.mp hnil)
  · rintro (hnil | hvisible)
    · simp [lines, hnil]
    · have hne : lines ≠ [] := by
        obtain ⟨l, hl, -⟩ := hvisible
        exact List.ne_nil_of_mem hl
      exact iff_of_true hne hvisible

/-- A value that is set and one that is appended. -/
theorem headers_present_by_text_of_two_values :
    let once := Headers.empty.after [.set "X-A" "1"]
    let twice := once.after [.append "X-A" "2"]
    Headers.empty.set "X-A" "1" = .ok once ∧ once.get? "X-A" = some "1" ∧
      once.append "X-A" "2" = .ok twice ∧ twice.get? "X-A" = some "1, 2" ∧
      "X-A".toLower ∈ twice.names := by
  intro once twice
  obtain ⟨-, -, -, -, put, -⟩ := headers_present_by_text .empty rfl [] "X-A"
  obtain ⟨-, -, -, -, -, appended⟩ :=
    headers_present_by_text .empty rfl [.set "X-A" "1"] "X-A"
  obtain ⟨listed, -⟩ :=
    headers_present_by_text .empty rfl [.set "X-A" "1", .append "X-A" "2"] "X-A"
  have hset : Headers.empty.set "X-A" "1" = .ok once := rfl
  have happend : once.append "X-A" "2" = .ok twice := rfl
  have honce : once.get? "X-A" = some "1" := (put "1" once hset).trans (if_pos (by decide +kernel))
  have htwice : twice.get? "X-A" = some "1, 2" := by
    have happended : twice.get? "X-A" = if HeaderValue.isVisibleText "2" then
        some ((once.get? "X-A").elim "2" (· ++ ", " ++ "2")) else once.get? "X-A" :=
      appended "2" twice happend
    rw [happended, honce]
    decide +kernel
  refine ⟨hset, honce, happend, htwice, listed.mp ?_⟩
  change (twice.get? "X-A").isSome = true
  rw [htwice]
  rfl

/-- A value that is no visible text is there, and it can neither be read nor is it listed. -/
theorem unseen_header_present :
    ∃ h, Headers.empty.set "x" "é" = .ok h ∧ h.contains "x" = true ∧ h.get? "x" = none ∧
      "x" ∉ h.names :=
  ⟨_, rfl, by decide +kernel, by decide +kernel, by decide +kernel⟩

end RequestAccess
