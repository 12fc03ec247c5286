import RequestAccess.CookieJar

/-!
# Cookies in a header

A header brings the name and the value of a cookie back if neither has blank space at its ends or a
character that the header is cut at.
-/

namespace RequestAccess

namespace Cookie

/-- A header brings the text back as a value. -/
def isPlainValue (text : List Char) : Bool := !text.contains ';' && Text.isBare text

/-- A header brings the text back as a name. -/
def isPlainName (text : List Char) : Bool :=
  isPlainValue text && !text.contains '=' && !text.isEmpty

theorem isPlainValue_iff {text : List Char} :
    isPlainValue text = true ↔ ';' ∉ text ∧ Text.isBare text = true := by
  simp [isPlainValue]

theorem isPlainName_iff {text : List Char} :
    isPlainName text = true ↔ isPlainValue text = true ∧ '=' ∉ text ∧ text ≠ [] := by
  simp [isPlainName, and_assoc]

end Cookie

namespace CookieJar

/-! ## One piece -/

theorem pair?_of_plain {name value : List Char} (hn : Cookie.isPlainName name = true)
    (hv : Text.isBare value = true) :
    pair? (name ++ '=' :: value) =
      some { name := String.ofList name, value := String.ofList value } := by
  obtain ⟨hplain, heq, hne⟩ := Cookie.isPlainName_iff.mp hn
  have hcut : Text.cut? '=' (name ++ '=' :: value) = some (name, value) :=
    Text.cut?_eq_some.mpr ⟨heq, rfl⟩
  have hname := Text.trim_of_isBare (Cookie.isPlainValue_iff.mp hplain).2
  simp only [pair?, hcut, hname, Text.trim_of_isBare hv]

theorem of_pair? {piece : List Char} {c : Cookie} (h : pair? piece = some c) :
    ∃ name value, piece = name ++ '=' :: value ∧ '=' ∉ name ∧ Text.trim name ≠ [] ∧
      c = { name := String.ofList (Text.trim name), value := String.ofList (Text.trim value) } := by
  unfold pair? at h
  split at h
  · cases h
  · rename_i name value hcut
    obtain ⟨hname, hpiece⟩ := Text.cut?_eq_some.mp hcut
    split at h
    · cases h
    · next hne => exact ⟨name, value, hpiece, hname, hne, (Option.some.inj h).symm⟩

theorem value_of_pair? {piece : List Char} {c : Cookie} (hc : pair? piece = some c)
    (hp : ';' ∉ piece) : Cookie.isPlainValue c.value.toList = true := by
  obtain ⟨name, value, rfl, -, -, rfl⟩ := of_pair? hc
  rw [String.toList_ofList, Cookie.isPlainValue_iff]
  refine ⟨fun h => hp ?_, Text.isBare_trim value⟩
  exact List.mem_append_right _ (List.mem_cons_of_mem _ (Text.mem_of_mem_trim h))

/-! ## The header -/

theorem pairs_of_piece {header : List Char} (h : ';' ∉ header) :
    pairs header = (pair? header).toList := by
  rw [pairs, Text.pieces_of_not_mem h]
  cases hp : pair? header <;> simp [hp]

theorem pairs_render {c : Cookie} (hn : Cookie.isPlainName c.name.toList = true)
    (hv : Cookie.isPlainValue c.value.toList = true) :
    pairs c.render.toList = [{ name := c.name, value := c.value }] := by
  obtain ⟨hvalue, hbare⟩ := Cookie.isPlainValue_iff.mp hv
  have hname := (Cookie.isPlainValue_iff.mp (Cookie.isPlainName_iff.mp hn).1).1
  have hchars : c.render.toList = c.name.toList ++ '=' :: c.value.toList := by
    simp [Cookie.render]
  have hsemicolon : ';' ∉ c.name.toList ++ '=' :: c.value.toList := by
    simp [hname, hvalue]
  rw [hchars, pairs_of_piece hsemicolon, pair?_of_plain hn hbare]
  simp

@[simp] theorem get?_file (j : CookieJar) (c : Cookie) (name : String) :
    (j.file c).get? name = if name = c.name then some c else j.get? name :=
  NameMap.get?_insert ..

theorem mem_of_foldl_file {l : List Cookie} {j : CookieJar} {name : String} {c : Cookie}
    (h : (l.foldl file j).get? name = some c) : c ∈ l ∨ j.get? name = some c := by
  induction l generalizing j with
  | nil => exact .inr h
  | cons x l ih =>
    rcases ih h with hmem | hfound
    · exact .inl (List.mem_cons_of_mem _ hmem)
    · rw [get?_file] at hfound
      split at hfound
      · cases hfound
        exact .inl List.mem_cons_self
      · exact .inr hfound

theorem value_of_ofHeader {header name : String} {c : Cookie}
    (h : (ofHeader header).get? name = some c) : Cookie.isPlainValue c.value.toList = true := by
  rcases mem_of_foldl_file h with hmem | hsealed
  · obtain ⟨piece, hpiece, hc⟩ := List.mem_filterMap.mp hmem
    exact value_of_pair? hc (Text.not_mem_of_mem_pieces hpiece)
  · cases hsealed

theorem ofHeader_render {c : Cookie} (hn : Cookie.isPlainName c.name.toList = true)
    (hv : Cookie.isPlainValue c.value.toList = true) :
    (ofHeader c.render).get? c.name = some { name := c.name, value := c.value } := by
  rw [ofHeader, pairs_render hn hv]
  simp

theorem readonly_foldl_file (l : List Cookie) (j : CookieJar) :
    (l.foldl file j).readonly = j.readonly := by
  induction l generalizing j with
  | nil => rfl
  | cons c rest ih => exact ih (j.file c)

theorem readonly_ofHeader (header : String) : (ofHeader header).readonly = true :=
  readonly_foldl_file _ .sealed

end CookieJar

end RequestAccess
