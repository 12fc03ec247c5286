import RequestAccess.Call

/-!
# Blocks of headers

A block is an ordered multi-map: lines of a name and the bytes of a value, in the order they were
added. Headers hold a block if they keep the same values under the same names.
-/

namespace RequestAccess

/-! ## Names in any letter case -/

theorem toLower_upper : ∀ n < 26, (Char.ofNat (65 + n)).isAlphanum = true ∧
    (Char.ofNat (65 + n)).toLower.isAlphanum = true ∧
    (Char.ofNat (65 + n)).toLower.toLower = (Char.ofNat (65 + n)).toLower := by
  decide

theorem toLower_cases (c : Char) : c.toLower = c ∨
    c.isAlphanum = true ∧ c.toLower.isAlphanum = true ∧ c.toLower.toLower = c.toLower := by
  by_cases h : c.val ≥ 'A'.val ∧ c.val ≤ 'Z'.val
  · obtain ⟨n, hn⟩ : ∃ n, c.toNat = 65 + n := Nat.exists_eq_add_of_le h.1
    have hle : c.toNat ≤ 90 := h.2
    have hc : c = Char.ofNat (65 + n) := by rw [← hn, Char.ofNat_toNat]
    exact .inr (hc ▸ toLower_upper n (by omega))
  · exact .inl (dif_neg h)

theorem toLower_toLower (c : Char) : c.toLower.toLower = c.toLower := by
  rcases toLower_cases c with h | ⟨-, -, h⟩
  · rw [h, h]
  · exact h

theorem isTokenChar_toLower (c : Char) : isTokenChar c.toLower = isTokenChar c := by
  rcases toLower_cases c with h | ⟨h, hlower, -⟩
  · rw [h]
  · simp [isTokenChar, h, hlower]

theorem Text.toList_toLower (s : String) : s.toLower.toList = s.toList.map Char.toLower :=
  String.toList_map

theorem toLower_comp_toLower : Char.toLower ∘ Char.toLower = Char.toLower :=
  funext toLower_toLower

theorem Text.toLower_toLower (s : String) : s.toLower.toLower = s.toLower := by
  rw [← String.toList_inj, toList_toLower, toList_toLower, List.map_map, toLower_comp_toLower]

theorem headerName?_toLower (s : String) : headerName? s.toLower = headerName? s := by
  have htoken : isTokenChar ∘ Char.toLower = isTokenChar := funext isTokenChar_toLower
  simp only [headerName?, Text.toList_toLower, List.map_map, toLower_comp_toLower, List.length_map,
    List.all_map, htoken, ne_eq, List.map_eq_nil_iff]

theorem headerName?_eq_some {s name : String} (h : headerName? s = some name) :
    name = s.toLower := by
  simp only [headerName?, Option.ite_none_right_eq_some, Option.some.injEq] at h
  rw [← h.2, ← Text.toList_toLower, String.ofList_toList]

theorem headerName?_of_some {s name : String} (h : headerName? s = some name) :
    headerName? name = some name := by
  obtain rfl := headerName?_eq_some h
  rw [headerName?_toLower, h]

/-! ## Text and its bytes -/

/-- The bytes of a character in UTF-8. -/
def Text.charBytes (c : Char) : List Nat := (String.utf8EncodeChar c).map UInt8.toNat

/-- The bytes of a text in UTF-8. -/
def Text.utf8 (s : String) : List Nat := s.toList.flatMap charBytes

namespace Text

theorem charBytes_ascii {c : Char} (h : c.toNat < 128) : charBytes c = [c.toNat] := by
  have hle : c.val.toNat ≤ 127 := Nat.le_of_lt_succ h
  have hbyte : (UInt8.ofNat c.val.toNat).toNat = c.toNat := by
    rw [UInt8.toNat_ofNat']
    exact Nat.mod_eq_of_lt (by change c.toNat < 256; omega)
  simp only [charBytes, String.utf8EncodeChar, if_pos hle, List.map_cons, List.map_nil, hbyte]

theorem charBytes_high {c : Char} (h : 128 ≤ c.toNat) :
    charBytes c ≠ [] ∧ ∀ b ∈ charBytes c, 128 ≤ b ∧ b < 256 := by
  have hle : ¬ c.val.toNat ≤ 127 := Nat.not_le.mpr h
  simp only [charBytes, String.utf8EncodeChar, if_neg hle]
  split
  · simp; omega
  · split <;> simp <;> omega

theorem all_utf8 {p q : Nat → Bool} (r : Bool) (hlow : ∀ n < 128, p n = q n)
    (hbyte : ∀ n, 128 ≤ n → n < 256 → p n = r) (hcode : ∀ n, 128 ≤ n → q n = r) (s : String) :
    (utf8 s).all p = s.toList.all fun c => q c.toNat := by
  rw [utf8, List.all_flatMap]
  congr 1
  funext c
  rcases Nat.lt_or_ge c.toNat 128 with h | h
  · simp [charBytes_ascii h, hlow _ h]
  · obtain ⟨hne, hall⟩ := charBytes_high h
    rw [hcode _ h]
    cases r with
    | true => exact List.all_eq_true.mpr fun b hb => hbyte b (hall b hb).1 (hall b hb).2
    | false =>
      obtain ⟨b, hb⟩ := List.exists_mem_of_ne_nil _ hne
      rw [List.all_eq_false]
      exact ⟨b, hb, by rw [hbyte b (hall b hb).1 (hall b hb).2]; decide⟩

theorem ofNat_utf8 {s : String} (h : ∀ c ∈ s.toList, c.toNat < 128) :
    String.ofList ((utf8 s).map Char.ofNat) = s := by
  have hchars (l : List Char) (hl : ∀ c ∈ l, c.toNat < 128) :
      (l.flatMap charBytes).map Char.ofNat = l := by
    induction l with
    | nil => rfl
    | cons c rest ih =>
      obtain ⟨hc, hrest⟩ := List.forall_mem_cons.mp hl
      rw [List.flatMap_cons, List.map_append, ih hrest, charBytes_ascii hc, List.map_cons,
        Char.ofNat_toNat]
      rfl
  rw [utf8, hchars _ h, String.ofList_toList]

end Text

namespace HeaderValue

theorem isVisible_lt {n : Nat} (h : isVisible n = true) : n < 128 := by
  simp only [isVisible, Bool.or_eq_true, Bool.and_eq_true, decide_eq_true_eq, beq_iff_eq] at h
  omega

/-- All characters are tabs, blanks, or characters of ASCII that have a glyph. -/
def isVisibleText (s : String) : Bool := s.toList.all fun c => isVisible c.toNat

theorem isVisible_utf8 (s : String) : (Text.utf8 s).all isVisible = isVisibleText s := by
  have high (n : Nat) (h : 128 ≤ n) : isVisible n = false :=
    Bool.eq_false_iff.mpr fun hv => Nat.not_lt.mpr h (isVisible_lt hv)
  exact Text.all_utf8 false (fun _ _ => rfl) (fun n h _ => high n h) high s

theorem ofNat_utf8 {s : String} (h : isVisibleText s = true) :
    String.ofList ((Text.utf8 s).map Char.ofNat) = s :=
  Text.ofNat_utf8 fun c hc => isVisible_lt (List.all_eq_true.mp h c hc)

theorem isAllowed_utf8 (s : String) :
    (Text.utf8 s).all (fun b => b < 256 && isAllowed b) =
      s.toList.all fun c => isAllowed c.toNat := by
  refine Text.all_utf8 true (fun n h => ?_) (fun n h hn => ?_) (fun n h => ?_) s
  · simp [show n < 256 by omega]
  · simp [isAllowed]; omega
  · simp [isAllowed]; omega

theorem ofBytes?_utf8 (s : String) : ofBytes? (Text.utf8 s) = ofString? s := by
  unfold ofBytes? ofString?
  rw [isAllowed_utf8, isVisible_utf8]
  change _ = if _ then some (if isVisibleText s then readable s else unreadable) else none
  by_cases h : isVisibleText s = true
  · rw [ofNat_utf8 h]
  · simp only [h, if_false, Bool.false_eq_true]

end HeaderValue

/-! ## Lines -/

/-- A name in lower case and the bytes of a value. -/
structure HeaderLine where
  name : String
  bytes : List Nat
  isName : headerName? name = some name
  isValue : (HeaderValue.ofBytes? bytes).isSome = true

namespace HeaderLine

/-- The bytes as text, if all of them are visible. -/
def text? (l : HeaderLine) : Option String :=
  if l.bytes.all HeaderValue.isVisible then some (String.ofList (l.bytes.map Char.ofNat)) else none

/-- What headers keep of the bytes. -/
def value (l : HeaderLine) : HeaderValue := l.text?.elim .unreadable .readable

/-- The line of a name in any letter case and of a value, if they are a name and a value. -/
def ofTexts? (name value : String) : Option HeaderLine :=
  if h : (headerName? name).isSome = true ∧ (HeaderValue.ofString? value).isSome = true then
    some {
      name := name.toLower
      bytes := Text.utf8 value
      isName := by
        obtain ⟨key, hkey⟩ := Option.isSome_iff_exists.mp h.1
        rw [headerName?_toLower, hkey, headerName?_eq_some hkey]
      isValue := by rw [HeaderValue.ofBytes?_utf8, h.2] }
  else none

theorem text?_value (l : HeaderLine) : l.value.text? = l.text? := by
  unfold value
  cases l.text? <;> rfl

theorem ofBytes?_bytes (l : HeaderLine) : HeaderValue.ofBytes? l.bytes = some l.value := by
  have hvalue := l.isValue
  unfold HeaderValue.ofBytes? at hvalue ⊢
  split at hvalue
  · next h =>
    rw [if_pos h, value, text?]
    split <;> rfl
  · cases hvalue

section OfTexts

variable {name value : String} {l : HeaderLine}

theorem name_ofTexts? (h : ofTexts? name value = some l) : l.name = name.toLower := by
  simp only [ofTexts?, Option.dite_none_right_eq_some, Option.some.injEq] at h
  obtain ⟨-, rfl⟩ := h
  rfl

theorem bytes_ofTexts? (h : ofTexts? name value = some l) : l.bytes = Text.utf8 value := by
  simp only [ofTexts?, Option.dite_none_right_eq_some, Option.some.injEq] at h
  obtain ⟨-, rfl⟩ := h
  rfl

theorem ofTexts?_eq_none : ofTexts? name value = none ↔
    headerName? name = none ∨ HeaderValue.ofString? value = none := by
  simp [ofTexts?, Classical.or_iff_not_imp_left, Option.isSome_iff_ne_none]

theorem of_ofTexts? (h : ofTexts? name value = some l) :
    headerName? name = some l.name ∧ HeaderValue.ofString? value = some l.value := by
  have hname : headerName? name = some l.name := by
    rw [← headerName?_toLower, ← name_ofTexts? h, l.isName]
  have hvalue : HeaderValue.ofString? value = some l.value := by
    rw [← HeaderValue.ofBytes?_utf8, ← bytes_ofTexts? h, l.ofBytes?_bytes]
  exact ⟨hname, hvalue⟩

theorem text?_ofTexts? (h : ofTexts? name value = some l) :
    l.text? = if HeaderValue.isVisibleText value then some value else none := by
  rw [text?, bytes_ofTexts? h, HeaderValue.isVisible_utf8]
  split
  · next hv => rw [HeaderValue.ofNat_utf8 hv]
  · rfl

end OfTexts

end HeaderLine

namespace Headers

/-- What is wrong with two texts that are no line: the name, or else the value. -/
def fault (name value : String) : StoreError :=
  .invalidHeader (if headerName? name = none then name else value)

theorem line_eq (name value : String) : line name value =
    match HeaderLine.ofTexts? name value with
    | some l => .ok (l.name, l.value)
    | none => .error (fault name value) := by
  unfold line fault
  cases h : HeaderLine.ofTexts? name value with
  | some l =>
    obtain ⟨hname, hvalue⟩ := HeaderLine.of_ofTexts? h
    simp only [hname, hvalue]
  | none =>
    cases hname : headerName? name with
    | none => rfl
    | some key =>
      have hvalue : HeaderValue.ofString? value = none :=
        (HeaderLine.ofTexts?_eq_none.mp h).resolve_left (by simp [hname])
      simp only [hvalue, reduceCtorEq, if_false]

theorem set_eq (h : Headers) (name value : String) : h.set name value =
    if h.isSealed then .error .readonlyHeaders
    else match HeaderLine.ofTexts? name value with
      | some l => .ok { h with lines := h.lines.insert l.name [l.value] }
      | none => .error (fault name value) := by
  unfold set
  rw [line_eq]
  cases HeaderLine.ofTexts? name value <;> rfl

theorem append_eq (h : Headers) (name value : String) : h.append name value =
    if h.isSealed then .error .readonlyHeaders
    else match HeaderLine.ofTexts? name value with
      | some l => .ok (h.add l.name l.value)
      | none => .error (fault name value) := by
  unfold append
  rw [line_eq]
  cases HeaderLine.ofTexts? name value <;> rfl

theorem erase_eq (h : Headers) (name : String) : h.erase name =
    if h.isSealed then .error .readonlyHeaders
    else if headerName? name = none then .error (.invalidHeader name)
    else .ok { h with lines := h.lines.erase name.toLower } := by
  unfold erase
  cases hn : headerName? name with
  | none => rfl
  | some key => rw [headerName?_eq_some hn]; rfl

end Headers

/-! ## Blocks -/

/-- Lines in the order they were added. -/
abbrev HeaderBlock := List HeaderLine

namespace HeaderBlock

/-- The lines of a name in any letter case. -/
def named (b : HeaderBlock) (name : String) : HeaderBlock := b.filter (·.name = name.toLower)

/-- The lines of all other names. -/
def without (b : HeaderBlock) (name : String) : HeaderBlock := b.filter (·.name ≠ name.toLower)

/-- The values of a name that are visible text, in their order. -/
def texts (b : HeaderBlock) (name : String) : List String :=
  (b.named name).filterMap HeaderLine.text?

/-- These values joined by a comma and a blank, if there are any. -/
def combined? (b : HeaderBlock) (name : String) : Option String :=
  if b.texts name = [] then none else some (Text.join ", " (b.texts name))

/-- The lines among pairs of texts. -/
def ofPairs (pairs : List (String × String)) : HeaderBlock :=
  pairs.filterMap fun p => HeaderLine.ofTexts? p.1 p.2

theorem ofPairs_cons (p : String × String) (rest : List (String × String)) :
    ofPairs (p :: rest) = (HeaderLine.ofTexts? p.1 p.2).toList ++ ofPairs rest := by
  rw [ofPairs, List.filterMap_cons]
  cases HeaderLine.ofTexts? p.1 p.2 <;> rfl

theorem named_of_no_name {b : HeaderBlock} {name : String} (h : headerName? name = none) :
    b.named name = [] := by
  refine List.filter_eq_nil_iff.mpr fun l _ same => ?_
  have hname := l.isName
  rw [of_decide_eq_true same, headerName?_toLower, h] at hname
  cases hname

theorem without_of_no_name {b : HeaderBlock} {name : String} (h : headerName? name = none) :
    b.without name = b := by
  refine List.filter_eq_self.mpr fun l hl => decide_eq_true fun same => ?_
  exact List.filter_eq_nil_iff.mp (named_of_no_name h) l hl (decide_eq_true same)

/-- What a call on headers that are not sealed makes of their block. -/
def after (b : HeaderBlock) : HeaderCall → HeaderBlock
  | .set name value =>
    match HeaderLine.ofTexts? name value with
    | some l => b.without name ++ [l]
    | none => b
  | .append name value => b ++ (HeaderLine.ofTexts? name value).toList
  | .delete name => b.without name
  | .get _ | .getSetCookie | .has _ | .entries | .keys | .values => b

end HeaderBlock

end RequestAccess
