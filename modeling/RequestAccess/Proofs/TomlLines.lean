import RequestAccess.Proofs.Digits
import RequestAccess.Toml.Plain
import RequestAccess.Toml.Reader

/-!
# Lines of TOML

What is read off the front of a document, line by line, with the rest of the document behind it. A
text that is written between quotes as it is comes back as it is only if each of its characters
stands for itself there.
-/

namespace RequestAccess.Toml

/-! ## Strings -/

theorem isPlain_eq (c : Char) : isPlain c = isPrintable c := rfl

theorem isVerbatim_iff {c : Char} :
    isVerbatim c = true ↔ isPlain c = true ∧ c ≠ '"' ∧ c ≠ '\\' := by
  simp [isVerbatim, isPlain_eq, and_assoc]

theorem readBasic_verbatim {cs : List Char} (h : cs.all isVerbatim = true) (rest : List Char) :
    readBasic (cs ++ '"' :: rest) = some (cs, rest) := by
  induction cs with
  | nil => rfl
  | cons c cs ih =>
    obtain ⟨hc, hcs⟩ := Bool.and_eq_true_iff.mp (List.all_cons.symm.trans h)
    obtain ⟨hplain, hquote, hslash⟩ := isVerbatim_iff.mp hc
    simp [readBasic, hplain, hslash, ih hcs, prepend]

theorem toNat_of_charOf? {digits : List Char} {c : Char} (h : charOf? digits = some c) :
    Text.hexNumber? digits = some c.toNat := by
  unfold charOf? at h
  split at h
  · next n hn =>
    split at h
    · next hscalar =>
      cases h
      have hvalid : n.isValidChar := by
        simpa [isScalar, Nat.isValidChar] using hscalar
      rw [hn, Char.ofNat, dif_pos hvalid]
      rfl
    · cases h
  · cases h

theorem mem_escapes_of_unescape? {e c : Char} (h : unescape? e = some c) : (e, c) ∈ escapes := by
  unfold unescape? at h
  split at h
  case h_8 => cases h
  all_goals
    cases h
    decide

theorem prepend_eq_some {c : Option Char} {p : Option (List Char × List Char)}
    {cs rest : List Char} (h : prepend c p = some (cs, rest)) :
    ∃ x xs, c = some x ∧ p = some (xs, rest) ∧ cs = x :: xs := by
  cases c with
  | none => cases h
  | some x =>
    cases p with
    | none => cases h
    | some q =>
      cases h
      exact ⟨x, q.1, rfl, rfl, rfl⟩

theorem spells_of_readBasic {s cs rest : List Char} (h : readBasic s = some (cs, rest)) :
    ∃ written, s = written ++ '"' :: rest ∧ SpellsString written cs := by
  fun_induction readBasic s generalizing cs with
  | case1 | case7 => cases h
  | case2 rest' =>
    cases h
    exact ⟨[], rfl, .nil⟩
  | case3 a b c d rest' ih =>
    obtain ⟨x, xs, hx, hxs, rfl⟩ := prepend_eq_some h
    obtain ⟨written, rfl, hw⟩ := ih hxs
    exact ⟨_, rfl, .cons (@SpellsChar.short [a, b, c, d] _ rfl (toNat_of_charOf? hx)) hw⟩
  | case4 a b c d e f g i rest' ih =>
    obtain ⟨x, xs, hx, hxs, rfl⟩ := prepend_eq_some h
    obtain ⟨written, rfl, hw⟩ := ih hxs
    exact ⟨_, rfl, .cons
      (@SpellsChar.long [a, b, c, d, e, f, g, i] _ rfl (toNat_of_charOf? hx)) hw⟩
  | case5 c rest' _ _ ih =>
    obtain ⟨x, xs, hx, hxs, rfl⟩ := prepend_eq_some h
    obtain ⟨written, rfl, hw⟩ := ih hxs
    exact ⟨_, rfl, .cons (.escaped (mem_escapes_of_unescape? hx)) hw⟩
  | case6 c rest' hquote _ _ _ hc ih =>
    obtain ⟨x, xs, hx, hxs, rfl⟩ := prepend_eq_some h
    obtain ⟨written, rfl, hw⟩ := ih hxs
    cases hx
    obtain ⟨hplain, hslash⟩ := Bool.and_eq_true_iff.mp hc
    exact ⟨_, rfl,
      .cons (.verbatim (isVerbatim_iff.mpr ⟨hplain, hquote, by simpa using hslash⟩)) hw⟩

/-! ## Lines in turn -/

theorem ne_of_bare {c d : Char} (h : isBareChar c = true) (hd : isBareChar d = false) : c ≠ d := by
  rintro rfl
  exact Bool.noConfusion (h.symm.trans hd)

theorem not_blank_of_bare {c : Char} (h : isBareChar c = true) : isBlank c = false := by
  simp [isBlank, ne_of_bare h (d := ' ') rfl, ne_of_bare h (d := '\t') rfl]

theorem skipBlank_cons {c : Char} (h : isBlank c = false) (s : List Char) :
    skipBlank (c :: s) = c :: s := by
  simp [skipBlank, h]

/-- The next line of a text, unless only blanks are left. -/
def nextLine? (s : List Char) : Option (Line × List Char) :=
  match skipBlank s with
  | [] => none
  | s => readLine s

theorem nextLine?_bare {c : Char} (h : isBareChar c = true) (s : List Char) :
    nextLine? (c :: s) = readLine (c :: s) := by
  rw [nextLine?, skipBlank_cons (not_blank_of_bare h)]

theorem readLines_of_more {s : List Char} (hs : skipBlank s ≠ []) (fuel : Nat) :
    readLines (fuel + 1) s = (nextLine? s).bind fun p => (readLines fuel p.2).map (p.1 :: ·) := by
  obtain ⟨c, rest, hrest⟩ := List.exists_cons_of_ne_nil hs
  rw [readLines, nextLine?, hrest]
  cases hline : readLine (c :: rest) <;> simp only [hline] <;> rfl

theorem readLines_next {s t : List Char} {line : Line} (h : nextLine? s = some (line, t))
    (fuel : Nat) : readLines (fuel + 1) s = (readLines fuel t).map (line :: ·) := by
  have hs : skipBlank s ≠ [] := by
    intro hnil
    rw [nextLine?, hnil] at h
    cases h
  rw [readLines_of_more hs, h]
  rfl

/-- The lines read off the front of a text, and what is left behind them. -/
inductive Reads : List Char → List Line → List Char → Prop where
  | done (rest : List Char) : Reads rest [] rest
  | line {s t rest : List Char} {line : Line} {lines : List Line}
      (hl : nextLine? s = some (line, t)) (h : Reads t lines rest) :
      Reads s (line :: lines) rest

namespace Reads

variable {s t rest : List Char} {lines more : List Line}

theorem append (h : Reads s lines t) (h' : Reads t more rest) : Reads s (lines ++ more) rest := by
  induction h with
  | done => exact h'
  | line hl _ ih => exact .line hl (ih h')

theorem readLines_eq (h : Reads s lines rest) (fuel : Nat) :
    readLines (fuel + lines.length) s = (readLines fuel rest).map (lines ++ ·) := by
  induction h with
  | done => simp
  | line hl _ ih =>
    rw [List.length_cons, ← Nat.add_assoc, readLines_next hl, ih, Option.map_map]
    rfl

end Reads

/-! ## Keys -/

theorem isBareChar_eq (c : Char) : isBareChar c = isKeyChar c := rfl

theorem readSimpleKey_bare {key : List Char} (hk : key ≠ []) (h : key.all isBareChar = true)
    {c : Char} (hc : isBareChar c = false) (rest : List Char) :
    readSimpleKey (key ++ c :: rest) = some (String.ofList key, c :: rest) := by
  have hall := List.all_eq_true.mp h
  have htake : (key ++ c :: rest).takeWhile isBareChar = key := by
    rw [List.takeWhile_append_of_pos hall, List.takeWhile_cons_of_neg (by simp [hc]),
      List.append_nil]
  have hdrop : (key ++ c :: rest).dropWhile isBareChar = c :: rest := by
    rw [List.dropWhile_append_of_pos hall, List.dropWhile_cons_of_neg (by simp [hc])]
  simp only [readSimpleKey, htake, hdrop]

theorem IsBare.skipBlank {key : String} (h : IsBare key) (s : List Char) :
    skipBlank (key.toList ++ s) = key.toList ++ s := by
  obtain ⟨k, ks, hks⟩ := List.exists_cons_of_ne_nil h.1
  rw [hks]
  exact skipBlank_cons (not_blank_of_bare
    ((isBareChar_eq k).trans (List.all_eq_true.mp h.2 k (hks ▸ List.mem_cons_self)))) _

theorem IsBare.readSimpleKey {key : String} (h : IsBare key) {c : Char}
    (hc : isBareChar c = false) (rest : List Char) :
    readSimpleKey (key.toList ++ c :: rest) = some (key, c :: rest) := by
  rw [readSimpleKey_bare h.1 h.2 hc, String.ofList_toList]

theorem readParts_last {key : String} (h : IsBare key) {c : Char} (hc : isBareChar c = false)
    {rest : List Char} (hd : ∀ s, skipBlank (c :: rest) ≠ '.' :: s) (fuel : Nat) :
    readParts (fuel + 1) (key.toList ++ c :: rest) = some ([key], skipBlank (c :: rest)) := by
  simp only [readParts, h.skipBlank, h.readSimpleKey hc]

theorem readKey_bare {key : String} (h : IsBare key) {c : Char} (hc : isBareChar c = false)
    {rest : List Char} (hd : ∀ s, skipBlank (c :: rest) ≠ '.' :: s) :
    readKey (key.toList ++ c :: rest) = some ([], key, skipBlank (c :: rest)) := by
  rw [readKey, readParts_last h hc hd]
  rfl

theorem readKey_dotted {first last : String} (hf : IsBare first) (hl : IsBare last) {c : Char}
    (hc : isBareChar c = false) {rest : List Char} (hd : ∀ s, skipBlank (c :: rest) ≠ '.' :: s) :
    readKey (first.toList ++ '.' :: (last.toList ++ c :: rest)) =
      some ([first], last, skipBlank (c :: rest)) := by
  have hdot (s : List Char) : skipBlank ('.' :: s) = '.' :: s := rfl
  have hparts (fuel : Nat) :
      readParts (fuel + 2) (first.toList ++ '.' :: (last.toList ++ c :: rest)) =
      some ([first, last], skipBlank (c :: rest)) := by
    rw [readParts, hf.skipBlank, hf.readSimpleKey rfl]
    simp only [hdot, readParts_last hl hc hd, Option.map_some]
  obtain ⟨fuel, hfuel⟩ : ∃ fuel,
      (first.toList ++ '.' :: (last.toList ++ c :: rest)).length + 1 = fuel + 2 := by
    refine Nat.exists_eq_add_of_le' ?_
    simp only [List.length_append, List.length_cons]
    omega
  rw [readKey, hfuel, hparts]
  rfl

/-! ## Headers -/

theorem readLine_header {key : String} (h : IsBare key) (s : List Char) :
    readLine ('[' :: (key.toList ++ s)) = readHeader (key.toList ++ s) := by
  obtain ⟨k, ks, hks⟩ := List.exists_cons_of_ne_nil h.1
  have hk : k ≠ '[' := ne_of_bare
    ((isBareChar_eq k).trans (List.all_eq_true.mp h.2 k (hks ▸ List.mem_cons_self))) rfl
  rw [hks, List.cons_append]
  simp [readLine, hk]

theorem nextLine?_header {key : String} (h : IsBare key) (rest : List Char) :
    nextLine? (Plain.header [key] ++ rest) = some (.header false [] key, rest) := by
  have hkey : readKey (key.toList ++ ']' :: '\n' :: rest) = some ([], key, ']' :: '\n' :: rest) :=
    readKey_bare h rfl fun s hs => by cases hs
  have hline : readHeader (key.toList ++ ']' :: '\n' :: rest) =
      some (.header false [] key, rest) := by
    rw [readHeader, hkey]
    rfl
  have htext : Plain.header [key] ++ rest = '[' :: (key.toList ++ ']' :: '\n' :: rest) := by
    simp [Plain.header, Text.join]
  rw [htext, nextLine?, skipBlank_cons rfl]
  exact (readLine_header h _).trans hline

theorem nextLine?_header_inner {table key : String} (ht : IsBare table) (hk : IsBare key)
    (rest : List Char) :
    nextLine? (Plain.header [table, key] ++ rest) = some (.header false [table] key, rest) := by
  have hkey : readKey (table.toList ++ '.' :: (key.toList ++ ']' :: '\n' :: rest)) =
      some ([table], key, ']' :: '\n' :: rest) :=
    readKey_dotted ht hk rfl fun s hs => by cases hs
  have hline : readHeader (table.toList ++ '.' :: (key.toList ++ ']' :: '\n' :: rest)) =
      some (.header false [table] key, rest) := by
    rw [readHeader, hkey]
    rfl
  have htext : Plain.header [table, key] ++ rest =
      '[' :: (table.toList ++ '.' :: (key.toList ++ ']' :: '\n' :: rest)) := by
    simp [Plain.header, Text.join]
  rw [htext, nextLine?, skipBlank_cons rfl]
  exact (readLine_header ht _).trans hline

/-! ## Trees -/

mutual

/-- The value that a tree is read as. Every table has a header of its own. -/
def ofTree : Json → Toml
  | .text s => .text s
  | .int n => .int n
  | .bool b => .bool b
  | .array items => .array (ofItems items)
  | .object members => .table .header (ofMembers members)
  | _ => .float

def ofItems : List Json → List Toml
  | [] => []
  | v :: rest => ofTree v :: ofItems rest

def ofMembers : List (String × Json) → Members
  | [] => []
  | (name, v) :: rest => (name, ofTree v) :: ofMembers rest

end

theorem ofItems_eq (items : List Json) : ofItems items = items.map ofTree := by
  induction items with
  | nil => rfl
  | cons v items ih => rw [ofItems, ih, List.map_cons]

theorem ofMembers_eq (members : List (String × Json)) :
    ofMembers members = members.map fun m => (m.1, ofTree m.2) := by
  induction members with
  | nil => rfl
  | cons m members ih => rw [ofMembers, ih, List.map_cons]

/-! ## Whole numbers -/

theorem isDigit_eq (c : Char) : isDigit c = c.isDigit := by
  simp only [isDigit, Char.isDigit, ge_iff_le]
  rfl

theorem isDigit_of_mem {n : Nat} {c : Char} (h : c ∈ Nat.toDigits 10 n) : isDigit c = true :=
  (isDigit_eq c).trans (Text.isDigit_of_mem h)

theorem moreDigits_append {digits : List Char} (h : ∀ c ∈ digits, isDigit c = true)
    (rest : List Char) : moreDigits isDigit (digits ++ '\n' :: rest) = (digits, '\n' :: rest) := by
  induction digits with
  | nil => rfl
  | cons d digits ih =>
    obtain ⟨hd, hdigits⟩ := List.forall_mem_cons.mp h
    have hunderscore : d ≠ '_' := by rintro rfl; cases hd
    rw [List.cons_append, moreDigits.eq_def]
    simp [hunderscore, hd, ih hdigits]

theorem readDigits_append {digits : List Char} (hne : digits ≠ [])
    (h : ∀ c ∈ digits, isDigit c = true) (rest : List Char) :
    readDigits isDigit (digits ++ '\n' :: rest) = some (digits, '\n' :: rest) := by
  obtain ⟨d, ds, rfl⟩ := List.exists_cons_of_ne_nil hne
  obtain ⟨hd, hds⟩ := List.forall_mem_cons.mp h
  simp [readDigits, hd, moreDigits_append hds]

theorem valueIn_digits {digits : List Char} (h : ∀ c ∈ digits, isDigit c = true) :
    valueIn 10 digits = digits.foldl (fun n c => n * 10 + (c.toNat - '0'.toNat)) 0 := by
  unfold valueIn
  generalize 0 = start
  induction digits generalizing start with
  | nil => rfl
  | cons d digits ih =>
    obtain ⟨hd, hdigits⟩ := List.forall_mem_cons.mp h
    rw [List.foldl_cons, List.foldl_cons, ih hdigits, digitValue, if_pos hd]

theorem valueIn_toDigits (n : Nat) : valueIn 10 (Nat.toDigits 10 n) = n :=
  (valueIn_digits fun _ => isDigit_of_mem).trans (Text.foldl_toDigits n)

theorem digits_unique {digits rest t : List Char} {c : Char}
    (h : ∀ d ∈ digits, isDigit d = true) (more : List Char) (hmore : ∀ d ∈ more, isDigit d = true)
    (hc : isDigit c = false) (heq : digits ++ '\n' :: rest = more ++ c :: t) : c = '\n' := by
  have hleft : (digits ++ '\n' :: rest).takeWhile isDigit = digits := by
    rw [List.takeWhile_append_of_pos h, List.takeWhile_cons_of_neg (by decide), List.append_nil]
  have hright : (more ++ c :: t).takeWhile isDigit = more := by
    rw [List.takeWhile_append_of_pos hmore, List.takeWhile_cons_of_neg (by simp [hc]),
      List.append_nil]
  rw [heq, hright] at hleft
  subst hleft
  exact (List.cons.inj (List.append_cancel_left heq)).1.symm

theorem readTwo_eq_some {last : Nat} {s two t : List Char} (h : readTwo last s = some (two, t)) :
    (∀ d ∈ two, isDigit d = true) ∧ s = two ++ t := by
  unfold readTwo at h
  split at h
  · split at h
    · next hdigits =>
      cases h
      simp only [Bool.and_eq_true] at hdigits
      exact ⟨by simp [hdigits], rfl⟩
    · cases h
  · cases h

theorem readDate_digits {digits : List Char} (h : ∀ c ∈ digits, isDigit c = true)
    (rest : List Char) : readDate (digits ++ '\n' :: rest) = none := by
  unfold readDate
  split
  · next a b c d t heq =>
    have hyear : ([a, b, c, d].all isDigit) = false := by
      rw [Bool.eq_false_iff]
      intro hyear
      cases digits_unique h [a, b, c, d] (List.all_eq_true.mp hyear) rfl heq
    simp only [hyear, Bool.not_false, if_true]
  · rfl

theorem readTime_digits {digits : List Char} (h : ∀ c ∈ digits, isDigit c = true)
    (rest : List Char) : readTime (digits ++ '\n' :: rest) = none := by
  unfold readTime
  split
  · next hour t htwo =>
    obtain ⟨hhour, heq⟩ := readTwo_eq_some htwo
    cases digits_unique h hour hhour rfl heq
  · rfl

theorem readDateTime_digits {digits : List Char} (h : ∀ c ∈ digits, isDigit c = true)
    (rest : List Char) : readDateTime (digits ++ '\n' :: rest) = none := by
  rw [readDateTime, readDate_digits h, readTime_digits h]
  rfl

theorem readWhole_toDigits (n : Nat) (rest : List Char) :
    readWhole (Nat.toDigits 10 n ++ '\n' :: rest) =
      some (Nat.toDigits 10 n, '\n' :: rest) := by
  rw [readWhole.eq_def]
  split
  · next tail heq =>
    obtain ⟨c, cs, hcs, -⟩ := Text.exists_digit n
    have hzero : n = 0 := by
      rw [hcs] at heq
      exact Text.eq_zero_of_toDigits (hcs.trans (by rw [(List.cons.inj heq).1]))
    subst hzero
    have htail : '\n' :: rest = tail := (List.cons.inj heq).2
    rw [← htail]
    rfl
  · exact readDigits_append Nat.toDigits_ne_nil (fun _ => isDigit_of_mem) rest

theorem readDecimal_toDigits {n : Nat} (h : n < 0x8000000000000000) (rest : List Char) :
    readDecimal false (Nat.toDigits 10 n ++ '\n' :: rest) = some (.int n, '\n' :: rest) := by
  have hrange : inRange n = true := by
    simp only [inRange, Bool.and_eq_true, decide_eq_true_iff]
    omega
  have hfraction : readFraction ('\n' :: rest) = some ([], '\n' :: rest) := rfl
  have hexponent : readExponent ('\n' :: rest) = some (none, '\n' :: rest) := rfl
  simp [readDecimal, readWhole_toDigits, hfraction, hexponent, intOf?, valueIn_toDigits, hrange]

theorem readNumber_toDigits {n : Nat} (h : n < 0x8000000000000000) (rest : List Char) :
    readNumber (Nat.toDigits 10 n ++ '\n' :: rest) = some (.int n, '\n' :: rest) := by
  have hread := readDecimal_toDigits h rest
  have hdigits : ∀ c ∈ Nat.toDigits 10 n, isDigit c = true := fun _ => isDigit_of_mem
  -- The digits end at the line, so that no letter of a base follows a zero among them.
  have hletter (c : Char) (t : List Char) (hc : isDigit c = false) (hne : c ≠ '\n') :
      Nat.toDigits 10 n ++ '\n' :: rest ≠ '0' :: c :: t := fun heq =>
    hne (digits_unique hdigits ['0'] (List.forall_mem_singleton.mpr rfl) hc heq)
  have hfirst (c : Char) (t : List Char) (hc : isDigit c = false) (hne : c ≠ '\n') :
      Nat.toDigits 10 n ++ '\n' :: rest ≠ c :: t := fun heq =>
    hne (digits_unique hdigits [] (by simp) hc heq)
  rw [readNumber.eq_def]
  split
  case h_1 heq => exact absurd heq (hletter 'x' _ rfl (by decide))
  case h_2 heq => exact absurd heq (hletter 'o' _ rfl (by decide))
  case h_3 heq => exact absurd heq (hletter 'b' _ rfl (by decide))
  case h_4 heq => exact absurd heq (hfirst '+' _ rfl (by decide))
  case h_5 heq => exact absurd heq (hfirst '-' _ rfl (by decide))
  case h_6 =>
    rw [readUnsigned.eq_def]
    split
    case h_1 heq => exact absurd heq (hfirst 'i' _ rfl (by decide))
    case h_2 heq => exact absurd heq (hfirst 'n' _ rfl (by decide))
    case h_3 => exact hread

theorem readValue_toDigits {n : Nat} (h : n < 0x8000000000000000) (fuel room : Nat) (rest : List Char) :
    readValue (fuel + 1) room (Nat.toDigits 10 n ++ '\n' :: rest) =
      some (.int n, '\n' :: rest) := by
  have hdate := readDateTime_digits (fun _ => isDigit_of_mem (n := n)) rest
  have hnumber := readNumber_toDigits h rest
  obtain ⟨c, cs, hcs, hdigit⟩ := Text.exists_digit n
  have hne {d : Char} (hd : d.isDigit = false) : c ≠ d := by
    rintro rfl
    exact Bool.noConfusion (hdigit.symm.trans hd)
  rw [hcs, List.cons_append] at hdate hnumber ⊢
  have hword : readWord (c :: (cs ++ '\n' :: rest)) = some (.int n, '\n' :: rest) := by
    rw [readWord.eq_def]
    simp [hne (d := 't') rfl, hne (d := 'f') rfl, hdate, hnumber]
  rw [readValue.eq_def]
  simp [hne (d := '[') rfl, hne (d := '\x7b') rfl, hne (d := '"') rfl, hne (d := '\'') rfl, hword]

/-! ## Strings in place -/

theorem readString_single {c : Char} (hc : c ≠ '"') (s : List Char) :
    readString ('"' :: c :: s) = asString (readBasic (c :: s)) := by
  simp [readString, readLineString, hc]

theorem IsVerbatim.readString {t : String} (h : IsVerbatim t) (rest : List Char) :
    readString (Text.inQuotes t.toList ++ rest) = some (t, rest) := by
  have hbasic := readBasic_verbatim h.2 rest
  obtain ⟨c, cs, hcs⟩ := List.exists_cons_of_ne_nil h.1
  have hquote : c ≠ '"' := (isVerbatim_iff.mp
    (List.all_eq_true.mp h.2 c (hcs ▸ List.mem_cons_self))).2.1
  rw [Text.inQuotes_append]
  rw [hcs, List.cons_append] at hbasic ⊢
  rw [readString_single hquote, hbasic, asString, Option.map_some, ← hcs, String.ofList_toList]

theorem IsVerbatim.readValue {t : String} (h : IsVerbatim t) (fuel room : Nat) (rest : List Char) :
    readValue (fuel + 1) room (Text.inQuotes t.toList ++ rest) = some (.text t, rest) := by
  have hread := h.readString rest
  rw [Text.inQuotes_append] at hread ⊢
  simp only [Toml.readValue, hread, Option.map_some]

/-! ## Lists of texts -/

namespace Plain

theorem skipLines_gap {gap : List Char} (h : Value.IsGap gap) (s : List Char) :
    skipLines false (gap ++ s) = skipLines false s := by
  induction gap with
  | nil => rfl
  | cons c gap ih =>
    obtain ⟨hc, hgap⟩ := List.forall_mem_cons.mp h
    rcases hc with rfl | rfl | rfl <;> exact ih hgap

theorem skipLines_inQuotes (t rest : List Char) :
    skipLines false (Text.inQuotes t ++ rest) = Text.inQuotes t ++ rest := rfl

section Items

variable {i : Item} (hgap : Value.IsGap i.gap) (ht : IsVerbatim i.text) {fuel room : Nat}
  {s rest : List Char}
include hgap

theorem skipLines_item (s : List Char) :
    skipLines false (i.chars ++ s) = '"' :: (i.text.toList ++ '"' :: s) := by
  rw [Item.chars, List.append_assoc, skipLines_gap hgap, skipLines_inQuotes, Text.inQuotes_append]

include ht

theorem readItems_last (hs : skipLines false s = ']' :: rest) :
    readItems (fuel + 2) room (i.chars ++ s) = some ([.text i.text], rest) := by
  have hvalue := ht.readValue fuel room s
  rw [Text.inQuotes_append] at hvalue
  rw [readItems]
  simp [skipLines_item hgap, hvalue, hs]

theorem readItems_more {vs : List Toml} (hs : readItems (fuel + 1) room s = some (vs, rest)) :
    readItems (fuel + 2) room (i.chars ++ ',' :: s) = some (.text i.text :: vs, rest) := by
  have hvalue := ht.readValue fuel room (',' :: s)
  have hcomma : skipLines false (',' :: s) = ',' :: s := rfl
  rw [Text.inQuotes_append] at hvalue
  rw [readItems]
  simp [skipLines_item hgap, hvalue, hcomma, hs]

end Items

theorem readItems_chars {items : List Item} (hne : items ≠ [])
    (h : ∀ i ∈ items, Value.IsGap i.gap ∧ IsVerbatim i.text) (comma : Bool) {close : List Char}
    (hclose : Value.IsGap close) (fuel : Nat) (hfuel : items.length < fuel) (room : Nat)
    (rest : List Char) :
    readItems fuel room (Text.commas (items.map Item.chars) ++
        ((if comma then [','] else []) ++ (close ++ ']' :: rest))) =
      some (items.map fun i => .text i.text, rest) := by
  have hend : skipLines false (close ++ ']' :: rest) = ']' :: rest := skipLines_gap hclose _
  induction items generalizing fuel with
  | nil => exact absurd rfl hne
  | cons i items ih =>
    obtain ⟨⟨hgap, ht⟩, hitems⟩ := List.forall_mem_cons.mp h
    rw [List.length_cons] at hfuel
    obtain ⟨fuel, rfl⟩ : ∃ f, fuel = f + 2 := ⟨fuel - 2, by omega⟩
    cases items with
    | nil =>
      cases comma with
      | false => exact readItems_last hgap ht hend
      | true =>
        refine readItems_more hgap ht ?_
        change readItems (fuel + 1) room (close ++ ']' :: rest) = some ([], rest)
        rw [readItems]
        simp only [hend]
    | cons j items =>
      have htail := ih (List.cons_ne_nil j items) hitems (fuel + 1) (by omega)
      simp only [List.map_cons, Text.commas, List.append_assoc, List.cons_append] at htail ⊢
      exact readItems_more hgap ht htail

/-! ## Values -/

theorem length_le_commas (items : List Item) :
    items.length ≤ (Text.commas (items.map Item.chars)).length := by
  induction items with
  | nil => simp
  | cons i items ih =>
    have hi : 1 ≤ i.chars.length := by
      simp only [Item.chars, Text.inQuotes, List.length_append, List.length_cons]
      omega
    cases items with
    | nil => exact hi
    | cons j items =>
      simp only [List.map_cons, Text.commas, List.length_append, List.length_cons] at ih ⊢
      omega

theorem readValue_chars {v : Value} (h : v.Sound) (fuel : Nat) (hfuel : 2 * v.chars.length ≤ fuel)
    (room : Nat) (rest : List Char) :
    readValue (fuel + 2) (room + 1) (v.chars ++ '\n' :: rest) =
      some (ofTree v.tree, '\n' :: rest) := by
  cases v with
  | text t => exact h.readValue _ _ _
  | int n =>
    rw [Value.chars, Text.toString_nat]
    exact readValue_toDigits h _ _ rest
  | bool b => cases b <;> rfl
  | texts items comma close =>
    obtain ⟨hne, hitems, hclose⟩ := h
    have hlength := length_le_commas items
    have hread := readItems_chars hne hitems comma hclose (fuel + 1) (by
      simp only [Value.chars, List.length_append, List.length_cons] at hfuel
      omega) room ('\n' :: rest)
    simp only [Value.chars, List.cons_append, List.append_assoc, List.nil_append, readValue, hread,
      Option.map_some, Value.tree, ofTree, ofItems_eq, List.map_map]
    rfl

/-! ## Lines -/

theorem readLine_bare {c : Char} (h : isBareChar c = true) (s : List Char) :
    readLine (c :: s) = readPairLine (c :: s) := by
  have hhash := ne_of_bare h (d := '#') rfl
  have hbracket := ne_of_bare h (d := '[') rfl
  have hnewline := ne_of_bare h (d := '\n') rfl
  have hreturn := ne_of_bare h (d := '\r') rfl
  simp [readLine, lineEnd?, hhash, hbracket, hnewline, hreturn]

theorem nextLine?_key {key : String} (h : IsBare key) (s : List Char) :
    nextLine? (key.toList ++ s) = readPairLine (key.toList ++ s) := by
  obtain ⟨k, ks, hks⟩ := List.exists_cons_of_ne_nil h.1
  have hk : isBareChar k = true :=
    (isBareChar_eq k).trans (List.all_eq_true.mp h.2 k (hks ▸ List.mem_cons_self))
  rw [hks, List.cons_append, nextLine?_bare hk]
  exact readLine_bare hk _

theorem readKey_equals {key : String} (h : IsBare key) (s : List Char) :
    readKey (key.toList ++ ' ' :: '=' :: s) = some ([], key, '=' :: s) :=
  readKey_bare h rfl fun s hs => by cases hs

/-- What a line is read as. -/
def Line.read : Line → Toml.Line
  | blank | comment _ => .blank
  | pair key value => .pair { path := [], key, value := ofTree value.tree }

theorem skipBlank_value (v : Value) (h : v.Sound) (s : List Char) :
    skipBlank (v.chars ++ s) = v.chars ++ s := by
  cases v with
  | text t => rfl
  | int n =>
    obtain ⟨c, cs, hcs, hdigit⟩ := Text.exists_digit n
    have hblank : isBlank c = false := by
      rw [isBlank, Bool.or_eq_false_iff, beq_eq_false_iff_ne, beq_eq_false_iff_ne]
      constructor <;> (rintro rfl; cases hdigit)
    rw [Value.chars, Text.toString_nat, hcs]
    exact skipBlank_cons hblank _
  | bool b => cases b <;> rfl
  | texts => rfl

theorem nextLine?_chars {l : Line} (h : l.Sound) (rest : List Char) :
    nextLine? (l.chars ++ rest) = some (l.read, rest) := by
  cases l with
  | blank => rfl
  | comment t =>
    have hall : ∀ c ∈ t.toList, isPlain c = true := List.all_eq_true.mp h
    have hdrop : (t.toList ++ '\n' :: rest).dropWhile isPlain = '\n' :: rest := by
      rw [List.dropWhile_append_of_pos hall, List.dropWhile_cons_of_neg (by decide)]
    have hskip (s : List Char) : skipBlank ('#' :: s) = '#' :: s := rfl
    simp only [Line.chars, List.cons_append, List.append_assoc, List.nil_append, nextLine?, hskip,
      readLine, lineTail?, hdrop, lineEnd?, Option.map_some]
    rfl
  | pair key value =>
    obtain ⟨hkey, hvalue⟩ := h
    have hskip : skipBlank (' ' :: (value.chars ++ '\n' :: rest)) = value.chars ++ '\n' :: rest :=
      skipBlank_value value hvalue _
    have hread := readValue_chars hvalue (2 * (value.chars ++ '\n' :: rest).length + 2)
      (by rw [List.length_append]; omega) 78 rest
    have hfuel : 2 * (' ' :: (value.chars ++ '\n' :: rest)).length + 2 =
        2 * (value.chars ++ '\n' :: rest).length + 2 + 2 := by
      rw [List.length_cons]
      omega
    have hroom : depthLimit - 1 = 78 + 1 := rfl
    have htail : lineTail? ('\n' :: rest) = some rest := rfl
    have htext : (Line.pair key value).chars ++ rest =
        key.toList ++ ' ' :: '=' :: ' ' :: (value.chars ++ '\n' :: rest) := by
      simp [Line.chars]
    rw [htext, nextLine?_key hkey]
    simp only [readPairLine, readKey_equals hkey, hskip, hfuel, hroom, hread, htail,
      Option.map_some]
    rfl

end Plain

end RequestAccess.Toml
