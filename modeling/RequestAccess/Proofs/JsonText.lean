import Mathlib.Data.List.DropRight
import RequestAccess.Json.Grammar
import RequestAccess.Json.Reader
import RequestAccess.Proofs.Digits

/-!
# Reading JSON by its grammar

Every text that the grammar has for a value is read as that value, with what stands behind it left
over. Hence a text writes at most one value.
-/

namespace RequestAccess.Json

open Text (inQuotes commas inQuotes_append commas_cons eq_zero_of_toDigits toString_nat)

/-! ## Strings -/

theorem readUnits_escaped {e c : Char} (h : unescape? e = some c) (s : List Char) :
    readUnits ('\\' :: e :: s) = (readUnits s).map fun p => (.char c :: p.1, p.2) := by
  have he : e ≠ 'u' := by
    rintro rfl
    cases h
  rw [readUnits.eq_def]
  cases hs : readUnits s <;> simp [he, h, hs]

theorem readUnits_plain {c : Char} (hquote : c ≠ '"') (hslash : c ≠ '\\') (hlow : 0x20 ≤ c.toNat)
    (s : List Char) : readUnits (c :: s) = (readUnits s).map fun p => (.char c :: p.1, p.2) := by
  rw [readUnits.eq_def]
  cases hs : readUnits s <;> simp [hslash, hlow, hs]

theorem readUnits_code {x y z w : Char} {n : Nat} (h : Text.hexNumber? [x, y, z, w] = some n)
    (s : List Char) : readUnits ('\\' :: 'u' :: x :: y :: z :: w :: s) =
      (readUnits s).map fun p => (.code n :: p.1, p.2) := by
  rw [readUnits, h]
  cases readUnits s <;> rfl

theorem unescape?_of_mem {e c : Char} (h : (e, c) ∈ escapes) : unescape? e = some c := by
  simp only [escapes, List.mem_cons, Prod.mk.injEq, List.not_mem_nil, or_false] at h
  rcases h with ⟨rfl, rfl⟩ | ⟨rfl, rfl⟩ | ⟨rfl, rfl⟩ | ⟨rfl, rfl⟩ | ⟨rfl, rfl⟩ | ⟨rfl, rfl⟩ |
    ⟨rfl, rfl⟩ | ⟨rfl, rfl⟩ <;> rfl

theorem isSurrogate_toNat (c : Char) :
    isLowSurrogate c.toNat = false ∧ isHighSurrogate c.toNat = false := by
  have hvalid : c.toNat < 0xD800 ∨ 0xDFFF < c.toNat ∧ c.toNat < 0x110000 := c.valid
  simp only [isLowSurrogate, isHighSurrogate, Bool.and_eq_false_iff, decide_eq_false_iff_not]
  omega

theorem characters?_code (c : Char) (units : List TextUnit) :
    characters? (.code c.toNat :: units) = (characters? units).map (c :: ·) := by
  obtain ⟨hlow, hhigh⟩ := isSurrogate_toNat c
  rw [characters?.eq_def]
  simp [hlow, hhigh]

theorem characters?_halves {c : Char} (hc : 0x10000 ≤ c.toNat) (units : List TextUnit) :
    characters? (.code (0xD800 + (c.toNat - 0x10000) / 0x400) ::
      .code (0xDC00 + (c.toNat - 0x10000) % 0x400) :: units) =
        (characters? units).map (c :: ·) := by
  have hvalid : c.toNat < 0xD800 ∨ 0xDFFF < c.toNat ∧ c.toNat < 0x110000 := c.valid
  have hnotLow : isLowSurrogate (0xD800 + (c.toNat - 0x10000) / 0x400) = false := by
    simp only [isLowSurrogate, Bool.and_eq_false_iff, decide_eq_false_iff_not]
    omega
  have hhigh : isHighSurrogate (0xD800 + (c.toNat - 0x10000) / 0x400) = true := by
    simp only [isHighSurrogate, Bool.and_eq_true, decide_eq_true_iff]
    omega
  have hlow : isLowSurrogate (0xDC00 + (c.toNat - 0x10000) % 0x400) = true := by
    simp only [isLowSurrogate, Bool.and_eq_true, decide_eq_true_iff]
    omega
  have hnumber : 0x10000 + (0xD800 + (c.toNat - 0x10000) / 0x400 - 0xD800) * 0x400 +
      (0xDC00 + (c.toNat - 0x10000) % 0x400 - 0xDC00) = c.toNat := by omega
  simp only [characters?, hnotLow, hhigh, hlow, hnumber, Char.ofNat_toNat, if_true,
    Bool.false_eq_true, if_false]

theorem SpellsChar.read {w : List Char} {c : Char} (h : SpellsChar w c) : ∃ units,
    (∀ s, readUnits (w ++ s) = (readUnits s).map fun p => (units ++ p.1, p.2)) ∧
      ∀ more, characters? (units ++ more) = (characters? more).map (c :: ·) := by
  cases h with
  | plain hquote hslash hlow => exact ⟨[.char c], readUnits_plain hquote hslash hlow, fun _ => rfl⟩
  | escaped h => exact ⟨[.char c], readUnits_escaped (unescape?_of_mem h), fun _ => rfl⟩
  | code h => exact ⟨[.code c.toNat], readUnits_code h, characters?_code c⟩
  | halves hc hhigh hlow =>
    refine ⟨[.code _, .code _], fun s => ?_, characters?_halves hc⟩
    have hread := readUnits_code hhigh
    simp only [List.cons_append, List.nil_append, hread, readUnits_code hlow, Option.map_map]
    rfl

theorem SpellsString.read {written cs : List Char} (h : SpellsString written cs)
    (rest : List Char) : ∃ units,
      readUnits (written ++ '"' :: rest) = some (units, rest) ∧ characters? units = some cs := by
  induction h with
  | nil => exact ⟨[], by simp [readUnits], rfl⟩
  | cons hc _ ih =>
    obtain ⟨first, hfirst, hchar⟩ := hc.read
    obtain ⟨units, hunits, hchars⟩ := ih
    refine ⟨first ++ units, ?_, ?_⟩
    · rw [List.append_assoc, hfirst, hunits]
      rfl
    · rw [hchar, hchars]
      rfl

theorem readText_spelled {written : List Char} {t : String}
    (h : SpellsString written t.toList) (rest : List Char) :
    readText (written ++ '"' :: rest) = some (some t, rest) := by
  obtain ⟨units, hunits, hchars⟩ := h.read rest
  simp [readText, hunits, hchars]

/-! ## Digits -/

theorem isDigit_eq (c : Char) : isDigit c = c.isDigit := by
  simp only [isDigit, Char.isDigit, ge_iff_le]
  rfl

theorem isDigit_of_mem_toDigits {n : Nat} {c : Char} (h : c ∈ Nat.toDigits 10 n) :
    isDigit c = true :=
  (isDigit_eq c).trans (Text.isDigit_of_mem h)

theorem digitsValue_toDigits (n : Nat) : digitsValue (Nat.toDigits 10 n) = n :=
  Text.foldl_toDigits n

theorem exists_digit (n : Nat) : ∃ c cs, Nat.toDigits 10 n = c :: cs ∧ isDigit c = true := by
  obtain ⟨c, cs, hcs, hc⟩ := Text.exists_digit n
  exact ⟨c, cs, hcs, (isDigit_eq c).trans hc⟩

/-- No run of digits goes on with the text. -/
def EndsDigits (rest : List Char) : Prop := rest.head?.any isDigit = false

theorem span_digits {digits rest : List Char} (h : ∀ c ∈ digits, isDigit c = true)
    (hrest : EndsDigits rest) : (digits ++ rest).takeWhile isDigit = digits ∧
      (digits ++ rest).dropWhile isDigit = rest := by
  rw [List.takeWhile_append_of_pos h, List.dropWhile_append_of_pos h]
  cases rest with
  | nil => simp
  | cons c rest =>
    have hc : isDigit c = false := hrest
    simp [hc]

theorem readWhole_toDigits (n : Nat) {rest : List Char} (hrest : EndsDigits rest) :
    readWhole (Nat.toDigits 10 n ++ rest) = some (Nat.toDigits 10 n, rest) := by
  obtain ⟨htake, hdrop⟩ := span_digits (fun c => isDigit_of_mem_toDigits (n := n)) hrest
  obtain ⟨c, cs, hcs, -⟩ := exists_digit n
  rw [readWhole.eq_def]
  split
  · next tail heq =>
    have hzero : n = 0 := by
      rw [hcs] at heq
      exact eq_zero_of_toDigits (hcs.trans (by rw [(List.cons.inj heq).1]))
    subst hzero
    have htail : rest = tail := (List.cons.inj heq).2
    rw [← htail]
    rfl
  · rw [htake, hdrop, hcs]

/-! ## Numbers -/

/-- A number may go on with the character. -/
def continuesNumber (c : Char) : Bool := isDigit c || c == '.' || c == 'e' || c == 'E'

/-- No number goes on with the text. -/
def EndsNumber (rest : List Char) : Prop := rest.head?.any continuesNumber = false

theorem EndsNumber.of_cons {c : Char} {rest : List Char} (h : EndsNumber (c :: rest)) :
    isDigit c = false ∧ c ≠ '.' ∧ c ≠ 'e' ∧ c ≠ 'E' := by
  have hc : continuesNumber c = false := h
  simp only [continuesNumber, Bool.or_eq_false_iff, beq_eq_false_iff_ne] at hc
  obtain ⟨⟨⟨hdigit, hpoint⟩, he⟩, hE⟩ := hc
  exact ⟨hdigit, hpoint, he, hE⟩

theorem EndsNumber.endsDigits {rest : List Char} (h : EndsNumber rest) : EndsDigits rest := by
  cases rest with
  | nil => rfl
  | cons c rest => exact h.of_cons.1

theorem IsDigits.read {digits rest : List Char} (h : IsDigits digits) (hrest : EndsDigits rest) :
    (digits ++ rest).takeWhile isDigit = digits ∧ (digits ++ rest).dropWhile isDigit = rest :=
  span_digits (fun c hc => (isDigit_eq c).trans (h.2 c hc)) hrest

theorem IsExponent.read {exponent rest : List Char} (h : IsExponent exponent)
    (hrest : EndsNumber rest) : readExponent (exponent ++ rest) = some (exponent, rest) ∧
      EndsDigits (exponent ++ rest) ∧ (exponent ++ rest).head? ≠ some '.' := by
  cases h with
  | absent =>
    cases rest with
    | nil => exact ⟨rfl, rfl, nofun⟩
    | cons c rest =>
      obtain ⟨hdigit, hpoint, he, hE⟩ := hrest.of_cons
      exact ⟨by simp [readExponent, he, hE], hdigit, by simpa using hpoint⟩
  | @digits mark sign digits hmark hsign h =>
    obtain ⟨htake, hdrop⟩ := h.read hrest.endsDigits
    obtain ⟨d, ds, rfl⟩ := List.exists_cons_of_ne_nil h.1
    have hd : d.isDigit = true := h.2 d List.mem_cons_self
    have hread : readSign (sign ++ (d :: ds ++ rest)) = (sign, d :: ds ++ rest) := by
      rcases hsign with rfl | rfl | rfl
      · have hplus : d ≠ '+' := by rintro rfl; cases hd
        have hminus : d ≠ '-' := by rintro rfl; cases hd
        rw [readSign.eq_def]
        simp [hplus, hminus]
      · rfl
      · rfl
    refine ⟨?_, ?_, ?_⟩
    · rw [List.cons_append, List.cons_append, List.append_assoc, readExponent, if_pos hmark]
      simp only [hread, htake, hdrop]
      rfl
    · rcases hmark with rfl | rfl <;> rfl
    · rcases hmark with rfl | rfl <;> simp

theorem IsFraction.read {fraction rest : List Char} (h : IsFraction fraction)
    (hdigits : EndsDigits rest) (hpoint : rest.head? ≠ some '.') :
    readFraction (fraction ++ rest) = some (fraction, rest) ∧ EndsDigits (fraction ++ rest) := by
  cases h with
  | absent =>
    cases rest with
    | nil => exact ⟨rfl, rfl⟩
    | cons c rest =>
      have hc : c ≠ '.' := fun hc => hpoint (congrArg some hc)
      refine ⟨?_, hdigits⟩
      rw [readFraction.eq_def]
      simp [hc]
  | @digits digits h =>
    obtain ⟨htake, hdrop⟩ := h.read hdigits
    obtain ⟨d, ds, rfl⟩ := List.exists_cons_of_ne_nil h.1
    refine ⟨?_, rfl⟩
    rw [List.cons_append, readFraction]
    simp only [htake, hdrop]

theorem readUnsigned_spelled (negative : Bool) (n : Nat) {fraction exponent rest : List Char}
    (hfraction : IsFraction fraction) (hexponent : IsExponent exponent) (hrest : EndsNumber rest) :
    readUnsigned negative (Nat.toDigits 10 n ++ (fraction ++ (exponent ++ rest))) =
      some (numberOf negative (Nat.toDigits 10 n) (fraction ++ exponent), rest) := by
  obtain ⟨hreadExponent, hdigits, hpoint⟩ := hexponent.read hrest
  obtain ⟨hreadFraction, hdigits⟩ := hfraction.read hdigits hpoint
  simp only [readUnsigned, readWhole_toDigits n hdigits, hreadFraction, hreadExponent]

theorem readNumber_digits (n : Nat) (s : List Char) :
    readNumber (Nat.toDigits 10 n ++ s) = readUnsigned false (Nat.toDigits 10 n ++ s) := by
  rw [readNumber.eq_def]
  split
  · next heq =>
    obtain ⟨c, cs, hcs, hc⟩ := exists_digit n
    rw [hcs] at heq
    rw [(List.cons.inj heq).1] at hc
    cases hc
  · rfl

theorem readNumber_spelled {sign fraction exponent rest : List Char} (n : Nat)
    (hsign : sign = [] ∨ sign = ['-']) (hfraction : IsFraction fraction)
    (hexponent : IsExponent exponent) (hrest : EndsNumber rest) :
    readNumber (sign ++ (Nat.toDigits 10 n ++ (fraction ++ (exponent ++ rest)))) =
      some (numberOf (sign = ['-']) (Nat.toDigits 10 n) (fraction ++ exponent), rest) := by
  rcases hsign with rfl | rfl
  · rw [List.nil_append, readNumber_digits, readUnsigned_spelled false n hfraction hexponent hrest]
    rfl
  · rw [List.cons_append, List.nil_append, readNumber,
      readUnsigned_spelled true n hfraction hexponent hrest]
    rfl

theorem toDigits_eq_zero {n : Nat} : Nat.toDigits 10 n = ['0'] ↔ n = 0 :=
  ⟨eq_zero_of_toDigits, fun h => h ▸ rfl⟩

theorem SpellsDecimal.read {s rest : List Char} (h : SpellsDecimal s) (hrest : EndsNumber rest) :
    readNumber (s ++ rest) = some (.decimal (String.ofList s), rest) := by
  cases h with
  | signed n hsign hfraction hexponent h =>
    have hread := readNumber_spelled n hsign hfraction hexponent hrest
    simp only [List.append_assoc, toString_nat, hread, numberOf, toDigits_eq_zero,
      decide_eq_true_iff]
    rw [if_pos h]
    rcases hsign with rfl | rfl <;> rfl

theorem toString_int (n : Int) : ∃ sign : List Char, (sign = [] ∨ sign = ['-']) ∧
    (toString n).toList = sign ++ Nat.toDigits 10 n.natAbs ∧ (sign = ['-'] ↔ n < 0) := by
  cases n with
  | ofNat n => exact ⟨[], .inl rfl, toString_nat n, by simp⟩
  | negSucc n =>
    have htext : (toString (Int.negSucc n)).toList = ("-" ++ toString (n + 1)).toList := rfl
    refine ⟨['-'], .inr rfl, ?_, by simp [Int.negSucc_lt_zero]⟩
    rw [htext, String.toList_append, toString_nat]
    rfl

theorem readNumber_int (n : Int) {rest : List Char} (hrest : EndsNumber rest) :
    readNumber ((toString n).toList ++ rest) = some (.int n, rest) := by
  obtain ⟨sign, hsign, htext, hneg⟩ := toString_int n
  have hread := readNumber_spelled n.natAbs hsign .absent .absent hrest
  simp only [List.nil_append] at hread
  rw [htext, List.append_assoc, hread]
  simp only [numberOf, hneg, decide_eq_true_iff, toDigits_eq_zero, digitsValue_toDigits]
  by_cases h : n < 0
  · have hzero : n.natAbs ≠ 0 := by omega
    have hn : -(n.natAbs : Int) = n := by omega
    simp only [h, hzero, hn, List.append_nil, ne_eq, not_true, and_false, or_false, if_false,
      if_true]
  · have hn : (n.natAbs : Int) = n := by omega
    simp only [h, hn, List.append_nil, ne_eq, not_true, false_and, or_false, if_false]

/-! ## Blanks -/

theorem Blank.isSpace {b : List Char} (hb : Blank b) : ∀ c ∈ b, isSpace c = true := by
  intro c hc
  rcases hb c hc with rfl | rfl | rfl | rfl <;> rfl

theorem blank_nil : Blank [] := nofun

theorem skip_blank {b : List Char} (hb : Blank b) (s : List Char) : skip (b ++ s) = skip s :=
  List.dropWhile_append_of_pos hb.isSpace

theorem skip_cons {c : Char} (hc : isSpace c = false) (s : List Char) : skip (c :: s) = c :: s :=
  List.dropWhile_cons_of_neg (by simp [hc])

theorem skip_skip (s : List Char) : skip (skip s) = skip s := List.dropWhile_idempotent _ _

theorem endsNumber_blank {b : List Char} (hb : Blank b) {rest : List Char}
    (hrest : EndsNumber rest) : EndsNumber (b ++ rest) := by
  cases b with
  | nil => exact hrest
  | cons c b => rcases hb c List.mem_cons_self with rfl | rfl | rfl | rfl <;> rfl

theorem readValue_skip (fuel : Nat) (s : List Char) :
    readValue fuel (skip s) = readValue fuel s := by
  cases fuel with
  | zero => rfl
  | succ fuel => rw [readValue, readValue, skip_skip]

theorem readItems_skip (fuel : Nat) (s : List Char) :
    readItems fuel (skip s) = readItems fuel s := by
  cases fuel with
  | zero => rfl
  | succ fuel => rw [readItems, readItems, readValue_skip]

theorem readMembers_skip (fuel : Nat) (s : List Char) :
    readMembers fuel (skip s) = readMembers fuel s := by
  cases fuel with
  | zero => rfl
  | succ fuel => rw [readMembers, readMembers, skip_skip]

theorem readValue_blank {b : List Char} (hb : Blank b) (fuel : Nat) (s : List Char) :
    readValue fuel (b ++ s) = readValue fuel s := by
  rw [← readValue_skip, skip_blank hb, readValue_skip]

/-! ## Where a value starts -/

/-- A number starts with the character. -/
def startsNumber (c : Char) : Bool := isDigit c || c == '-'

theorem isSpace_of_startsNumber {c : Char} (hc : startsNumber c = true) : isSpace c = false := by
  cases h : isSpace c with
  | false => rfl
  | true =>
    simp only [isSpace, Bool.or_eq_true, beq_iff_eq] at h
    rcases h with ((rfl | rfl) | rfl) | rfl <;> cases hc

theorem starts_signed {sign : List Char} (hsign : sign = [] ∨ sign = ['-']) (n : Nat)
    (s : List Char) : ∃ c t, sign ++ Nat.toDigits 10 n ++ s = c :: t ∧ startsNumber c = true := by
  rcases hsign with rfl | rfl
  · obtain ⟨c, cs, hcs, hc⟩ := exists_digit n
    exact ⟨c, cs ++ s, by rw [hcs]; rfl, by rw [startsNumber, hc]; rfl⟩
  · exact ⟨'-', _, rfl, rfl⟩

theorem starts_int (n : Int) : ∃ c t, (toString n).toList = c :: t ∧ startsNumber c = true := by
  obtain ⟨sign, hsign, htext, -⟩ := toString_int n
  have hstarts := starts_signed hsign n.natAbs []
  rwa [List.append_nil, ← htext] at hstarts

theorem SpellsDecimal.starts {s : List Char} (h : SpellsDecimal s) :
    ∃ c t, s = c :: t ∧ startsNumber c = true := by
  cases h with
  | signed n hsign =>
    rw [toString_nat, List.append_assoc]
    exact starts_signed hsign n _

theorem Spells.starts {Gap : List Char → Prop} {s : List Char} {v : Json} (h : Spells Gap s v) :
    ∃ c t, s = c :: t ∧ isSpace c = false ∧ c ≠ ']' := by
  have hnumber : (∃ c t, s = c :: t ∧ startsNumber c = true) →
      ∃ c t, s = c :: t ∧ isSpace c = false ∧ c ≠ ']' := by
    rintro ⟨c, t, hs, hc⟩
    refine ⟨c, t, hs, isSpace_of_startsNumber hc, ?_⟩
    rintro rfl
    cases hc
  cases h with
  | null => exact ⟨'n', _, rfl, rfl, by decide⟩
  | bool b => cases b <;> exact ⟨_, _, rfl, rfl, by decide⟩
  | int n => exact hnumber (starts_int n)
  | decimal h => exact hnumber h.starts
  | text h => exact ⟨'"', _, rfl, rfl, by decide⟩
  | noItems | items => exact ⟨'[', _, rfl, rfl, by decide⟩
  | noMembers | members => exact ⟨'\x7b', _, rfl, rfl, by decide⟩

/-! ## One value, one item, one member -/

theorem readValue_number {c : Char} (hc : startsNumber c = true) (fuel : Nat) (s : List Char) :
    readValue (fuel + 1) (c :: s) = readNumber (c :: s) := by
  rw [readValue, skip_cons (isSpace_of_startsNumber hc)]
  split
  case h_7 => rfl
  all_goals
    next heq =>
    cases heq
    cases hc

theorem readValue_text {written : List Char} {t : String} (h : SpellsString written t.toList)
    (fuel : Nat) (rest : List Char) :
    readValue (fuel + 1) (inQuotes written ++ rest) = some (.text t, rest) := by
  have hopen (s : List Char) : skip ('"' :: s) = '"' :: s := rfl
  rw [inQuotes_append, readValue, hopen]
  simp only [readText_spelled h, Option.map_some]

theorem readValue_array {s : List Char} (h : ∀ rest, skip s ≠ ']' :: rest) (fuel : Nat) :
    readValue (fuel + 1) ('[' :: s) = (readItems fuel s).map fun p => (.array p.1, p.2) := by
  have hopen : skip ('[' :: s) = '[' :: s := rfl
  -- The list does not end at once, by `h`.
  simp only [readValue, hopen, readItems_skip]

theorem readValue_object {s : List Char} (h : ∀ rest, skip s ≠ '\x7d' :: rest) (fuel : Nat) :
    readValue (fuel + 1) ('\x7b' :: s) =
      (readMembers fuel s).map fun p => (objectOf p.1, p.2) := by
  have hopen : skip ('\x7b' :: s) = '\x7b' :: s := rfl
  -- Nor does the object.
  simp only [readValue, hopen, readMembers_skip]

section Steps

variable {fuel : Nat} {s t b rest : List Char} {v : Json}

theorem readItems_last (h : readValue fuel s = some (v, b ++ ']' :: rest)) (hb : Blank b) :
    readItems (fuel + 1) s = some ([v], rest) := by
  have hskip : skip (b ++ ']' :: rest) = ']' :: rest := skip_blank hb _
  simp only [readItems, h, hskip]

theorem readItems_more {vs : List Json} (h : readValue fuel s = some (v, b ++ ',' :: t))
    (hb : Blank b) (ht : readItems fuel t = some (vs, rest)) :
    readItems (fuel + 1) s = some (v :: vs, rest) := by
  have hskip : skip (b ++ ',' :: t) = ',' :: t := skip_blank hb _
  simp only [readItems, h, hskip, ht, Option.map_some]

theorem skip_name {before : List Char} (hbefore : Blank before) (written s : List Char) :
    skip (before ++ (inQuotes written ++ s)) = '"' :: (written ++ '"' :: s) := by
  rw [inQuotes_append]
  exact skip_blank hbefore _

variable {before written after : List Char} {name : String} (hbefore : Blank before)
  (hname : SpellsString written name.toList) (hafter : Blank after)
include hbefore hname hafter

theorem readMembers_last (h : readValue fuel s = some (v, b ++ '\x7d' :: rest)) (hb : Blank b) :
    readMembers (fuel + 1) (before ++ (inQuotes written ++ (after ++ ':' :: s))) =
      some ([(some name, v)], rest) := by
  have hcolon : skip (after ++ ':' :: s) = ':' :: s := skip_blank hafter _
  have hskip : skip (b ++ '\x7d' :: rest) = '\x7d' :: rest := skip_blank hb _
  simp only [readMembers, skip_name hbefore, readText_spelled hname, hcolon, h, hskip]

theorem readMembers_more {ms : List (Option String × Json)}
    (h : readValue fuel s = some (v, b ++ ',' :: t)) (hb : Blank b)
    (ht : readMembers fuel t = some (ms, rest)) :
    readMembers (fuel + 1) (before ++ (inQuotes written ++ (after ++ ':' :: s))) =
      some ((some name, v) :: ms, rest) := by
  have hcolon : skip (after ++ ':' :: s) = ':' :: s := skip_blank hafter _
  have hskip : skip (b ++ ',' :: t) = ',' :: t := skip_blank hb _
  simp only [readMembers, skip_name hbefore, readText_spelled hname, hcolon, h, hskip, ht,
    Option.map_some]

end Steps

/-! ## Lists of items and members -/

/-- The text is read as the value, with fuel for two steps a character. -/
def ReadsAs (s : List Char) (v : Json) : Prop :=
  ∀ fuel rest, 2 * s.length ≤ fuel + 1 → EndsNumber rest →
    readValue fuel (s ++ rest) = some (v, rest)

theorem ReadsAs.item {i : Item} (h : ReadsAs i.written i.value) (hbefore : Blank i.before)
    (hafter : Blank i.after) {fuel : Nat} (hfuel : 2 * i.chars.length ≤ fuel + 1)
    {rest : List Char} (hrest : EndsNumber rest) :
    readValue fuel (i.chars ++ rest) = some (i.value, i.after ++ rest) := by
  rw [Item.chars, List.length_append, List.length_append] at hfuel
  rw [Item.chars, List.append_assoc, List.append_assoc, readValue_blank hbefore]
  exact h fuel _ (by omega) (endsNumber_blank hafter hrest)

theorem Item.chars_append_ne {i : Item} (hbefore : Blank i.before) {Gap : List Char → Prop}
    (h : Spells Gap i.written i.value) (s rest : List Char) :
    skip (i.chars ++ s) ≠ ']' :: rest := by
  obtain ⟨c, t, ht, hspace, hc⟩ := h.starts
  rw [Item.chars, List.append_assoc, List.append_assoc, skip_blank hbefore, ht, List.cons_append,
    skip_cons hspace]
  exact fun heq => hc (List.cons.inj heq).1

theorem length_pos_of_spells {Gap : List Char → Prop} {s : List Char} {v : Json}
    (h : Spells Gap s v) : 0 < s.length := by
  obtain ⟨c, t, rfl, -⟩ := h.starts
  exact Nat.succ_pos _

theorem length_chars_pos {i : Item} {Gap : List Char → Prop} (h : Spells Gap i.written i.value) :
    0 < i.chars.length := by
  have hpos := length_pos_of_spells h
  rw [Item.chars, List.length_append, List.length_append]
  omega

theorem readItems_spelled {items : List Item} (hne : items ≠ [])
    (hgaps : ∀ i ∈ items, Blank i.before ∧ Blank i.after)
    (hitems : ∀ i ∈ items, Spells Blank i.written i.value ∧ ReadsAs i.written i.value) (fuel : Nat)
    (hfuel : 2 * (commas (items.map Item.chars)).length ≤ fuel) (rest : List Char) :
    readItems fuel (commas (items.map Item.chars) ++ ']' :: rest) =
      some (items.map (·.value), rest) := by
  induction items generalizing fuel with
  | nil => exact absurd rfl hne
  | cons i items ih =>
    obtain ⟨hbefore, hafter⟩ := hgaps i List.mem_cons_self
    obtain ⟨hi, hread⟩ := hitems i List.mem_cons_self
    -- An item takes one step of the fuel and at least one character of the text.
    have hpos := length_chars_pos hi
    cases items with
    | nil =>
      simp only [List.map_cons, List.map_nil, commas] at hfuel ⊢
      obtain ⟨fuel, rfl⟩ : ∃ f, fuel = f + 1 := ⟨fuel - 1, by omega⟩
      exact readItems_last (hread.item hbefore hafter (by omega) rfl) hafter
    | cons j items =>
      simp only [List.map_cons, commas, List.length_append, List.length_cons] at hfuel
      obtain ⟨fuel, rfl⟩ : ∃ f, fuel = f + 1 := ⟨fuel - 1, by omega⟩
      have htail := ih (List.cons_ne_nil j items)
        (fun k hk => hgaps k (List.mem_cons_of_mem i hk))
        (fun k hk => hitems k (List.mem_cons_of_mem i hk)) fuel
        (by simp only [List.map_cons]; omega)
      refine readItems_more (b := i.after) ?_ hafter htail
      simp only [List.map_cons, commas, List.append_assoc, List.cons_append]
      exact hread.item hbefore hafter (by omega) rfl

theorem readMembers_spelled {members : List Member} (hne : members ≠ [])
    (hgaps : ∀ m ∈ members,
      Blank m.before ∧ Blank m.after ∧ Blank m.item.before ∧ Blank m.item.after)
    (hnames : ∀ m ∈ members, SpellsString m.written m.name.toList)
    (hmembers : ∀ m ∈ members, ReadsAs m.item.written m.item.value) (fuel : Nat)
    (hfuel : 2 * (commas (members.map Member.chars)).length ≤ fuel) (rest : List Char) :
    readMembers fuel (commas (members.map Member.chars) ++ '\x7d' :: rest) =
      some (members.map fun m => (some m.name, m.item.value), rest) := by
  induction members generalizing fuel with
  | nil => exact absurd rfl hne
  | cons m members ih =>
    obtain ⟨hbefore, hafter, hfirst, hlast⟩ := hgaps m List.mem_cons_self
    have hname := hnames m List.mem_cons_self
    have hread := hmembers m List.mem_cons_self
    cases members with
    | nil =>
      simp only [List.map_cons, List.map_nil, commas, Member.chars, List.length_append,
        List.length_cons] at hfuel
      obtain ⟨fuel, rfl⟩ : ∃ f, fuel = f + 1 := ⟨fuel - 1, by omega⟩
      simp only [List.map_cons, List.map_nil, commas, Member.chars, List.append_assoc,
        List.cons_append]
      exact readMembers_last hbefore hname hafter (hread.item hfirst hlast (by omega) rfl) hlast
    | cons n members =>
      simp only [List.map_cons, commas, Member.chars, List.length_append, List.length_cons] at hfuel
      obtain ⟨fuel, rfl⟩ : ∃ f, fuel = f + 1 := ⟨fuel - 1, by omega⟩
      have htail := ih (List.cons_ne_nil n members)
        (fun k hk => hgaps k (List.mem_cons_of_mem m hk))
        (fun k hk => hnames k (List.mem_cons_of_mem m hk))
        (fun k hk => hmembers k (List.mem_cons_of_mem m hk)) fuel
        (by simp only [List.map_cons, Member.chars]; omega)
      simp only [List.map_cons, commas, List.append_assoc, List.cons_append] at htail ⊢
      rw [Member.chars]
      simp only [List.append_assoc, List.cons_append]
      exact readMembers_more hbefore hname hafter (hread.item hfirst hlast (by omega) rfl) hlast
        htail

theorem objectOf_named (members : List Member) :
    objectOf (members.map fun m => (some m.name, m.item.value)) =
      .object (members.map fun m => (m.name, m.item.value)) := by
  have hnames : ((members.map fun m => (some m.name, m.item.value)).mapM
      fun m : Option String × Json => m.1.map (·, m.2)) =
        some (members.map fun m => (m.name, m.item.value)) := by
    induction members with
    | nil => rfl
    | cons m members ih =>
      rw [List.map_cons, List.mapM_cons, ih]
      rfl
  rw [objectOf, hnames]

/-! ## Whole values -/

theorem Spells.readsAs_of_step {s : List Char} {v : Json} (h : Spells Blank s v)
    (hstep : ∀ fuel rest, 2 * s.length ≤ fuel + 2 → EndsNumber rest →
      readValue (fuel + 1) (s ++ rest) = some (v, rest)) : ReadsAs s v := by
  intro fuel rest hfuel hrest
  -- The text of a value is not empty, so that the fuel is enough for one step.
  have hpos := length_pos_of_spells h
  cases fuel with
  | zero => omega
  | succ fuel => exact hstep fuel rest hfuel hrest

theorem readsAs_items {items : List Item} (hne : items ≠ [])
    (hgaps : ∀ i ∈ items, Blank i.before ∧ Blank i.after)
    (h : ∀ i ∈ items, Spells Blank i.written i.value)
    (ih : ∀ i ∈ items, ReadsAs i.written i.value) :
    ReadsAs ('[' :: commas (items.map Item.chars) ++ [']']) (.array (items.map (·.value))) := by
  refine (Spells.items hne hgaps h).readsAs_of_step fun fuel rest hfuel _ => ?_
  obtain ⟨i, more, rfl⟩ := List.exists_cons_of_ne_nil hne
  have hopen (rest' : List Char) :
      skip (commas ((i :: more).map Item.chars) ++ ']' :: rest) ≠ ']' :: rest' := by
    obtain ⟨t, ht⟩ := commas_cons i.chars (more.map Item.chars)
    rw [List.map_cons, ht, List.append_assoc]
    exact Item.chars_append_ne (hgaps i List.mem_cons_self).1 (h i List.mem_cons_self) _ _
  simp only [List.length_append, List.length_cons] at hfuel
  have hitems := readItems_spelled hne hgaps (fun i hi => ⟨h i hi, ih i hi⟩) fuel (by omega) rest
  simp only [List.cons_append, List.append_assoc, List.nil_append]
  rw [readValue_array hopen, hitems]
  rfl

theorem readsAs_members {members : List Member} (hne : members ≠ [])
    (hgaps : ∀ m ∈ members,
      Blank m.before ∧ Blank m.after ∧ Blank m.item.before ∧ Blank m.item.after)
    (hnames : ∀ m ∈ members, SpellsString m.written m.name.toList)
    (h : ∀ m ∈ members, Spells Blank m.item.written m.item.value)
    (ih : ∀ m ∈ members, ReadsAs m.item.written m.item.value) :
    ReadsAs ('\x7b' :: commas (members.map Member.chars) ++ ['\x7d'])
      (.object (members.map fun m => (m.name, m.item.value))) := by
  refine (Spells.members hne hgaps hnames h).readsAs_of_step fun fuel rest hfuel _ => ?_
  obtain ⟨m, more, rfl⟩ := List.exists_cons_of_ne_nil hne
  have hopen (rest' : List Char) :
      skip (commas ((m :: more).map Member.chars) ++ '\x7d' :: rest) ≠ '\x7d' :: rest' := by
    obtain ⟨t, ht⟩ := commas_cons m.chars (more.map Member.chars)
    rw [List.map_cons, ht, Member.chars]
    simp only [List.append_assoc]
    rw [skip_blank (hgaps m List.mem_cons_self).1, inQuotes_append]
    exact fun heq => by cases heq
  simp only [List.length_append, List.length_cons] at hfuel
  have hmembers := readMembers_spelled hne hgaps hnames ih fuel (by omega) rest
  simp only [List.cons_append, List.append_assoc, List.nil_append]
  rw [readValue_object hopen, hmembers, Option.map_some, objectOf_named]

theorem Spells.readsAs {s : List Char} {v : Json} (h : Spells Blank s v) : ReadsAs s v := by
  induction h with
  | null => exact Spells.null.readsAs_of_step fun _ _ _ _ => rfl
  | bool b => exact (Spells.bool b).readsAs_of_step fun _ _ _ _ => by cases b <;> rfl
  | int n =>
    refine (Spells.int n).readsAs_of_step fun fuel rest _ hrest => ?_
    obtain ⟨c, t, ht, hc⟩ := starts_int n
    have hread := readNumber_int n hrest
    rw [ht, List.cons_append] at hread ⊢
    rw [readValue_number hc, hread]
  | decimal h =>
    refine (Spells.decimal h).readsAs_of_step fun fuel rest _ hrest => ?_
    obtain ⟨c, t, ht, hc⟩ := h.starts
    have hread := h.read hrest
    rw [ht, List.cons_append] at hread ⊢
    rw [readValue_number hc, hread]
  | text h =>
    exact (Spells.text h).readsAs_of_step fun fuel rest _ _ => readValue_text h fuel rest
  | @noItems gap hgap =>
    refine (Spells.noItems hgap).readsAs_of_step fun fuel rest _ _ => ?_
    have hopen (s : List Char) : skip ('[' :: s) = '[' :: s := rfl
    have hclose : skip (gap ++ ']' :: rest) = ']' :: rest := skip_blank hgap _
    simp only [List.cons_append, List.append_assoc, List.nil_append, readValue, hopen, hclose]
  | items hne hgaps h ih => exact readsAs_items hne hgaps h ih
  | @noMembers gap hgap =>
    refine (Spells.noMembers hgap).readsAs_of_step fun fuel rest _ _ => ?_
    have hopen (s : List Char) : skip ('\x7b' :: s) = '\x7b' :: s := rfl
    have hclose : skip (gap ++ '\x7d' :: rest) = '\x7d' :: rest := skip_blank hgap _
    simp only [List.cons_append, List.append_assoc, List.nil_append, readValue, hopen, hclose]
  | members hne hgaps hnames h ih => exact readsAs_members hne hgaps hnames h ih

theorem parse?_of_reads {text : String} {v : Json} (h : Reads text v) : parse? text = some v := by
  obtain ⟨before, written, after, htext, hbefore, hafter, hspells⟩ := h
  have hread := hspells.readsAs (2 * text.toList.length + 2) after
    (by rw [htext]; simp only [List.length_append]; omega)
    (by rw [← List.append_nil after]; exact endsNumber_blank hafter rfl)
  have hend : skip after = [] := by
    rw [← List.append_nil after, skip_blank hafter]
    rfl
  rw [parse?, parseChars?]
  rw [htext] at hread ⊢
  rw [List.append_assoc, readValue_blank hbefore, ← List.append_assoc, hread]
  simp only [hend, if_true]

theorem Spells.blank {s : List Char} {v : Json} (h : Spells (· = []) s v) : Spells Blank s v := by
  have hnil {b : List Char} (hb : b = []) : Blank b := hb ▸ blank_nil
  induction h with
  | null => exact .null
  | bool b => exact .bool b
  | int n => exact .int n
  | decimal h => exact .decimal h
  | text h => exact .text h
  | noItems hgap => exact .noItems (hnil hgap)
  | items hne hgaps _ ih =>
    exact .items hne (fun i hi => ⟨hnil (hgaps i hi).1, hnil (hgaps i hi).2⟩) ih
  | noMembers hgap => exact .noMembers (hnil hgap)
  | members hne hgaps hnames _ ih =>
    refine .members hne (fun m hm => ?_) hnames ih
    obtain ⟨hbefore, hafter, hfirst, hlast⟩ := hgaps m hm
    exact ⟨hnil hbefore, hnil hafter, hnil hfirst, hnil hlast⟩

theorem Spells.reads {text : String} {v : Json} (h : Spells Blank text.toList v) : Reads text v :=
  ⟨[], text.toList, [], (List.append_nil _).symm, blank_nil, blank_nil, h⟩

/-- A text writes one value at most. -/
theorem Reads.unique {text : String} {v w : Json} (hv : Reads text v) (hw : Reads text w) :
    v = w :=
  Option.some.inj ((parse?_of_reads hv).symm.trans (parse?_of_reads hw))

end RequestAccess.Json
