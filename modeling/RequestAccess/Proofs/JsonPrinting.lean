import RequestAccess.Json.Printer
import RequestAccess.Proofs.JsonText

/-!
# Printing JSON by its grammar

What is printed of a whole value is in the grammar. The gaps are those of the layout.
-/

namespace RequestAccess

namespace Json

open Text (inQuotes commas toString_nat)

/-! ## Strings and numbers -/

theorem hexNumber?_low : ∀ n < 0x20,
    Text.hexNumber? ['0', '0', hexDigit (n / 16), hexDigit (n % 16)] = some n := by decide

theorem spellsChar_escape (c : Char) : SpellsChar (escape c) c := by
  unfold escape
  split
  case h_8 hquote hslash _ _ _ _ _ =>
    by_cases hlow : c.toNat < 0x20
    · rw [if_pos hlow]
      exact .code (hexNumber?_low _ hlow)
    · rw [if_neg hlow]
      exact .plain hquote hslash (Nat.le_of_not_lt hlow)
  all_goals exact .escaped (by decide)

theorem spellsString_escape (cs : List Char) : SpellsString (cs.flatMap escape) cs := by
  induction cs with
  | nil => exact .nil
  | cons c cs ih => exact .cons (spellsChar_escape c) ih

theorem writeInt_eq (n : Int) : writeInt n = (toString n).toList := by
  cases n with
  | ofNat n => exact (toString_nat n).symm
  | negSucc n =>
    have htext : (toString (Int.negSucc n)).toList = ("-" ++ toString (n + 1)).toList := rfl
    rw [htext, String.toList_append, toString_nat]
    rfl

/-! ## Layouts -/

/-- What a layout leaves between the parts of a value are gaps of one kind. -/
structure Layout.Leaves (l : Layout) (Gap : List Char → Prop) : Prop where
  nothing : Gap []
  lineBreak (depth : Nat) : Gap (l.lineBreak depth)
  afterColon : Gap l.afterColon

theorem Layout.leaves_compact : Layout.compact.Leaves (· = []) := ⟨rfl, fun _ => rfl, rfl⟩

theorem Layout.leaves_indented : Layout.indented.Leaves Blank where
  nothing := nofun
  lineBreak depth c hc := by
    rcases List.mem_cons.mp hc with rfl | hc
    · exact .inr (.inl rfl)
    · exact .inl (List.eq_of_mem_replicate hc)
  afterColon c hc := .inl (List.mem_singleton.mp hc)

section Lists

variable {l : Layout} {Gap : List Char → Prop} (hl : l.Leaves Gap) {close : List Char}
  (hclose : Gap close)
include hl hclose

theorem exists_items {vs : List Json} (hne : vs ≠ [])
    (hvs : ∀ v ∈ vs, ∀ depth, Spells Gap (write l depth v) v) (depth : Nat) :
    ∃ items : List Item, items ≠ [] ∧ (∀ i ∈ items, Gap i.before ∧ Gap i.after) ∧
      (∀ i ∈ items, Spells Gap i.written i.value) ∧ items.map (·.value) = vs ∧
      commas (items.map Item.chars) = writeItems l depth vs ++ close := by
  induction vs with
  | nil => exact absurd rfl hne
  | cons v vs ih =>
    have hv := hvs v List.mem_cons_self depth
    cases vs with
    | nil =>
      refine ⟨[⟨l.lineBreak depth, write l depth v, close, v⟩], by simp, ?_, ?_, rfl, ?_⟩
      · simp [hl.lineBreak, hclose]
      · simpa using hv
      · simp [commas, Item.chars, writeItems]
    | cons w vs =>
      obtain ⟨items, hitems, hgaps, hspells, hvalues, hchars⟩ := ih (List.cons_ne_nil w vs)
        fun u hu => hvs u (List.mem_cons_of_mem v hu)
      refine ⟨⟨l.lineBreak depth, write l depth v, [], v⟩ :: items, by simp, ?_, ?_, ?_, ?_⟩
      · simpa [hl.lineBreak, hl.nothing] using hgaps
      · simpa [hv] using hspells
      · simp [hvalues]
      · obtain ⟨i, more, rfl⟩ := List.exists_cons_of_ne_nil hitems
        rw [List.map_cons] at hchars
        rw [List.map_cons, List.map_cons, commas, hchars]
        simp [Item.chars, writeItems]

theorem exists_members {ms : List (String × Json)} (hne : ms ≠ [])
    (hms : ∀ m ∈ ms, ∀ depth, Spells Gap (write l depth m.2) m.2) (depth : Nat) :
    ∃ members : List Member, members ≠ [] ∧
      (∀ m ∈ members, Gap m.before ∧ Gap m.after ∧ Gap m.item.before ∧ Gap m.item.after) ∧
      (∀ m ∈ members, SpellsString m.written m.name.toList) ∧
      (∀ m ∈ members, Spells Gap m.item.written m.item.value) ∧
      members.map (fun m => (m.name, m.item.value)) = ms ∧
      commas (members.map Member.chars) = writeMembers l depth ms ++ close := by
  induction ms with
  | nil => exact absurd rfl hne
  | cons m ms ih =>
    have hv := hms m List.mem_cons_self depth
    have hname := spellsString_escape m.1.toList
    let first (after : List Char) : Member :=
      { before := l.lineBreak depth, written := m.1.toList.flatMap escape, name := m.1, after := []
        item := ⟨l.afterColon, write l depth m.2, after, m.2⟩ }
    cases ms with
    | nil =>
      refine ⟨[first close], by simp, ?_, ?_, ?_, rfl, ?_⟩
      · simp [first, hl.lineBreak, hl.nothing, hl.afterColon, hclose]
      · simpa [first] using hname
      · simpa [first] using hv
      · simp [first, commas, Member.chars, Item.chars, inQuotes, writeMembers, writeText]
    | cons n ms =>
      obtain ⟨members, hmembers, hgaps, hnames, hspells, hvalues, hchars⟩ :=
        ih (List.cons_ne_nil n ms) fun k hk => hms k (List.mem_cons_of_mem m hk)
      refine ⟨first [] :: members, by simp, ?_, ?_, ?_, ?_, ?_⟩
      · simpa [first, hl.lineBreak, hl.nothing, hl.afterColon] using hgaps
      · simpa [first, hname] using hnames
      · simpa [first, hv] using hspells
      · simp [first, hvalues]
      · obtain ⟨k, more, rfl⟩ := List.exists_cons_of_ne_nil hmembers
        rw [List.map_cons] at hchars
        rw [List.map_cons, List.map_cons, commas, hchars]
        simp [first, Member.chars, Item.chars, inQuotes, writeMembers, writeText]

end Lists

/-- What is written of a whole value is in the grammar, with the gaps of the layout. -/
theorem spells_write {l : Layout} {Gap : List Char → Prop} (hl : l.Leaves Gap) {v : Json}
    (h : v.Whole) (depth : Nat) : Spells Gap (write l depth v) v := by
  induction h generalizing depth with
  | null => exact .null
  | bool b => cases b with
    | true => exact .bool true
    | false => exact .bool false
  | @int n =>
    rw [write, writeInt_eq]
    exact .int n
  | text s => exact .text (spellsString_escape s.toList)
  | @array items _ ih =>
    cases items with
    | nil => exact .noItems hl.nothing
    | cons v vs =>
      obtain ⟨items, hne, hgaps, hspells, hvalues, hchars⟩ :=
        exists_items hl (hl.lineBreak depth) (List.cons_ne_nil v vs) ih (depth + 1)
      rw [write, List.cons_append, ← hchars, ← hvalues]
      exact .items hne hgaps hspells
  | @object members _ ih =>
    cases members with
    | nil => exact .noMembers hl.nothing
    | cons m ms =>
      obtain ⟨members, hne, hgaps, hnames, hspells, hvalues, hchars⟩ :=
        exists_members hl (hl.lineBreak depth) (List.cons_ne_nil m ms) ih (depth + 1)
      rw [write, List.cons_append, ← hchars, ← hvalues]
      exact .members hne hgaps hnames hspells

end Json

end RequestAccess
