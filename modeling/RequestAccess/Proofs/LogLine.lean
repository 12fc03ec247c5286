import RequestAccess.Log
import RequestAccess.Proofs.StandardCodec

/-!
# Lines of the log

An entry that is written as JSON stays on one line, whatever its texts hold, and is read back with
all its members in their order.
-/

namespace RequestAccess

namespace Json

open Text (inQuotes commas toString_nat)

/-! ## No line is broken -/

/-- No character of the text is a control character of ASCII, such as the end of a line. -/
def OneLine (s : List Char) : Prop := ∀ c ∈ s, 0x20 ≤ c.toNat

theorem oneLine_nil : OneLine [] := nofun

theorem oneLine_cons {c : Char} {s : List Char} :
    OneLine (c :: s) ↔ 0x20 ≤ c.toNat ∧ OneLine s := List.forall_mem_cons

theorem oneLine_append {s t : List Char} : OneLine (s ++ t) ↔ OneLine s ∧ OneLine t :=
  List.forall_mem_append

theorem low_of_hexValue? {c : Char} (h : (Text.hexValue? c).isSome = true) : 0x20 ≤ c.toNat := by
  have hle {d : Char} (hd : 0x20 ≤ d.toNat) (h : d ≤ c) : 0x20 ≤ c.toNat := Nat.le_trans hd h
  unfold Text.hexValue? at h
  split at h
  · next hc => exact hle (by decide) hc.1
  · split at h
    · next hc => exact hle (by decide) hc.1
    · split at h
      · next hc => exact hle (by decide) hc.1
      · cases h

theorem oneLine_digits {digits : List Char} {n : Nat} (h : Text.hexNumber? digits = some n) :
    OneLine digits :=
  fun c hc => low_of_hexValue? (Text.isSome_hexValue? h c hc)

theorem oneLine_of_isDigit {s : List Char} (h : ∀ c ∈ s, c.isDigit = true) : OneLine s := by
  intro c hc
  have hdigit := h c hc
  rw [Char.isDigit, Bool.and_eq_true, decide_eq_true_iff] at hdigit
  exact Nat.le_trans (by decide) hdigit.1

theorem oneLine_escapes : ∀ e ∈ escapes, 0x20 ≤ e.1.toNat := by decide

theorem SpellsChar.oneLine {w : List Char} {c : Char} (h : SpellsChar w c) : OneLine w := by
  have hslash : 0x20 ≤ '\\'.toNat := by decide
  have hu : 0x20 ≤ 'u'.toNat := by decide
  cases h with
  | plain _ _ hlow => exact oneLine_cons.mpr ⟨hlow, oneLine_nil⟩
  | escaped h =>
    exact oneLine_cons.mpr ⟨hslash, oneLine_cons.mpr ⟨oneLine_escapes _ h, oneLine_nil⟩⟩
  | code h => exact oneLine_cons.mpr ⟨hslash, oneLine_cons.mpr ⟨hu, oneLine_digits h⟩⟩
  | halves _ hhigh hlow =>
    have hfirst := oneLine_digits hhigh
    have hsecond := oneLine_digits hlow
    simp only [oneLine_cons] at hfirst hsecond ⊢
    simp only [hslash, hu, hfirst, hsecond, and_self]

theorem SpellsString.oneLine {s cs : List Char} (h : SpellsString s cs) : OneLine s :=
  h.forall_mem fun _ _ hc => hc.oneLine

theorem oneLine_inQuotes {s cs : List Char} (h : SpellsString s cs) : OneLine (inQuotes s) := by
  simp only [inQuotes, List.cons_append, oneLine_cons, oneLine_append]
  exact ⟨by decide, h.oneLine, by decide, oneLine_nil⟩

theorem oneLine_signed {sign : List Char} (hsign : sign = [] ∨ sign = ['-']) (n : Nat) :
    OneLine (sign ++ Nat.toDigits 10 n) := by
  have hdigits : OneLine (Nat.toDigits 10 n) := oneLine_of_isDigit fun c hc =>
    (isDigit_eq c).symm.trans (isDigit_of_mem_toDigits hc)
  rcases hsign with rfl | rfl
  · exact hdigits
  · exact oneLine_cons.mpr ⟨by decide, hdigits⟩

theorem oneLine_int (n : Int) : OneLine (toString n).toList := by
  obtain ⟨sign, hsign, htext, -⟩ := toString_int n
  rw [htext]
  exact oneLine_signed hsign _

theorem IsFraction.oneLine {s : List Char} (h : IsFraction s) : OneLine s := by
  cases h with
  | absent => exact oneLine_nil
  | digits h => exact oneLine_cons.mpr ⟨by decide, oneLine_of_isDigit h.2⟩

theorem IsExponent.oneLine {s : List Char} (h : IsExponent s) : OneLine s := by
  cases h with
  | absent => exact oneLine_nil
  | digits hmark hsign h =>
    rw [List.cons_append, oneLine_cons, oneLine_append]
    refine ⟨?_, ?_, oneLine_of_isDigit h.2⟩
    · rcases hmark with rfl | rfl <;> decide
    · rcases hsign with rfl | rfl | rfl <;> exact fun c hc => by simp_all

theorem SpellsDecimal.oneLine {s : List Char} (h : SpellsDecimal s) : OneLine s := by
  cases h with
  | signed n hsign hfraction hexponent =>
    rw [toString_nat]
    exact oneLine_append.mpr
      ⟨oneLine_append.mpr ⟨oneLine_signed hsign n, hfraction.oneLine⟩, hexponent.oneLine⟩

theorem oneLine_commas {l : List (List Char)} (h : ∀ s ∈ l, OneLine s) : OneLine (commas l) := by
  induction l with
  | nil => exact oneLine_nil
  | cons s l ih =>
    obtain ⟨hs, hrest⟩ := List.forall_mem_cons.mp h
    cases l with
    | nil => exact hs
    | cons t l => exact oneLine_append.mpr ⟨hs, oneLine_cons.mpr ⟨by decide, ih hrest⟩⟩

theorem Spells.oneLine {s : List Char} {v : Json} (h : Spells (· = []) s v) : OneLine s := by
  -- Lists and objects differ only in what stands around their content.
  have hbetween {first last : Char} {s : List Char} (hfirst : 0x20 ≤ first.toNat)
      (hlast : 0x20 ≤ last.toNat) (hs : OneLine s) : OneLine (first :: s ++ [last]) := by
    rw [List.cons_append, oneLine_cons, oneLine_append, oneLine_cons]
    exact ⟨hfirst, hs, hlast, oneLine_nil⟩
  induction h with
  | null => simp [OneLine]
  | bool b => cases b <;> simp [OneLine, toString]
  | int n => exact oneLine_int n
  | decimal h => exact h.oneLine
  | text h => exact oneLine_inQuotes h
  | noItems hgap | noMembers hgap =>
    exact hbetween (by decide) (by decide) (hgap ▸ oneLine_nil)
  | @items items _ hgaps _ ih =>
    refine hbetween (by decide) (by decide) (oneLine_commas ?_)
    intro s hs
    obtain ⟨i, hi, rfl⟩ := List.mem_map.mp hs
    simpa [Item.chars, hgaps i hi] using ih i hi
  | @members members _ hgaps hnames _ ih =>
    refine hbetween (by decide) (by decide) (oneLine_commas ?_)
    intro s hs
    obtain ⟨m, hm, rfl⟩ := List.mem_map.mp hs
    have hname := oneLine_inQuotes (hnames m hm)
    have hvalue := ih m hm
    obtain ⟨hbefore, hafter, hfirst, hlast⟩ := hgaps m hm
    simp only [Member.chars, Item.chars, hbefore, hafter, hfirst, hlast, List.nil_append,
      List.append_nil, oneLine_append, oneLine_cons]
    exact ⟨hname, by decide, hvalue⟩

end Json

/-! ## Entries -/

theorem LogLevel.toLower_title (l : LogLevel) : l.title.toLower = l.name := by
  have hchars : l.title.toLower.toList = l.title.toList.map Char.toLower := String.toList_map
  rw [← String.toList_inj, hchars]
  cases l <;> decide

namespace LogEntry

/-- The members of an entry, when `fields` are its fields. -/
def members (e : LogEntry) (fields : List (String × Json)) : List (String × Json) :=
  [("level", .text e.level.title.toLower), ("message", .text e.message),
    ("request_id", .text e.requestId)] ++
  (e.route.toList.map fun route => ("route", .text route)) ++
  (e.phase.toList.map fun phase => ("phase", .text phase)) ++
  fields ++ [("elapsed_us", .int e.elapsed)]

theorem toJson_eq (e : LogEntry) : e.toJson = .object (e.members e.fields.entries) := by
  rw [toJson, members, LogLevel.toLower_title]
  cases e.route <;> cases e.phase <;> rfl

theorem whole_members (e : LogEntry) (he : e.elapsed < UInt64.size) {fields : List (String × Json)}
    (h : ∀ f ∈ fields, f.2.Whole) : ∀ m ∈ e.members fields, m.2.Whole := by
  have htexts (name : String) (text? : Option String) :
      ∀ m ∈ text?.toList.map fun text => (name, Json.text text), m.2.Whole := by
    intro m hm
    obtain ⟨text, -, rfl⟩ := List.mem_map.mp hm
    exact .text text
  intro m hm
  simp only [members, List.mem_append, List.mem_cons, List.not_mem_nil, or_false] at hm
  rcases hm with ((((rfl | rfl | rfl) | hroute) | hphase) | hfield) | rfl
  · exact .text _
  · exact .text _
  · exact .text _
  · exact htexts _ _ m hroute
  · exact htexts _ _ m hphase
  · exact h m hfield
  · have hsize : UInt64.size = 0x10000000000000000 := rfl
    exact .int (by omega) (by omega)

theorem reads_line [Codec] (hw : Codec.WritesJson) (e : LogEntry)
    (h : (e.toJson).Whole) : Json.OneLine e.line.toList ∧ Json.Reads e.line e.toJson := by
  obtain ⟨s, hs, hspells⟩ := hw.compact h
  have hline : e.line = s := by rw [line, hs, Option.getD_some]
  rw [hline]
  exact ⟨hspells.oneLine, hspells.blank.reads⟩

/-- An entry is one line, from which every member is read in its place, also where a field has the
name of another member. Nothing else can be read from it. -/
theorem line_loses_nothing [Codec] (hw : Codec.WritesJson) (e : LogEntry)
    (h : ∀ name v, e.fields.get? name = some v → v.Whole) (he : e.elapsed < UInt64.size) :
    (∀ c ∈ e.line.toList, 0x20 ≤ c.toNat) ∧
    ∃ fields, Entries.Sorted fields ∧
      (∀ name v, (name, v) ∈ fields ↔ e.fields.get? name = some v) ∧
      ∀ v, Json.Reads e.line v ↔ v = .object (
        [("level", .text e.level.title.toLower), ("message", .text e.message),
          ("request_id", .text e.requestId)] ++
        (e.route.toList.map fun route => ("route", .text route)) ++
        (e.phase.toList.map fun phase => ("phase", .text phase)) ++
        fields ++ [("elapsed_us", .int e.elapsed)]) := by
  have hfields : ∀ f ∈ e.fields.entries, f.2.Whole := fun f hf =>
    h f.1 f.2 (NameMap.mem_entries.mp hf)
  have hwhole : e.toJson.Whole := e.toJson_eq ▸ .object (e.whole_members he hfields)
  obtain ⟨hline, hreads⟩ := e.reads_line hw hwhole
  refine ⟨hline, e.fields.entries, e.fields.sorted, fun _ _ => NameMap.mem_entries, fun v => ?_⟩
  rw [toJson_eq] at hreads
  exact ⟨fun hv => hv.unique hreads, fun hv => hv ▸ hreads⟩

/-- A field that is named like the message does not hide it, and a line break in it starts no other
line. -/
theorem line_loses_nothing_of_message_twice :
    let v : Json := .array [.object [("\"", .int (-1))], .null, .text "a\n\\"]
    let e : LogEntry :=
      { level := .warn, message := "m\r\x00", requestId := "r", fields := .ofList [("message", v)] }
    e.fields.get? "message" = some v ∧ v.Whole ∧ e.elapsed < UInt64.size ∧ Codec.WritesJson ∧
      (∀ c ∈ e.line.toList, 0x20 ≤ c.toNat) ∧
      ∀ u, Json.Reads e.line u ↔ u = .object [("level", .text "warn"),
        ("message", .text "m\r\x00"), ("request_id", .text "r"), ("message", v),
        ("elapsed_us", .int 0)] := by
  intro v e
  have hv : v.Whole := by
    refine .array fun u hu => ?_
    simp only [List.mem_cons, List.not_mem_nil, or_false] at hu
    rcases hu with rfl | rfl | rfl
    · exact .object fun m hm => List.mem_singleton.mp hm ▸ .int (by decide) (by decide)
    · exact .null
    · exact .text _
  have hfields : ∀ name u, e.fields.get? name = some u → u.Whole := by
    intro name u hu
    obtain ⟨-, rfl⟩ := Prod.mk.inj (List.mem_singleton.mp (NameMap.mem_entries.mpr hu))
    exact hv
  have helapsed : e.elapsed < UInt64.size := by decide
  obtain ⟨hline, fields, hsorted, hmem, hread⟩ :=
    line_loses_nothing Codec.writesJson_standard e hfields helapsed
  have hsame : NameMap.mk fields hsorted = e.fields := NameMap.ext fun name => Option.ext fun u =>
    NameMap.mem_entries.symm.trans (hmem name u)
  have hentries : fields = [("message", v)] := congrArg NameMap.entries hsame
  have hlevel : LogLevel.warn.title.toLower = "warn" := LogLevel.toLower_title .warn
  rw [hentries, hlevel] at hread
  exact ⟨rfl, hv, helapsed, Codec.writesJson_standard, hline, hread⟩

end LogEntry

end RequestAccess
