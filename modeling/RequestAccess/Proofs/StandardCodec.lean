import Mathlib.Data.List.Nodup
import RequestAccess.Codec.Laws
import RequestAccess.Codec.Standard
import RequestAccess.Proofs.JsonPrinting
import RequestAccess.Proofs.TomlDocuments

/-!
# The standard codec

It keeps the laws: JSON is written and read by its grammar, and plain TOML as what it says.
-/

namespace RequestAccess

/-! ## Fields -/

namespace Format

variable {δ : Type} {names : List String} {members : List (String × δ)}

theorem find?_eq_lookup (name : String) (members : List (String × δ)) :
    (members.find? (·.1 = name)).map (·.2) = members.lookup name := by
  induction members with
  | nil => rfl
  | cons m members ih =>
    obtain ⟨first, v⟩ := m
    by_cases h : first = name
    · simp [h]
    · have hne : (name == first) = false := by simpa using Ne.symm h
      simpa [List.lookup_cons, h, hne] using ih

theorem occurrences_le_one (h : (members.map (·.1)).Nodup) (name : String) :
    occurrences name members ≤ 1 := by
  have hcount := List.nodup_iff_count_le_one.mp h name
  rw [List.count, List.countP_map, List.countP_eq_length_filter] at hcount
  exact hcount

theorem named?_of_nodup (h : (members.map (·.1)).Nodup) :
    named? names members = some (names.map fun name => members.lookup name) := by
  have honce : (names.all fun name => occurrences name members ≤ 1) = true :=
    List.all_eq_true.mpr fun name _ => decide_eq_true (occurrences_le_one h name)
  rw [named?, if_pos honce]
  simp only [find?_eq_lookup]

theorem unsigned?_toNat (n : UInt64) : unsigned? n.toNat = some n := by
  have hrange : 0 ≤ (n.toNat : Int) ∧ (n.toNat : Int) < UInt64.size :=
    ⟨Int.natCast_nonneg _, Int.ofNat_lt.mpr n.toNat_lt⟩
  simp only [unsigned?, hrange, and_self, if_true, Int.toNat_natCast, UInt64.ofNat_toNat]

end Format

/-! ## Texts under names -/

namespace Toml

theorem lookup_ofMembers (name : String) (ms : List (String × Json)) :
    (ofMembers ms).lookup name = (ms.lookup name).map ofTree := by
  induction ms with
  | nil => rfl
  | cons m ms ih =>
    rw [ofMembers, List.lookup_cons, List.lookup_cons, ih]
    split <;> rfl

theorem says_of_textAt {path : List String} {t : String} {v : Toml} (h : textAt path v = some t) :
    Format.Says path t v := by
  induction path generalizing v with
  | nil =>
    cases textAt_nil h
    exact rfl
  | cons name path ih =>
    obtain ⟨ms, w, rfl, hw, ht⟩ := textAt_cons h
    intro names fields hfields i hi
    have hnamed : Format.named? names ms = some fields := hfields
    unfold Format.named? at hnamed
    split at hnamed
    · cases hnamed
      refine ⟨w, ?_, ih ht⟩
      rw [List.getElem?_map, hi]
      exact congrArg some hw
    · cases hnamed

end Toml

/-! ## The laws -/

namespace Codec

theorem writesJson_standard : WritesJson where
  compact {v} h := by
    refine ⟨v.compact, rfl, ?_⟩
    rw [Json.compact, String.toList_ofList]
    exact Json.spells_write Json.Layout.leaves_compact h 0
  indented {v} h := by
    refine ⟨v.indented, rfl, ?_⟩
    rw [Json.indented, String.toList_ofList]
    exact Json.spells_write Json.Layout.leaves_indented h 0

/-- The standard codec reads a text as its tree. -/
theorem readsJson_standard : ReadsJson (fun v => v) where
  text _ := rfl
  word _ := rfl
  flag _ := rfl
  isNull {v} h := by
    cases v with
    | null => exact absurd rfl h
    | _ => rfl
  items vs := congrArg some (List.map_id vs).symm
  members {ms} _ := congrArg some (List.map_id ms).symm
  fields names {ms} h := by
    have hlookup : Format.named? names ms = _ := Format.named?_of_nodup h
    simp only [Option.map_id']
    exact hlookup
  null := rfl
  whole := Format.unsigned?_toNat
  parse h _ _ := Json.parse?_of_reads h

theorem readsToml_standard : ReadsToml Toml.ofTree where
  text _ := rfl
  word _ := rfl
  flag _ := rfl
  isNull _ := rfl
  items vs := congrArg some (Toml.ofItems_eq vs)
  members {ms} _ := congrArg some (Toml.ofMembers_eq ms)
  fields names {ms} h := by
    have hnames : ((Toml.ofMembers ms).map (·.1)).Nodup := by
      rwa [Toml.Plain.names_ofMembers]
    have hnamed : Format.named? names (Toml.ofMembers ms) = _ := Format.named?_of_nodup hnames
    simp only [Toml.lookup_ofMembers] at hnamed
    exact hnamed
  whole n _ := Format.unsigned?_toNat n
  plain h := Toml.Plain.parse?_chars h
  string hd ht hk hrest h := by
    obtain ⟨written, cs, more, hwritten, hspells, htext⟩ :=
      Toml.Plain.string_of_parse? hd ht hk hrest h
    exact ⟨written, cs, more, hwritten, hspells, Toml.says_of_textAt htext⟩

end Codec

end RequestAccess
