import Mathlib.Data.List.Forall2
import RequestAccess.NameMap

/-!
# Maps that are alike

Two maps are alike if they have the same names, with related things under each.
-/

namespace RequestAccess

variable {α β : Type} {R : α → β → Prop}

/-! ## Entries -/

namespace Entries

/-- Entries of one name whose things are related. -/
def Match (R : α → β → Prop) (x : String × α) (y : String × β) : Prop := x.1 = y.1 ∧ R x.2 y.2

variable {l : List (String × α)} {k : List (String × β)}

theorem find?_match (h : List.Forall₂ (Match R) l k) (name : String) :
    Option.Rel R (find? name l) (find? name k) := by
  induction h with
  | nil => exact .none
  | @cons x y l k head tail ih =>
    obtain ⟨n, a⟩ := x
    obtain ⟨m, b⟩ := y
    obtain ⟨rfl, hr⟩ : n = m ∧ R a b := head
    simp only [find?]
    split
    · exact .some hr
    · exact ih

theorem insert_match (h : List.Forall₂ (Match R) l k) (name : String) {a : α} {b : β} (hr : R a b) :
    List.Forall₂ (Match R) (insert name a l) (insert name b k) := by
  induction h with
  | nil => exact .cons ⟨rfl, hr⟩ .nil
  | @cons x y l k head tail ih =>
    obtain ⟨n, a'⟩ := x
    obtain ⟨m, b'⟩ := y
    obtain ⟨rfl, hr'⟩ : n = m ∧ R a' b' := head
    simp only [insert]
    split
    · exact .cons ⟨rfl, hr⟩ tail
    · split
      · exact .cons ⟨rfl, hr⟩ (.cons ⟨rfl, hr'⟩ tail)
      · exact .cons ⟨rfl, hr'⟩ ih

theorem filter_match (h : List.Forall₂ (Match R) l k) {p : String × α → Bool}
    {q : String × β → Bool} (hpq : ∀ x y, Match R x y → p x = q y) :
    List.Forall₂ (Match R) (l.filter p) (k.filter q) := by
  refine List.rel_filter (fun x y hm => ?_) h
  change p x = true ↔ q y = true
  rw [hpq x y hm]

theorem names_match (h : List.Forall₂ (Match R) l k) : l.map (·.1) = k.map (·.1) := by
  induction h with
  | nil => rfl
  | cons head _ ih => rw [List.map_cons, List.map_cons, head.1, ih]

end Entries

/-! ## Maps -/

namespace NameMap

/-- The maps have the same names, and related values under them. -/
def Alike (R : α → β → Prop) (m : NameMap α) (n : NameMap β) : Prop :=
  List.Forall₂ (Entries.Match R) m.entries n.entries

theorem alike_empty : (empty : NameMap α).Alike R empty := .nil

variable {m : NameMap α} {n : NameMap β}

namespace Alike

theorem get? (h : m.Alike R n) (name : String) : Option.Rel R (m.get? name) (n.get? name) :=
  Entries.find?_match h name

theorem contains (h : m.Alike R n) (name : String) : m.contains name = n.contains name := by
  have hrel := h.get? name
  unfold NameMap.contains
  generalize m.get? name = x, n.get? name = y at hrel
  cases hrel <;> rfl

theorem insert (h : m.Alike R n) (name : String) {a : α} {b : β} (hr : R a b) :
    (m.insert name a).Alike R (n.insert name b) := Entries.insert_match h name hr

theorem erase (h : m.Alike R n) (name : String) : (m.erase name).Alike R (n.erase name) :=
  Entries.filter_match h fun _ _ hm => by rw [hm.1]

end Alike

end NameMap

end RequestAccess
