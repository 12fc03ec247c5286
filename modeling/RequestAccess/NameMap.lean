/-!
# Maps from names

A finite map kept as a list sorted by name, in the order of code points. Two maps that answer
every look-up alike are equal.
-/

namespace RequestAccess

/-! ## Sorted lists of entries -/

namespace Entries

variable {α : Type}

/-- Names in strictly increasing order, so no name twice. -/
def Sorted (l : List (String × α)) : Prop := l.Pairwise fun a b => a.1 < b.1

def find? (name : String) : List (String × α) → Option α
  | [] => none
  | (n, a) :: rest => if name = n then some a else find? name rest

def insert (name : String) (a : α) : List (String × α) → List (String × α)
  | [] => [(name, a)]
  | (n, b) :: rest =>
    if name = n then (name, a) :: rest
    else if name < n then (name, a) :: (n, b) :: rest
    else (n, b) :: insert name a rest

def erase (name : String) (l : List (String × α)) : List (String × α) :=
  l.filter fun e => e.1 ≠ name

theorem mem_insert {name : String} {a : α} {l : List (String × α)} {e : String × α}
    (h : e ∈ insert name a l) : e = (name, a) ∨ e ∈ l := by
  induction l with
  | nil => simpa [insert] using h
  | cons head rest ih =>
    obtain ⟨n, b⟩ := head
    rw [insert] at h
    grind

theorem lt_of_not_lt {a b : String} (ne : a ≠ b) (h : ¬ a < b) : b < a := by
  rcases String.le_total a b with hab | hba
  · exact absurd (String.le_antisymm hab (String.not_lt.mp h)) ne
  · by_cases hb : b < a
    · exact hb
    · exact absurd (String.le_antisymm (String.not_lt.mp hb) hba) ne

theorem sorted_insert {name : String} {a : α} {l : List (String × α)} (h : Sorted l) :
    Sorted (insert name a l) := by
  induction l with
  | nil => simp [Sorted, insert]
  | cons head rest ih =>
    obtain ⟨n, b⟩ := head
    obtain ⟨below, tail⟩ := List.pairwise_cons.mp h
    rw [insert]
    split
    · next same => subst same; exact List.pairwise_cons.mpr ⟨below, tail⟩
    · next ne =>
      split
      · next lt =>
        refine List.pairwise_cons.mpr ⟨fun e he => ?_, h⟩
        rcases List.mem_cons.mp he with rfl | he
        · exact lt
        · exact String.lt_trans lt (below e he)
      · next nlt =>
        refine List.pairwise_cons.mpr ⟨fun e he => ?_, ih tail⟩
        rcases mem_insert he with rfl | he
        · exact lt_of_not_lt ne nlt
        · exact below e he

theorem sorted_erase {name : String} {l : List (String × α)} (h : Sorted l) :
    Sorted (erase name l) := h.filter _

theorem find?_insert (name other : String) (a : α) (l : List (String × α)) :
    find? other (insert name a l) = if other = name then some a else find? other l := by
  induction l with
  | nil => simp [insert, find?]
  | cons head rest ih =>
    obtain ⟨n, b⟩ := head
    grind [insert, find?]

theorem find?_erase (name other : String) (l : List (String × α)) :
    find? other (erase name l) = if other = name then none else find? other l := by
  induction l with
  | nil => simp [erase, find?]
  | cons head rest ih =>
    obtain ⟨n, b⟩ := head
    rw [erase, List.filter_cons]
    change find? other (if _ then _ :: erase name rest else erase name rest) = _
    split <;> grind [find?]

theorem mem_of_find? {name : String} {a : α} {l : List (String × α)} (h : find? name l = some a) :
    (name, a) ∈ l := by
  induction l with
  | nil => simp [find?] at h
  | cons head rest ih =>
    obtain ⟨n, b⟩ := head
    rw [find?] at h
    split at h <;> simp_all

theorem find?_eq_none {name : String} {l : List (String × α)} (h : ∀ e ∈ l, name ≠ e.1) :
    find? name l = none := by
  induction l with
  | nil => rfl
  | cons head rest ih =>
    obtain ⟨n, b⟩ := head
    rw [find?, if_neg (h (n, b) (by simp)), ih fun e he => h e (List.mem_cons_of_mem _ he)]

theorem nodup_names {l : List (String × α)} (h : Sorted l) : (l.map (·.1)).Nodup := by
  refine List.pairwise_map.mpr (List.Pairwise.imp ?_ h)
  intro a b hlt heq
  exact String.lt_irrefl _ (heq ▸ hlt)

theorem find?_of_mem {name : String} {a : α} {l : List (String × α)} (sorted : Sorted l)
    (h : (name, a) ∈ l) : find? name l = some a := by
  induction l with
  | nil => simp at h
  | cons head rest ih =>
    obtain ⟨n, b⟩ := head
    obtain ⟨below, tail⟩ := List.pairwise_cons.mp sorted
    rcases List.mem_cons.mp h with same | h
    · simp_all [find?]
    · have lt := below _ h
      have : name ≠ n := fun e => String.lt_irrefl n (e ▸ lt)
      rw [find?, if_neg this, ih tail h]

/-- A sorted list is determined by its look-ups. -/
theorem ext_find? {l m : List (String × α)} (hl : Sorted l) (hm : Sorted m)
    (same : ∀ name, find? name l = find? name m) : l = m := by
  induction l generalizing m with
  | nil =>
    cases m with
    | nil => rfl
    | cons e m => have := same e.1; simp [find?] at this
  | cons e l ih =>
    cases m with
    | nil => have := same e.1; simp [find?] at this
    | cons f m =>
      obtain ⟨belowL, tailL⟩ := List.pairwise_cons.mp hl
      obtain ⟨belowM, tailM⟩ := List.pairwise_cons.mp hm
      have names : e.1 = f.1 := by
        have inM : (e.1, e.2) ∈ f :: m := mem_of_find? (by rw [← same]; simp [find?])
        have inL : (f.1, f.2) ∈ e :: l := mem_of_find? (by rw [same]; simp [find?])
        rcases List.mem_cons.mp inM with h | h
        · rw [← h]
        · rcases List.mem_cons.mp inL with h' | h'
          · rw [← h']
          · exact absurd (String.lt_trans (belowM _ h) (belowL _ h')) (String.lt_irrefl _)
      have values : e.2 = f.2 := by
        have := same e.1
        simpa [find?, names] using this
      have head : e = f := Prod.ext names values
      subst head
      refine congrArg (e :: ·) (ih tailL tailM fun name => ?_)
      by_cases h : name = e.1
      · subst h
        have absent : ∀ {r : List (String × α)}, (∀ g ∈ r, e.1 < g.1) → find? e.1 r = none :=
          fun below => find?_eq_none fun g hg eq =>
            String.lt_irrefl e.1 (by have := below g hg; rwa [← eq] at this)
        rw [absent belowL, absent belowM]
      · have := same name
        simpa [find?, h] using this

end Entries

/-! ## The map -/

/-- Values under names, in the order of the names. -/
structure NameMap (α : Type) where
  entries : List (String × α)
  sorted : Entries.Sorted entries

namespace NameMap

variable {α : Type}

def empty : NameMap α := ⟨[], List.Pairwise.nil⟩

instance : Inhabited (NameMap α) := ⟨empty⟩

def get? (m : NameMap α) (name : String) : Option α := Entries.find? name m.entries

def contains (m : NameMap α) (name : String) : Bool := (m.get? name).isSome

def insert (m : NameMap α) (name : String) (a : α) : NameMap α :=
  ⟨Entries.insert name a m.entries, Entries.sorted_insert m.sorted⟩

def erase (m : NameMap α) (name : String) : NameMap α :=
  ⟨Entries.erase name m.entries, Entries.sorted_erase m.sorted⟩

def names (m : NameMap α) : List String := m.entries.map (·.1)

def values (m : NameMap α) : List α := m.entries.map (·.2)

def size (m : NameMap α) : Nat := m.entries.length

/-- The pairs entered from left to right; a later one replaces an earlier one of its name. -/
def ofList (l : List (String × α)) : NameMap α := l.foldl (fun m e => m.insert e.1 e.2) empty

@[simp] theorem get?_empty (name : String) : (empty : NameMap α).get? name = none := rfl

@[simp] theorem get?_insert (m : NameMap α) (name other : String) (a : α) :
    (m.insert name a).get? other = if other = name then some a else m.get? other :=
  Entries.find?_insert ..

@[simp] theorem get?_erase (m : NameMap α) (name other : String) :
    (m.erase name).get? other = if other = name then none else m.get? other :=
  Entries.find?_erase ..

theorem found_insert {m : NameMap α} {name other : String} {a b : α}
    (h : (m.insert name a).get? other = some b) : a = b ∨ m.get? other = some b := by
  rw [get?_insert] at h
  split at h
  · exact .inl (Option.some.inj h)
  · exact .inr h

theorem found_erase {m : NameMap α} {name other : String} {b : α}
    (h : (m.erase name).get? other = some b) : m.get? other = some b := by
  rw [get?_erase] at h
  split at h
  · cases h
  · exact h

theorem mem_entries {m : NameMap α} {name : String} {a : α} :
    (name, a) ∈ m.entries ↔ m.get? name = some a :=
  ⟨Entries.find?_of_mem m.sorted, Entries.mem_of_find?⟩

@[ext] theorem ext {m n : NameMap α} (h : ∀ name, m.get? name = n.get? name) : m = n := by
  obtain ⟨l, hl⟩ := m
  obtain ⟨k, hk⟩ := n
  have : l = k := Entries.ext_find? hl hk h
  subst this
  rfl

theorem get?_foldl_insert {l : List (String × α)} (hl : Entries.Sorted l) (m : NameMap α)
    (name : String) : (l.foldl (fun m e => m.insert e.1 e.2) m).get? name =
      (Entries.find? name l).or (m.get? name) := by
  induction l generalizing m with
  | nil => rfl
  | cons e rest ih =>
    obtain ⟨below, tail⟩ := List.pairwise_cons.mp hl
    rw [List.foldl_cons, ih tail, get?_insert, Entries.find?]
    split
    · next same =>
      have habsent : Entries.find? e.1 rest = none :=
        Entries.find?_eq_none fun f hf eq => String.lt_irrefl f.1 (eq ▸ below f hf)
      rw [same, habsent]
      rfl
    · rfl

theorem ofList_entries (m : NameMap α) : ofList m.entries = m := by
  refine ext fun name => ?_
  rw [ofList, get?_foldl_insert m.sorted, get?_empty, Option.or_none]
  rfl

end NameMap

end RequestAccess
