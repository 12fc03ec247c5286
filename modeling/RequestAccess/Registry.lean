/-!
# Registries of handles

A registry keeps the first thing made under a key and answers every later request for the key
with it.
-/

namespace RequestAccess

/-- What a handle is remembered by. -/
inductive MemoKey where
  /-- The work unit itself. -/
  | unit
  /-- The number of the resource behind the handle. -/
  | source (number : Nat)
  /-- There is no resource behind the handle. -/
  | absent
deriving DecidableEq

/-- Things under keys, in the order in which they were made. -/
structure Registry (κ α : Type) where
  entries : List (κ × α) := []

namespace Registry

variable {κ α : Type} [DecidableEq κ]

def empty : Registry κ α := {}

def get? (r : Registry κ α) (k : κ) : Option α := (r.entries.find? (·.1 = k)).map (·.2)

def size (r : Registry κ α) : Nat := r.entries.length

/-- What is kept under the key, after `a` is put there if nothing is. -/
def getOrCreate (r : Registry κ α) (k : κ) (a : α) : Registry κ α × α :=
  match r.get? k with
  | some kept => (r, kept)
  | none => (⟨r.entries ++ [(k, a)]⟩, a)

@[simp] theorem get?_empty (k : κ) : (empty : Registry κ α).get? k = none := rfl

/-- A key keeps what it has, and only the asked key gets something new. -/
theorem get?_getOrCreate (r : Registry κ α) (k j : κ) (a : α) :
    (r.getOrCreate k a).1.get? j = if j = k then some ((r.get? k).getD a) else r.get? j := by
  unfold getOrCreate
  split
  · next kept h => split <;> simp_all
  · next h =>
    rw [h]
    simp only [get?, List.find?_append, Option.map_eq_none_iff] at h ⊢
    by_cases same : j = k
    · subst same
      simp [h]
    · simp [same, @eq_comm κ k j]

theorem getOrCreate_of_kept {r : Registry κ α} {k : κ} {a : α} (h : r.get? k = some a) (b : α) :
    r.getOrCreate k b = (r, a) := by
  simp [getOrCreate, h]

theorem getOrCreate_of_new {r : Registry κ α} {k : κ} (h : r.get? k = none) (a : α) :
    r.getOrCreate k a = (⟨r.entries ++ [(k, a)]⟩, a) := by
  simp [getOrCreate, h]

theorem mem_entries_of_get? {r : Registry κ α} {k : κ} {a : α} (h : r.get? k = some a) :
    (k, a) ∈ r.entries := by
  obtain ⟨e, he, rfl⟩ := Option.map_eq_some_iff.mp h
  have hk : e.1 = k := by simpa using List.find?_some he
  exact hk ▸ List.mem_of_find?_eq_some he

end Registry

end RequestAccess
