/-!
# Tables

A table keeps the things of one kind, each under a key. A key that was never set stands for the
kind's blank thing, so every look-up has an answer.
-/

namespace RequestAccess

/-- What a key is a key of. -/
inductive Kind where
  | jar
  | headers
  | draft
  | signal
  | log
  | work
  | unit
  | coordinator
  | reporter

structure Key (k : Kind) where
  index : Nat
deriving DecidableEq

/-- A table of things of one kind. A key outside it stands for a blank thing. -/
structure Table (k : Kind) (α : Type) where
  rows : List α
deriving Inhabited

namespace Table

variable {kind : Kind} {α : Type} [Inhabited α]

def empty : Table kind α := ⟨[]⟩

def get (t : Table kind α) (k : Key kind) : α := t.rows.getD k.index default

/-- Writes row `n`, adding blank rows before it where the list is too short. -/
def put (a : α) : Nat → List α → List α
  | 0, [] => [a]
  | n + 1, [] => default :: put a n []
  | 0, _ :: rows => a :: rows
  | n + 1, b :: rows => b :: put a n rows

def set (t : Table kind α) (k : Key kind) (a : α) : Table kind α := ⟨put a k.index t.rows⟩

def modify (t : Table kind α) (k : Key kind) (f : α → α) : Table kind α := t.set k (f (t.get k))

/-- A new row, and its key. -/
def add (t : Table kind α) (a : α) : Key kind × Table kind α := (⟨t.rows.length⟩, ⟨t.rows ++ [a]⟩)

theorem getD_put (a : α) (n m : Nat) (rows : List α) :
    (put a n rows).getD m default = if m = n then a else rows.getD m default := by
  induction n generalizing m rows with
  | zero => cases rows <;> cases m <;> simp [put]
  | succ n ih => cases rows <;> cases m <;> simp_all [put]

@[simp] theorem get_set (t : Table kind α) (k j : Key kind) (a : α) :
    (t.set k a).get j = if j = k then a else t.get j := by
  obtain ⟨k⟩ := k
  obtain ⟨j⟩ := j
  simp only [get, set, getD_put, Key.mk.injEq]

@[simp] theorem get_modify (t : Table kind α) (k j : Key kind) (f : α → α) :
    (t.modify k f).get j = if j = k then f (t.get k) else t.get j := get_set ..

theorem forall_set {P : Key kind → α → Prop} {t : Table kind α} {k : Key kind} {a : α} (hk : P k a)
    (h : ∀ j, P j (t.get j)) (j : Key kind) : P j ((t.set k a).get j) := by
  rw [get_set]
  split
  · next same => exact same ▸ hk
  · exact h j

theorem put_put (a b : α) (n : Nat) (rows : List α) : put a n (put b n rows) = put a n rows := by
  induction n generalizing rows with
  | zero => cases rows <;> simp [put]
  | succ n ih => cases rows <;> simp [put, ih]

@[simp] theorem set_set (t : Table kind α) (k : Key kind) (a b : α) :
    (t.set k b).set k a = t.set k a := congrArg Table.mk (put_put a b k.index t.rows)

theorem put_comm (a b : α) {n m : Nat} (h : n ≠ m) (rows : List α) :
    put a n (put b m rows) = put b m (put a n rows) := by
  induction n generalizing m rows with
  | zero => cases m <;> cases rows <;> simp_all [put]
  | succ n ih => cases m <;> cases rows <;> simp_all [put]

theorem set_comm (t : Table kind α) {k j : Key kind} (h : k ≠ j) (a b : α) :
    (t.set j b).set k a = (t.set k a).set j b :=
  congrArg Table.mk (put_comm a b (fun same => h (congrArg Key.mk same)) t.rows)

theorem modify_set (t : Table kind α) (k j : Key kind) (a : α) (f : α → α) :
    (t.set k a).modify j f = (t.modify j f).set k (if k = j then f a else a) := by
  by_cases h : k = j
  · simp [modify, h]
  · simp [modify, h, Ne.symm h, set_comm t h]

theorem put_getD (n : Nat) (rows : List α) (h : n < rows.length) :
    put (rows.getD n default) n rows = rows := by
  induction n generalizing rows with
  | zero => cases rows <;> simp_all [put]
  | succ n ih => cases rows <;> simp_all [put]

theorem get_of_length_le (t : Table kind α) (k : Key kind) (h : t.rows.length ≤ k.index) :
    t.get k = default := by
  simp [get, List.getD_eq_getElem?_getD, List.getElem?_eq_none h]

theorem set_get (t : Table kind α) (k : Key kind) (h : t.get k ≠ default) :
    t.set k (t.get k) = t := by
  have hk : k.index < t.rows.length := Nat.lt_of_not_le fun out => h (t.get_of_length_le k out)
  exact congrArg Table.mk (put_getD k.index t.rows hk)

theorem forall_get {P : α → Prop} {t : Table kind α} (rows : ∀ a ∈ t.rows, P a) (blank : P default)
    (k : Key kind) : P (t.get k) := by
  rcases Nat.lt_or_ge k.index t.rows.length with hk | hk
  · rw [get, List.getD_eq_getElem?_getD, List.getElem?_eq_getElem hk]
    exact rows _ (List.getElem_mem hk)
  · rw [t.get_of_length_le k hk]
    exact blank

end Table

end RequestAccess
