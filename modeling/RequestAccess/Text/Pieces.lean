/-!
# Cutting and joining text
-/

namespace RequestAccess.Text

/-- The pieces between the separators. There is always at least one. -/
def pieces (sep : Char) : List Char → List (List Char)
  | [] => [[]]
  | c :: s =>
    if c = sep then [] :: pieces sep s
    else match pieces sep s with
      | [] => [[c]]
      | p :: ps => (c :: p) :: ps

/-- The text before the first separator and the text after it. -/
def cut? (sep : Char) : List Char → Option (List Char × List Char)
  | [] => none
  | c :: s => if c = sep then some ([], s) else (cut? sep s).map fun p => (c :: p.1, p.2)

/-- The texts in order, with `sep` between neighbours. -/
def join (sep : String) : List String → String
  | [] => ""
  | [s] => s
  | s :: t :: rest => s ++ sep ++ join sep (t :: rest)

/-- The texts in order, with a comma between neighbours. -/
def commas : List (List Char) → List Char
  | [] => []
  | [s] => s
  | s :: t :: rest => s ++ ',' :: commas (t :: rest)

def inQuotes (s : List Char) : List Char := '"' :: s ++ ['"']

/-! ## Laws -/

theorem pieces_ne_nil (sep : Char) (s : List Char) : pieces sep s ≠ [] := by
  cases s with
  | nil => simp [pieces]
  | cons c s =>
    rw [pieces]
    split
    · simp
    · split <;> simp

theorem pieces_cons {sep c : Char} (h : c ≠ sep) (s : List Char) :
    ∃ p ps, pieces sep s = p :: ps ∧ pieces sep (c :: s) = (c :: p) :: ps := by
  rw [pieces, if_neg h]
  cases hp : pieces sep s with
  | nil => exact absurd hp (pieces_ne_nil sep s)
  | cons p ps => exact ⟨p, ps, rfl, rfl⟩

theorem not_mem_of_mem_pieces {sep : Char} {s p : List Char} (h : p ∈ pieces sep s) : sep ∉ p := by
  induction s generalizing p with
  | nil => simp_all [pieces]
  | cons c s ih =>
    rw [pieces] at h
    split at h
    · rcases List.mem_cons.mp h with rfl | h
      · simp
      · exact ih h
    · rename_i hc
      split at h
      · simp_all [pieces_ne_nil]
      · rename_i q qs hs
        rw [hs] at ih
        rcases List.mem_cons.mp h with rfl | h
        · have hq := ih List.mem_cons_self
          simp [hq, Ne.symm hc]
        · exact ih (List.mem_cons_of_mem _ h)

theorem pieces_of_not_mem {sep : Char} {s : List Char} (h : sep ∉ s) : pieces sep s = [s] := by
  induction s with
  | nil => rfl
  | cons c s ih =>
    rw [List.mem_cons, not_or] at h
    rw [pieces, if_neg (Ne.symm h.1), ih h.2]

theorem pieces_append (sep : Char) (a b : List Char) :
    pieces sep (a ++ sep :: b) = pieces sep a ++ pieces sep b := by
  induction a with
  | nil => simp [pieces]
  | cons c a ih =>
    by_cases hc : c = sep
    · simp [pieces, hc, ih]
    · obtain ⟨p, ps, ha, hca⟩ := pieces_cons hc a
      rw [ha] at ih
      rw [hca, List.cons_append, pieces, if_neg hc, ih]
      rfl

theorem cut?_eq_some {sep : Char} {s a b : List Char} :
    cut? sep s = some (a, b) ↔ sep ∉ a ∧ s = a ++ sep :: b := by
  induction s generalizing a with
  | nil => simp [cut?]
  | cons c s ih =>
    by_cases h : c = sep
    · subst h
      cases a with
      | nil => simp [cut?, eq_comm]
      | cons x a =>
        simp only [cut?, if_pos, Option.some.injEq, Prod.mk.injEq, List.mem_cons, not_or,
          List.cons_append, List.cons.injEq]
        grind
    · cases a with
      | nil => simp [cut?, h]
      | cons x a =>
        simp only [cut?, if_neg h, Option.map_eq_some_iff, Prod.exists, Prod.mk.injEq,
          List.cons.injEq, List.mem_cons, not_or, List.cons_append]
        grind

theorem cut?_eq_none {sep : Char} {s : List Char} : cut? sep s = none ↔ sep ∉ s := by
  induction s with
  | nil => simp [cut?]
  | cons c s ih => by_cases h : c = sep <;> simp_all [cut?, @eq_comm _ sep]

theorem commas_cons (s : List Char) (rest : List (List Char)) :
    ∃ t, commas (s :: rest) = s ++ t := by
  cases rest with
  | nil => exact ⟨[], (List.append_nil s).symm⟩
  | cons t rest => exact ⟨_, rfl⟩

theorem inQuotes_append (s rest : List Char) : inQuotes s ++ rest = '"' :: (s ++ '"' :: rest) := by
  simp [inQuotes]

theorem join_concat (sep : String) {texts : List String} (h : texts ≠ []) (t : String) :
    join sep (texts ++ [t]) = join sep texts ++ sep ++ t := by
  induction texts with
  | nil => exact absurd rfl h
  | cons s rest ih =>
    cases rest with
    | nil => simp [join]
    | cons next rest =>
      have hrest := ih (List.cons_ne_nil next rest)
      simp only [List.cons_append, join] at hrest ⊢
      rw [hrest]
      simp only [String.append_assoc]

end RequestAccess.Text
