/-!
# Blank space

The characters that have the Unicode property White_Space, and trimming by them.
-/

namespace RequestAccess.Text

/-- Twenty-five characters. The zero-width ones and U+001C to U+001F are not among them. -/
def isBlank (c : Char) : Bool :=
  let n := c.toNat
  (9 ≤ n && n ≤ 13) || n == 0x20 || n == 0x85 || n == 0xA0 || n == 0x1680 ||
    (0x2000 ≤ n && n ≤ 0x200A) || n == 0x2028 || n == 0x2029 || n == 0x202F || n == 0x205F ||
    n == 0x3000

/-- Without the blank space at both ends. -/
def trim (s : List Char) : List Char :=
  ((s.dropWhile isBlank).reverse.dropWhile isBlank).reverse

def trimmed (s : String) : String := String.ofList (trim s.toList)

/-- There is no blank space at either end. -/
def isBare (s : List Char) : Bool := !s.head?.any isBlank && !s.getLast?.any isBlank

example : trimmed "\u00a0 a b\t\u3000" = "a b" := by decide
example : trimmed "\u200b" = "\u200b" := by decide

/-! ## Laws -/

theorem head?_dropWhile (s : List Char) : (s.dropWhile isBlank).head?.any isBlank = false := by
  induction s with
  | nil => rfl
  | cons c s ih =>
    rw [List.dropWhile_cons]
    split
    · exact ih
    · simp_all

theorem dropWhile_of_head? {s : List Char} (h : s.head?.any isBlank = false) :
    s.dropWhile isBlank = s := by
  cases s with
  | nil => rfl
  | cons c s => simp_all

theorem mem_of_mem_trim {s : List Char} {c : Char} (h : c ∈ trim s) : c ∈ s := by
  rw [trim, List.mem_reverse] at h
  have h' := List.mem_reverse.mp ((List.dropWhile_sublist _).mem h)
  exact (List.dropWhile_sublist _).mem h'

theorem trim_cons {c : Char} (h : isBlank c = true) (s : List Char) : trim (c :: s) = trim s := by
  rw [trim, List.dropWhile_cons_of_pos h]
  rfl

theorem trim_of_isBare {s : List Char} (h : isBare s = true) : trim s = s := by
  obtain ⟨hhead, hlast⟩ : s.head?.any isBlank = false ∧ s.getLast?.any isBlank = false := by
    simpa [isBare] using h
  rw [trim, dropWhile_of_head? hhead, dropWhile_of_head? (by rwa [List.head?_reverse]),
    List.reverse_reverse]

theorem isBare_trim (s : List Char) : isBare (trim s) = true := by
  have hlast : (trim s).getLast?.any isBlank = false := by
    rw [trim, List.getLast?_reverse]
    exact head?_dropWhile _
  have hhead : (trim s).head?.any isBlank = false := by
    have hfirst := head?_dropWhile s
    rw [trim, List.head?_reverse]
    generalize s.dropWhile isBlank = t at hfirst
    -- What is left of `t` from its end on still starts where `t` starts.
    have hsplit := List.takeWhile_append_dropWhile (p := isBlank) (l := t.reverse)
    cases hd : (t.reverse.dropWhile isBlank).getLast? with
    | none => rfl
    | some c =>
      have ht : t.head? = some c := by
        rw [← List.getLast?_reverse, ← hsplit, List.getLast?_append, hd]
        rfl
      rwa [ht] at hfirst
  simp [isBare, hhead, hlast]

end RequestAccess.Text
