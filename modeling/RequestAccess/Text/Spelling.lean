/-!
# Spelled text

A text that is written piece by piece, with one piece for each of its characters.
-/

namespace RequestAccess.Text

/-- What comes of writing characters one after the other, each as `piece` has it. -/
inductive Spelled (piece : List Char → Char → Prop) : List Char → List Char → Prop where
  | nil : Spelled piece [] []
  | cons {w written : List Char} {c : Char} {cs : List Char} (hc : piece w c)
      (h : Spelled piece written cs) : Spelled piece (w ++ written) (c :: cs)

namespace Spelled

variable {piece : List Char → Char → Prop} {written cs : List Char}

theorem forall_mem {p : Char → Prop} (hp : ∀ w c, piece w c → ∀ x ∈ w, p x)
    (h : Spelled piece written cs) : ∀ x ∈ written, p x := by
  induction h with
  | nil => exact nofun
  | cons hc _ ih => exact List.forall_mem_append.mpr ⟨hp _ _ hc, ih⟩

/-- Where no piece is empty, a text is written in as many characters as it has, or more. -/
theorem length_le (hp : ∀ w c, piece w c → 1 ≤ w.length) (h : Spelled piece written cs) :
    cs.length ≤ written.length := by
  induction h with
  | nil => exact Nat.le_refl 0
  | cons hc _ ih =>
    have hpos := hp _ _ hc
    rw [List.length_cons, List.length_append]
    omega

end Spelled

end RequestAccess.Text
