import RequestAccess.Codec.Laws
import RequestAccess.Scenario.Decode

/-!
# Decoding trees

What the decoders of a scenario make of values that answer for their trees.
-/

namespace RequestAccess.Scenario

variable {δ α : Type} [Format δ] {data : Json → δ} {decode : δ → Option α}

theorem mapM_map_of_inverse {β γ : Type} {f : β → γ} {g : γ → Option β} (h : ∀ b, g (f b) = some b)
    (l : List β) : (l.map f).mapM g = some l := by
  induction l with
  | nil => rfl
  | cons b l ih =>
    rw [List.map_cons, List.mapM_cons, h, ih]
    rfl

theorem listOf_array (hd : Format.Answers data) {f : α → Json}
    (h : ∀ a, decode (data (f a)) = some a) (l : List α) :
    listOf decode (data (.array (l.map f))) = some l := by
  rw [listOf, hd.items, List.map_map]
  exact mapM_map_of_inverse h l

theorem optional_map (hd : Format.Answers data) {f : α → Json}
    (h : ∀ a, decode (data (f a)) = some a) (hnull : ∀ a, f a ≠ .null) (x : Option α) :
    optional decode ((x.map f).map data) = some x := by
  cases x with
  | none => rfl
  | some a =>
    rw [Option.map_some, Option.map_some, optional, hd.isNull (hnull a), h]
    rfl

theorem choice_text (hd : Format.Answers data) {all : List α} {name : α → String} {word : String}
    {a : α} (h : all.find? (fun b => name b == word) = some a) :
    choice all name (data (.text word)) = some a := by
  rw [choice, hd.word]
  exact h

theorem texts_object (hd : Format.Answers data) {l : List (String × String)}
    (h : (l.map (·.1)).Nodup) :
    texts (data (.object (l.map fun e => (e.1, .text e.2)))) = some (NameMap.ofList l) := by
  have hnames : ((l.map fun e => (e.1, Json.text e.2)).map (·.1)).Nodup := by
    rwa [List.map_map]
  have hentries : ((l.map fun e => (e.1, data (.text e.2))).mapM
      fun e => (Format.text? e.2).map (e.1, ·)) = some l :=
    mapM_map_of_inverse (f := fun e : String × String => (e.1, data (.text e.2)))
      (fun e => by rw [hd.text]; rfl) l
  rw [texts, hd.members hnames, List.map_map]
  simp only [Function.comp_def, hentries, Option.map_some]

end RequestAccess.Scenario
