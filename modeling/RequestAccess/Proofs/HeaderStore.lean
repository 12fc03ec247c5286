import RequestAccess.Proofs.HeaderBlock
import RequestAccess.Proofs.StoreCalls

/-!
# Headers and the block they hold

Headers that were built and called hold the block that was built and called in the same way.
-/

namespace RequestAccess

namespace Headers

/-- The headers and the block have the same values under the same names. -/
structure Holds (h : Headers) (b : HeaderBlock) : Prop where
  values (name : String) : h.valuesOf name = (b.filter (·.name = name)).map (·.value)
  occupied (name : String) : h.lines.get? name ≠ some []

theorem filter_without (b : HeaderBlock) (key name : String) :
    (b.filter (·.name ≠ key)).filter (·.name = name) =
      if name = key then [] else b.filter (·.name = name) := by
  rw [List.filter_filter]
  split
  · next same => simp [same]
  · next other =>
    refine List.filter_congr fun l _ => ?_
    grind

variable {h : Headers} {b : HeaderBlock}

/-! ## Single changes -/

theorem valuesOf_insert (h : Headers) (key name : String) (values : List HeaderValue) :
    Headers.valuesOf { h with lines := h.lines.insert key values } name =
      if name = key then values else h.valuesOf name := by
  simp only [valuesOf, NameMap.get?_insert]
  split <;> rfl

theorem valuesOf_erase (h : Headers) (key name : String) :
    Headers.valuesOf { h with lines := h.lines.erase key } name =
      if name = key then [] else h.valuesOf name := by
  simp only [valuesOf, NameMap.get?_erase]
  split <;> rfl

theorem holds_empty : Headers.empty.Holds [] where
  values _ := rfl
  occupied _ := by simp [empty]

theorem holds_sealed : Headers.sealed.Holds [] where
  values _ := rfl
  occupied _ := by simp [sealed]

namespace Holds

theorem texts (hb : h.Holds b) {name : String} (hname : headerName? name = some name) :
    (h.valuesOf name).filterMap HeaderValue.text? = b.texts name := by
  rw [hb.values, List.filterMap_map, HeaderBlock.texts, HeaderBlock.named,
    ← headerName?_eq_some hname]
  congr 1
  funext l
  exact l.text?_value

theorem insert (hb : h.Holds b) {key : String} {values : List HeaderValue} {b' : HeaderBlock}
    (hne : values ≠ []) (hkey : values = (b'.filter (·.name = key)).map (·.value))
    (hother : ∀ name, name ≠ key → b'.filter (·.name = name) = b.filter (·.name = name)) :
    Holds { h with lines := h.lines.insert key values } b' where
  values name := by
    rw [valuesOf_insert]
    split
    · next same => rw [same, hkey]
    · next other => rw [hother name other, hb.values]
  occupied name := by
    rw [NameMap.get?_insert]
    split
    · simpa using hne
    · exact hb.occupied name

theorem add (hb : h.Holds b) (l : HeaderLine) : (h.add l.name l.value).Holds (b ++ [l]) := by
  refine hb.insert (by simp) ?_ fun name hne => ?_
  · rw [List.filter_append, List.map_append, hb.values]
    simp
  · simp [List.filter_append, Ne.symm hne]

theorem put (hb : h.Holds b) (l : HeaderLine) :
    Holds { h with lines := h.lines.insert l.name [l.value] }
      (b.filter (·.name ≠ l.name) ++ [l]) := by
  refine hb.insert (by simp) ?_ fun name hne => ?_
  · rw [List.filter_append, filter_without, if_pos rfl]
    simp
  · rw [List.filter_append, filter_without, if_neg hne]
    simp [Ne.symm hne]

theorem erase (hb : h.Holds b) (key : String) :
    Holds { h with lines := h.lines.erase key } (b.filter (·.name ≠ key)) where
  values name := by
    rw [valuesOf_erase, filter_without]
    split
    · rfl
    · exact hb.values name
  occupied name := by
    rw [NameMap.get?_erase]
    split
    · simp
    · exact hb.occupied name

/-! ## Calls -/

theorem foldl_add (hb : h.Holds b) (lines : HeaderBlock) :
    Holds (lines.foldl (fun h l => h.add l.name l.value) h) (b ++ lines) := by
  induction lines generalizing h b with
  | nil => simpa using hb
  | cons l rest ih =>
    have hrest := ih (hb.add l)
    rwa [List.append_assoc, List.singleton_append] at hrest

theorem call (hb : h.Holds b) (hs : h.isSealed = false) (c : HeaderCall) :
    ((h.run c).left h).Holds (b.after c) ∧ ((h.run c).left h).isSealed = false := by
  have hopen : ¬ h.isSealed = true := by simp [hs]
  cases c with
  | set name value =>
    rw [run, set_eq, if_neg hopen, HeaderBlock.after]
    cases hl : HeaderLine.ofTexts? name value with
    | none => exact ⟨hb, hs⟩
    | some l =>
      rw [HeaderBlock.without, ← HeaderLine.name_ofTexts? hl]
      exact ⟨hb.put l, hs⟩
  | append name value =>
    rw [run, append_eq, if_neg hopen, HeaderBlock.after]
    cases HeaderLine.ofTexts? name value with
    | none => rw [Option.toList_none, List.append_nil]; exact ⟨hb, hs⟩
    | some l => exact ⟨hb.add l, hs⟩
  | delete name =>
    rw [run, erase_eq, if_neg hopen, HeaderBlock.after]
    split
    · next hn => rw [HeaderBlock.without_of_no_name hn]; exact ⟨hb, hs⟩
    · exact ⟨hb.erase name.toLower, hs⟩
  | _ => exact ⟨hb, hs⟩

end Holds

theorem Holds.after (hb : h.Holds b) (hs : h.isSealed = false) (calls : List HeaderCall) :
    (h.after calls).Holds (calls.foldl HeaderBlock.after b) ∧ (h.after calls).isSealed = false := by
  induction calls generalizing h b with
  | nil => exact ⟨hb, hs⟩
  | cons c rest ih =>
    obtain ⟨hcall, hopen⟩ := hb.call hs c
    exact ih hcall hopen

end Headers

/-! ## Where headers come from -/

/-- The sealed headers of a block. -/
def Headers.ofBlock (b : HeaderBlock) : Headers := ofValues (b.map fun l => (l.name, l.value))

/-- How headers are made: empty, or sealed with what is given. -/
inductive HeaderOrigin where
  | empty
  | sealed
  | ofPairs (pairs : List (String × String))
  | ofBlock (b : HeaderBlock)

namespace HeaderOrigin

def headers : HeaderOrigin → Except StoreError Headers
  | .empty => .ok .empty
  | .sealed => .ok .sealed
  | .ofPairs pairs => Headers.ofPairs pairs
  | .ofBlock b => .ok (.ofBlock b)

def isSealed : HeaderOrigin → Bool
  | .empty => false
  | .sealed | .ofPairs _ | .ofBlock _ => true

/-- The lines that are given. -/
def given : HeaderOrigin → HeaderBlock
  | .empty | .sealed => []
  | .ofPairs pairs => .ofPairs pairs
  | .ofBlock b => b

/-- The lines after calls. Those of sealed headers stay as they were given. -/
def after (o : HeaderOrigin) (calls : List HeaderCall) : HeaderBlock :=
  if o.isSealed then o.given else calls.foldl HeaderBlock.after o.given

end HeaderOrigin

namespace Headers

theorem holds_ofBlock (b : HeaderBlock) : (ofBlock b).Holds b := by
  rw [ofBlock, ofValues, List.foldl_map]
  exact holds_sealed.foldl_add b

theorem mapM_line (pairs : List (String × String)) : (pairs.mapM fun p => line p.1 p.2) =
    match pairs.find? fun p => (HeaderLine.ofTexts? p.1 p.2).isNone with
    | some p => .error (fault p.1 p.2)
    | none => .ok ((HeaderBlock.ofPairs pairs).map fun l => (l.name, l.value)) := by
  induction pairs with
  | nil => rfl
  | cons p rest ih =>
    rw [List.mapM_cons, ih, line_eq, HeaderBlock.ofPairs_cons]
    cases hl : HeaderLine.ofTexts? p.1 p.2 with
    | none => rw [List.find?_cons_of_pos (by simp [hl])]; rfl
    | some l =>
      rw [List.find?_cons_of_neg (by simp [hl])]
      cases rest.find? fun p => (HeaderLine.ofTexts? p.1 p.2).isNone <;> rfl

theorem ofPairs_eq (pairs : List (String × String)) : ofPairs pairs =
    match pairs.find? fun p => (HeaderLine.ofTexts? p.1 p.2).isNone with
    | some p => .error (fault p.1 p.2)
    | none => .ok (ofBlock (.ofPairs pairs)) := by
  rw [ofPairs, mapM_line]
  cases pairs.find? fun p => (HeaderLine.ofTexts? p.1 p.2).isNone <;> rfl

end Headers

namespace HeaderOrigin

variable {o : HeaderOrigin} {start : Headers}

theorem holds_given (h : o.headers = .ok start) :
    start.Holds o.given ∧ start.isSealed = o.isSealed := by
  cases o with
  | empty => cases h; exact ⟨Headers.holds_empty, rfl⟩
  | «sealed» => cases h; exact ⟨Headers.holds_sealed, rfl⟩
  | ofBlock b => cases h; exact ⟨Headers.holds_ofBlock b, Headers.isSealed_ofValues _⟩
  | ofPairs pairs =>
    rw [headers, Headers.ofPairs_eq] at h
    split at h
    · cases h
    · cases h; exact ⟨Headers.holds_ofBlock _, Headers.isSealed_ofValues _⟩

/-- Headers and block that were made and called alike have the same values under the same names. -/
theorem holds_after (h : o.headers = .ok start) (calls : List HeaderCall) :
    (start.after calls).Holds (o.after calls) ∧ (start.after calls).isSealed = o.isSealed := by
  obtain ⟨hgiven, hsealed⟩ := holds_given h
  unfold after
  split
  · next hs =>
    rw [Headers.after_of_sealed (hsealed.trans hs)]
    exact ⟨hgiven, hsealed⟩
  · next hs =>
    have hopen : o.isSealed = false := by simpa using hs
    rw [hopen]
    exact hgiven.after (hsealed.trans hopen) calls

end HeaderOrigin

end RequestAccess
