import Mathlib.Logic.ExistsUnique
import RequestAccess.Access

/-!
# The grammar of accesses

An access is written as the name of an operation, some with an argument behind a colon. What can be
read is exactly what is so written, and each readable text has one canonical form: the access it is
read as, rendered again.
-/

namespace RequestAccess.Access

/-! ## The grammar -/

def plainOperations : List (String × Access) :=
  [("cookies", cookies), ("cookies.size", cookiesSize), ("headers", headers),
    ("headers.keys", headersKeys), ("draft", draft), ("draft.is-enabled", draftIsEnabled),
    ("draft.enable", draftEnable), ("draft.disable", draftDisable)]

def namedOperations : List (String × (String → Access)) :=
  [("cookies.get", cookiesGet), ("cookies.has", cookiesHas), ("headers.get", headersGet),
    ("headers.has", headersHas)]

/-- The text before the first colon and the text behind it, both without blank space around them. -/
def SplitsInto (s operation argument : String) : Prop :=
  ∃ before after, ':' ∉ before ∧ s.toList = before ++ ':' :: after ∧
    String.ofList (Text.trim before) = operation ∧ String.ofList (Text.trim after) = argument

/-- How an access is written. -/
inductive Written (s : String) : Access → Prop where
  | plain {operation : String} {a : Access} (whole : ':' ∉ s.toList)
      (name : Text.trimmed s = operation) (known : (operation, a) ∈ plainOperations) : Written s a
  | named {operation name : String} {make : String → Access} (split : SplitsInto s operation name)
      (known : (operation, make) ∈ namedOperations) : Written s (make name)
  /-- The first equals sign of the argument ends the name. -/
  | set {argument name value : String} (split : SplitsInto s "cookies.set" argument)
      (first : '=' ∉ name.toList) (pair : argument = name ++ "=" ++ value) :
      Written s (cookiesSet name value)

/-! ## Reading -/

theorem plain?_eq_some {operation : String} {a : Access} :
    plain? operation = some a ↔ (operation, a) ∈ plainOperations := by
  unfold plain? plainOperations
  split <;> simp_all [eq_comm]

theorem named?_eq_some {operation name : String} {a : Access} :
    named? operation name = some a ↔
      ∃ make, (operation, make) ∈ namedOperations ∧ make name = a := by
  unfold named? namedOperations
  split <;> simp_all

theorem orUnknown_eq_ok {s : String} {access? : Option Access} {a : Access} :
    orUnknown s access? = .ok a ↔ access? = some a := by
  cases access? <;> simp [orUnknown]

theorem setOf_eq_ok {argument : String} {a : Access} :
    setOf argument.toList = .ok a ↔ ∃ name value, '=' ∉ name.toList ∧
      argument = name ++ "=" ++ value ∧ cookiesSet name value = a := by
  have hpair (name value : String) : argument = name ++ "=" ++ value ↔
      argument.toList = name.toList ++ '=' :: value.toList := by
    simp [← String.toList_inj]
  simp only [hpair]
  unfold setOf
  cases hc : Text.cut? '=' argument.toList with
  | none =>
    have hnone := Text.cut?_eq_none.mp hc
    constructor
    · intro h
      cases h
    · rintro ⟨name, value, -, hsplit, -⟩
      simp [hsplit] at hnone
  | some p =>
    constructor
    · intro h
      obtain ⟨hfirst, hsplit⟩ := Text.cut?_eq_some.mp hc
      cases h
      exact ⟨_, _, by simpa using hfirst, by simpa using hsplit, rfl⟩
    · rintro ⟨name, value, hfirst, hsplit, rfl⟩
      rw [Text.cut?_eq_some.mpr ⟨hfirst, hsplit⟩] at hc
      cases hc
      simp

section Split

variable {s operation argument : String} (h : SplitsInto s operation argument)

include h

theorem SplitsInto.cut : ∃ p, Text.cut? ':' s.toList = some p ∧
    String.ofList (Text.trim p.1) = operation ∧ String.ofList (Text.trim p.2) = argument := by
  obtain ⟨before, after, colon, hs, ho, ha⟩ := h
  exact ⟨(before, after), Text.cut?_eq_some.mpr ⟨colon, hs⟩, ho, ha⟩

theorem SplitsInto.isBare : Text.isBare argument.toList = true := by
  obtain ⟨before, after, -, -, -, rfl⟩ := h
  rw [String.toList_ofList]
  exact Text.isBare_trim after

theorem parse_split : parse s =
    if operation = "cookies.set" then setOf argument.toList
    else orUnknown s (named? operation argument) := by
  obtain ⟨p, hp, rfl, rfl⟩ := h.cut
  simp only [parse, hp, String.toList_ofList]

end Split

theorem parse_whole {s : String} (h : ':' ∉ s.toList) :
    parse s = orUnknown s (plain? (Text.trimmed s)) := by
  simp only [parse, Text.cut?_eq_none.mpr h]

theorem splits_of_colon {s : String} (h : ':' ∈ s.toList) :
    ∃ operation argument, SplitsInto s operation argument := by
  cases hc : Text.cut? ':' s.toList with
  | none => exact absurd h (Text.cut?_eq_none.mp hc)
  | some p =>
    obtain ⟨colon, hs⟩ := Text.cut?_eq_some.mp hc
    exact ⟨_, _, p.1, p.2, colon, hs, rfl, rfl⟩

/-- What can be read is what the grammar writes. -/
theorem parse_eq_ok {s : String} {a : Access} : parse s = .ok a ↔ Written s a := by
  constructor
  · intro h
    by_cases colon : ':' ∈ s.toList
    · obtain ⟨operation, argument, split⟩ := splits_of_colon colon
      rw [parse_split split] at h
      by_cases hset : operation = "cookies.set"
      · subst hset
        obtain ⟨name, value, first, pair, rfl⟩ := setOf_eq_ok.mp h
        exact .set split first pair
      · rw [if_neg hset, orUnknown_eq_ok] at h
        obtain ⟨make, known, rfl⟩ := named?_eq_some.mp h
        exact .named split known
    · rw [parse_whole colon, orUnknown_eq_ok] at h
      exact .plain colon rfl (plain?_eq_some.mp h)
  · intro h
    cases h with
    | plain whole name known =>
      rw [parse_whole whole, orUnknown_eq_ok, name]
      exact plain?_eq_some.mpr known
    | @named operation name make split known =>
      have hset : operation ≠ "cookies.set" := by
        rintro rfl
        simp [namedOperations] at known
      rw [parse_split split, if_neg hset, orUnknown_eq_ok]
      exact named?_eq_some.mpr ⟨make, known, rfl⟩
    | @set argument name value split first pair =>
      rw [parse_split split, if_pos rfl]
      exact setOf_eq_ok.mpr ⟨name, value, first, pair, rfl⟩

/-! ## Rendering -/

theorem plain_operation {e : String × Access} (h : e ∈ plainOperations) :
    ':' ∉ e.1.toList ∧ Text.trimmed e.1 = e.1 ∧ e.2.render = e.1 := by
  revert e
  decide

theorem named_operation {e : String × (String → Access)} (h : e ∈ namedOperations) :
    ':' ∉ e.1.toList ∧ Text.isBare e.1.toList = true := by
  have hnames : ∀ operation ∈ namedOperations.map (·.1),
      ':' ∉ operation.toList ∧ Text.isBare operation.toList = true := by
    decide
  exact hnames e.1 (List.mem_map_of_mem h)

theorem named_render {e : String × (String → Access)} (h : e ∈ namedOperations) (name : String) :
    (e.2 name).render = e.1 ++ ":" ++ name := by
  simp only [namedOperations, List.mem_cons, List.not_mem_nil, or_false] at h
  rcases h with rfl | rfl | rfl | rfl <;> simp [render]

theorem splitsInto_of_bare {operation argument : String} (colon : ':' ∉ operation.toList)
    (ho : Text.isBare operation.toList = true) (ha : Text.isBare argument.toList = true) :
    SplitsInto (operation ++ ":" ++ argument) operation argument :=
  ⟨operation.toList, argument.toList, colon, by simp, by simp [Text.trim_of_isBare ho],
    by simp [Text.trim_of_isBare ha]⟩

theorem Written.render {s : String} {a : Access} (h : Written s a) : Written a.render a := by
  cases h with
  | plain whole name known =>
    obtain ⟨colon, trimmed, rendered⟩ := plain_operation known
    rw [rendered]
    exact .plain colon trimmed known
  | named split known =>
    obtain ⟨colon, bare⟩ := named_operation known
    rw [named_render known]
    exact .named (splitsInto_of_bare colon bare split.isBare) known
  | @set argument name value split first pair =>
    have hrender : (cookiesSet name value).render = "cookies.set" ++ ":" ++ argument := by
      simp [Access.render, pair, String.append_assoc]
    rw [hrender]
    exact .set (splitsInto_of_bare (by decide) (by decide) split.isBare) first pair

/-- A text that some access is rendered as. -/
def IsCanonical (s : String) : Prop := ∃ a, Written s a ∧ a.render = s

theorem canonical_iff {s c : String} {a : Access} (h : Written s a) :
    IsCanonical c ∧ parse c = parse s ↔ c = a.render := by
  rw [parse_eq_ok.mpr h, parse_eq_ok]
  constructor
  · rintro ⟨⟨b, hb, rfl⟩, ha⟩
    have hsame := (parse_eq_ok.mpr hb).symm.trans (parse_eq_ok.mpr ha)
    cases hsame
    rfl
  · rintro rfl
    exact ⟨⟨a, h.render, rfl⟩, h.render⟩

/-- How a text is read, all of it said by the grammar. -/
structure ReadByGrammar (s : String) : Prop where
  reads (a : Access) : parse s = .ok a ↔ Written s a
  refuses : (∃ fault, parse s = .error fault) ↔ ∀ a, ¬ Written s a
  rendered (a : Access) (h : parse s = .ok a) : parse a.render = .ok a
  canonical (a : Access) (h : Written s a) : ∃! c, IsCanonical c ∧ parse c = parse s

/-- The reader of accesses accepts what the grammar writes and nothing else. It reads a rendered
access as that access, so every text that it accepts has one canonical form. -/
theorem accesses_read_by_grammar (s : String) : ReadByGrammar s where
  reads a := parse_eq_ok
  refuses := by
    simp only [← parse_eq_ok]
    cases parse s <;> simp
  rendered a h := parse_eq_ok.mpr (parse_eq_ok.mp h).render
  canonical a h := ⟨a.render, (canonical_iff h).mpr rfl, fun c hc => (canonical_iff h).mp hc⟩

example : parse " cookies.set :\ttheme= a:b=c\u3000" = .ok (cookiesSet "theme" " a:b=c") := by
  cbv

end RequestAccess.Access
