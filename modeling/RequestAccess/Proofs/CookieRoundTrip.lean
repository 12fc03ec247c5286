import RequestAccess.Call
import RequestAccess.Proofs.CookieHeader

/-!
# Cookies to a header and back

A jar that is written as a header is read back with the same names and values, if every cookie can
stand in a header. What a header gives always can.
-/

namespace RequestAccess

/-- The cookie as a header brings it back, without attributes. -/
def Cookie.bare (c : Cookie) : Cookie := { name := c.name, value := c.value }

/-- A header brings the name and the value of the cookie back. -/
def Cookie.IsPlain (c : Cookie) : Prop :=
  isPlainName c.name.toList = true ∧ isPlainValue c.value.toList = true

namespace CookieJar

/-! ## The jars that can be had -/

/-- The jars that are built and changed as a host or a render can build and change them. -/
inductive Built : CookieJar → Prop where
  | empty : Built .empty
  | sealed : Built .sealed
  | ofHeader (header : String) : Built (.ofHeader header)
  | file {j : CookieJar} (c : Cookie) (h : Built j) : Built (j.file c)
  | change {j changed : CookieJar} (call : CookieCall) (h : Built j)
      (hc : j.run call = .change (.ok changed)) : Built changed

/-- Every cookie is filed under its own name. -/
def Keyed (j : CookieJar) : Prop := ∀ name c, j.get? name = some c → c.name = name

section Keyed

variable {j : CookieJar}

theorem keyed_file (h : j.Keyed) (c : Cookie) : (j.file c).Keyed := by
  intro name x hx
  rw [get?_file] at hx
  split at hx
  · next same => cases hx; exact same.symm
  · exact h name x hx

theorem keyed_foldl_file (h : j.Keyed) (l : List Cookie) : (l.foldl file j).Keyed := by
  induction l generalizing j with
  | nil => exact h
  | cons c rest ih => exact ih (keyed_file h c)

theorem keyed_erase (h : j.Keyed) (name : String) :
    Keyed { j with cookies := j.cookies.erase name } :=
  fun other c hc => h other c (NameMap.found_erase hc)

theorem ifWritable_ok {changed j' : CookieJar} (h : j.ifWritable changed = .ok j') :
    j' = changed := by
  unfold ifWritable at h
  split at h
  · cases h
  · cases h; rfl

theorem Built.keyed (h : j.Built) : j.Keyed := by
  induction h with
  | empty | sealed => intro _ _ h; cases h
  | ofHeader header => exact keyed_foldl_file (fun _ _ h => by cases h) _
  | file c _ ih => exact keyed_file ih c
  | change call _ hc ih =>
    cases call with
    | set c => rw [ifWritable_ok (Effect.change.inj hc)]; exact keyed_file ih c
    | delete name => rw [ifWritable_ok (Effect.change.inj hc)]; exact keyed_erase ih name
    | clear => rw [ifWritable_ok (Effect.change.inj hc)]; intro _ _ h; cases h
    | _ => cases hc

theorem mem_toList (h : j.Keyed) {c : Cookie} : c ∈ j.toList ↔ j.get? c.name = some c := by
  unfold toList NameMap.values
  rw [List.mem_map]
  constructor
  · rintro ⟨⟨name, x⟩, hx, rfl⟩
    have hfound : j.get? name = some x := NameMap.mem_entries.mp hx
    rwa [h name x hfound]
  · intro hc
    exact ⟨(c.name, c), NameMap.mem_entries.mpr hc, rfl⟩

end Keyed

/-! ## The last cookie of a name -/

theorem get?_foldl_file (l : List Cookie) (j : CookieJar) (name : String) :
    (l.foldl file j).get? name = (l.filter (·.name = name)).getLast?.or (j.get? name) := by
  induction l generalizing j with
  | nil => rfl
  | cons c rest ih =>
    rw [List.foldl_cons, ih, get?_file, List.filter_cons]
    by_cases hc : c.name = name
    · rw [if_pos hc.symm, if_pos (decide_eq_true hc), List.getLast?_cons]
      cases (rest.filter (·.name = name)).getLast? <;> rfl
    · rw [if_neg (Ne.symm hc), if_neg (by simpa using hc)]

theorem get?_ofHeader (header name : String) :
    (ofHeader header).get? name = ((pairs header.toList).filter (·.name = name)).getLast? := by
  rw [ofHeader, get?_foldl_file]
  exact Option.or_none

theorem getLast?_of_unique {α : Type} {l : List α} {a : α} (ha : a ∈ l) (h : ∀ x ∈ l, x = a) :
    l.getLast? = some a := by
  have hne := List.ne_nil_of_mem ha
  rw [List.getLast?_eq_some_getLast hne, h _ (List.getLast_mem hne)]

theorem getLast?_toList {j : CookieJar} (h : j.Keyed) (name : String) :
    (j.toList.filter (·.name = name)).getLast? = j.get? name := by
  have hmem (c : Cookie) : c ∈ j.toList.filter (·.name = name) ↔ j.get? name = some c := by
    rw [List.mem_filter, mem_toList h, decide_eq_true_eq]
    constructor
    · rintro ⟨hc, rfl⟩; exact hc
    · intro hc; exact ⟨by rwa [h name c hc], h name c hc⟩
  cases hj : j.get? name with
  | none =>
    rw [List.getLast?_eq_none_iff, List.eq_nil_iff_forall_not_mem]
    intro c hc
    rw [hmem, hj] at hc
    cases hc
  | some c =>
    refine getLast?_of_unique ((hmem c).mpr hj) fun x hx => ?_
    rw [hmem, hj] at hx
    exact (Option.some.inj hx).symm

/-! ## Writing a jar -/

theorem pairs_append (a b : List Char) : pairs (a ++ ';' :: b) = pairs a ++ pairs b := by
  rw [pairs, Text.pieces_append, List.filterMap_append, pairs, pairs]

theorem pair?_blank (piece : List Char) : pair? (' ' :: piece) = pair? piece := by
  have hcut : Text.cut? '=' (' ' :: piece) =
      (Text.cut? '=' piece).map fun p => (' ' :: p.1, p.2) := rfl
  unfold pair?
  rw [hcut]
  cases Text.cut? '=' piece with
  | none => rfl
  | some p =>
    have htrim : Text.trim (' ' :: p.1) = Text.trim p.1 := Text.trim_cons rfl p.1
    simp only [Option.map_some, htrim]

theorem pairs_blank (header : List Char) : pairs (' ' :: header) = pairs header := by
  have hne : ' ' ≠ ';' := by decide
  obtain ⟨p, ps, hp, hblank⟩ := Text.pieces_cons hne header
  rw [pairs, pairs, hp, hblank, List.filterMap_cons, List.filterMap_cons, pair?_blank]

theorem pairs_join (headers : List String) :
    pairs (Text.join "; " headers).toList = headers.flatMap fun header => pairs header.toList := by
  induction headers with
  | nil => rfl
  | cons header rest ih =>
    cases rest with
    | nil => simp [Text.join]
    | cons next rest =>
      have hchars : (Text.join "; " (header :: next :: rest)).toList =
          header.toList ++ ';' :: ' ' :: (Text.join "; " (next :: rest)).toList := by
        simp [Text.join]
      rw [hchars, pairs_append, pairs_blank, ih]
      rfl

theorem pairs_of_plain {l : List Cookie} (h : ∀ c ∈ l, c.IsPlain) :
    pairs (Text.join "; " (l.map Cookie.render)).toList = l.map Cookie.bare := by
  have hpairs (c : Cookie) (hc : c ∈ l) : pairs c.render.toList = [c.bare] :=
    pairs_render (h c hc).1 (h c hc).2
  rw [pairs_join, List.flatMap_map, List.flatMap_def, List.map_congr_left hpairs,
    ← List.flatMap_def, List.map_eq_flatMap]

theorem get?_of_render {j : CookieJar} (hk : j.Keyed) (h : ∀ c ∈ j.toList, c.IsPlain)
    (name : String) : (ofHeader j.render).get? name = (j.get? name).map Cookie.bare := by
  rw [get?_ofHeader, render, pairs_of_plain h, List.filter_map, List.getLast?_map]
  exact congrArg (Option.map Cookie.bare) (getLast?_toList hk name)

/-! ## Reading a header -/

/-- What a piece of a header gives as the value of a name: the trimmed text after its first equals
sign, if the text before it is the name when it is trimmed. -/
def valueIn? (name : String) (piece : List Char) : Option String :=
  match Text.cut? '=' piece with
  | some (before, after) =>
    if Text.trim before = name.toList then some (String.ofList (Text.trim after)) else none
  | none => none

theorem value_pair? {name : String} (hname : name ≠ "") (piece : List Char) :
    ((pair? piece).filter (·.name = name)).map (·.value) = valueIn? name piece := by
  unfold pair? valueIn?
  cases Text.cut? '=' piece with
  | none => rfl
  | some p =>
    cases ht : Text.trim p.1 with
    | nil =>
      have hne : ¬ [] = name.toList := fun h => hname (String.toList_eq_nil_iff.mp h.symm)
      simp [ht, hne]
    | cons x before =>
      by_cases hx : String.ofList (x :: before) = name
      · subst hx
        simp only [ht, String.toList_ofList, Option.filter_some, decide_true, if_true,
          Option.map_some]
      · have hne : x :: before ≠ name.toList := fun h => hx (by rw [h, String.ofList_toList])
        simp only [ht, if_neg hne, Option.filter_some, decide_eq_false hx, Bool.false_eq_true,
          if_false, Option.map_none]

theorem plain_of_pair? {piece : List Char} {c : Cookie} (hc : pair? piece = some c)
    (hp : ';' ∉ piece) : c.IsPlain ∧ c.bare = c := by
  have hvalue := value_of_pair? hc hp
  obtain ⟨name, value, rfl, heq, hne, rfl⟩ := of_pair? hc
  refine ⟨⟨?_, hvalue⟩, rfl⟩
  rw [String.toList_ofList, Cookie.isPlainName_iff, Cookie.isPlainValue_iff]
  refine ⟨⟨fun h => hp ?_, Text.isBare_trim name⟩, fun h => heq (Text.mem_of_mem_trim h), hne⟩
  exact List.mem_append_left _ (Text.mem_of_mem_trim h)

/-- What a header gives is what a header brings back. -/
theorem plain_of_ofHeader {header name : String} {c : Cookie}
    (h : (ofHeader header).get? name = some c) : c.IsPlain ∧ c.bare = c := by
  rcases mem_of_foldl_file h with hmem | hsealed
  · obtain ⟨piece, hpiece, hc⟩ := List.mem_filterMap.mp hmem
    exact plain_of_pair? hc (Text.not_mem_of_mem_pieces hpiece)
  · cases hsealed

theorem value_of_ofHeader_last {name : String} (hname : name ≠ "") (header : String) :
    ((ofHeader header).get? name).map (·.value) =
      ((Text.pieces ';' header.toList).filterMap (valueIn? name)).getLast? := by
  rw [get?_ofHeader, ← List.getLast?_map, pairs, List.filter_filterMap, List.map_filterMap]
  have hpieces : (fun piece => ((pair? piece).filter (·.name = name)).map (·.value)) =
      valueIn? name := funext (value_pair? hname)
  rw [hpieces]

theorem not_found_of_no_name (header : String) : (ofHeader header).get? "" = none := by
  cases h : (ofHeader header).get? "" with
  | none => rfl
  | some c =>
    have hkeyed : c.name = "" := (Built.ofHeader header).keyed "" c h
    have hplain := (plain_of_ofHeader h).1.1
    rw [hkeyed] at hplain
    exact absurd hplain (by decide)

/-! ## There and back -/

theorem ext_get? {j k : CookieJar} (hc : ∀ name, j.get? name = k.get? name)
    (hr : j.readonly = k.readonly) : j = k := by
  obtain ⟨cookies, readonly⟩ := j
  obtain ⟨others, _⟩ := k
  have hcookies : cookies = others := NameMap.ext hc
  cases hcookies
  cases hr
  rfl

theorem ofHeader_again (header : String) : ofHeader (ofHeader header).render = ofHeader header := by
  have hkeyed := (Built.ofHeader header).keyed
  have hplain (c : Cookie) (hc : c ∈ (ofHeader header).toList) : c.IsPlain :=
    (plain_of_ofHeader ((mem_toList hkeyed).mp hc)).1
  refine ext_get? (fun name => ?_) ?_
  · rw [get?_of_render hkeyed hplain]
    cases hc : (ofHeader header).get? name with
    | none => rfl
    | some c => rw [Option.map_some, (plain_of_ofHeader hc).2]
  · rw [readonly_ofHeader, readonly_ofHeader]

/-- What was read from a header is written and read again without a change. A jar is read back with
its names and values, whatever its attributes, if all its cookies can stand in a header. Those that
are read from a header can, and the value of a name is the one that stands last. -/
theorem header_brings_back :
    (∀ header, ofHeader (ofHeader header).render = ofHeader header) ∧
    (∀ j : CookieJar, j.Built → (∀ c ∈ j.toList, c.IsPlain) →
      ∀ name, (ofHeader j.render).get? name = (j.get? name).map Cookie.bare) ∧
    (∀ header name c, (ofHeader header).get? name = some c →
      c.name = name ∧ c.IsPlain ∧ c.bare = c) ∧
    ∀ header name, ((ofHeader header).get? name).map (·.value) =
      if name = "" then none
      else ((Text.pieces ';' header.toList).filterMap (valueIn? name)).getLast? := by
  refine ⟨fun header => ?_, fun j hj h => get?_of_render hj.keyed h, fun header name c hc => ?_,
    fun header name => ?_⟩
  · exact ofHeader_again header
  · exact ⟨(Built.ofHeader header).keyed name c hc, plain_of_ofHeader hc⟩
  · split
    · next hname =>
      rw [hname, not_found_of_no_name]
      rfl
    · next hname => exact value_of_ofHeader_last hname header

/-- A value may hold an equals sign, and it may be empty. -/
theorem header_brings_back_two_cookies :
    let j := (CookieJar.empty.file { name := "b", value := "2=3", path := some "/" }).file
      { name := "a", value := "", httpOnly := true }
    j.Built ∧ (∀ c ∈ j.toList, c.IsPlain) ∧ j.render = "a=; b=2=3" ∧
      (ofHeader "a=; b=2=3").get? "b" = some { name := "b", value := "2=3" } := by
  intro j
  have hbuilt : j.Built := (Built.empty.file _).file _
  have hplain : ∀ c ∈ j.toList, c.IsPlain := by
    unfold Cookie.IsPlain
    decide +kernel
  have hrender : j.render = "a=; b=2=3" := by decide +kernel
  refine ⟨hbuilt, hplain, hrender, ?_⟩
  rw [← hrender, header_brings_back.2.1 j hbuilt hplain "b"]
  rfl

end CookieJar

end RequestAccess
