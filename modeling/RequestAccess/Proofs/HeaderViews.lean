import RequestAccess.Proofs.HeaderStore

/-!
# What headers show of their block

Every way of reading headers that hold a block shows the same ordered multi-map: the values of a
name that are visible text, in their order. The entries are in the order of the names, and headers
that are built from them have the same ones.
-/

namespace RequestAccess

namespace Entries

variable {α : Type}

theorem mem_iff_find? {l : List (String × α)} (hl : Sorted l) {name : String} {a : α} :
    (name, a) ∈ l ↔ find? name l = some a :=
  ⟨find?_of_mem hl, mem_of_find?⟩

theorem filter_name {l : List (String × α)} (hl : Sorted l) (name : String) :
    (l.filter (·.1 = name)).map (·.2) = (find? name l).toList := by
  induction l with
  | nil => rfl
  | cons e rest ih =>
    obtain ⟨below, tail⟩ := List.pairwise_cons.mp hl
    rw [find?]
    split
    · next same =>
      have hnone : rest.filter (·.1 = name) = [] := by
        refine List.filter_eq_nil_iff.mpr fun f hf => ?_
        have hne : f.1 ≠ name := fun eq => String.lt_irrefl f.1 (by
          have := below f hf
          rwa [← same, ← eq] at this)
        simpa using hne
      rw [List.filter_cons_of_pos (by simp [same]), hnone]
      rfl
    · next other => rw [List.filter_cons_of_neg (by simpa using Ne.symm other), ih tail]

end Entries

/-! ## Text that can be seen -/

namespace HeaderValue

theorem isVisibleText_append (s t : String) :
    isVisibleText (s ++ t) = (isVisibleText s && isVisibleText t) := by
  simp [isVisibleText]

theorem isVisibleText_join {texts : List String} (h : ∀ t ∈ texts, isVisibleText t = true) :
    isVisibleText (Text.join ", " texts) = true := by
  induction texts with
  | nil => rfl
  | cons s rest ih =>
    obtain ⟨hs, hrest⟩ := List.forall_mem_cons.mp h
    cases rest with
    | nil => exact hs
    | cons t rest =>
      rw [Text.join, isVisibleText_append, isVisibleText_append, hs, ih hrest]
      decide +kernel

theorem ofString?_visible {s : String} (h : isVisibleText s = true) :
    ofString? s = some (.readable s) := by
  have hallowed : (s.toList.all fun c => isAllowed c.toNat) = true := by
    refine List.all_eq_true.mpr fun c hc => ?_
    have hvisible := List.all_eq_true.mp h c hc
    simp only [isVisible, isAllowed, Bool.or_eq_true, Bool.and_eq_true, decide_eq_true_eq,
      beq_iff_eq, bne_iff_ne] at hvisible ⊢
    omega
  rw [ofString?, if_pos hallowed]
  exact congrArg some (if_pos h)

end HeaderValue

theorem HeaderLine.isVisibleText_of_text? {l : HeaderLine} {t : String} (h : l.text? = some t) :
    HeaderValue.isVisibleText t = true := by
  simp only [text?, Option.ite_none_right_eq_some, Option.some.injEq] at h
  obtain ⟨hbytes, rfl⟩ := h
  rw [HeaderValue.isVisibleText, String.toList_ofList, List.all_map]
  refine List.all_eq_true.mpr fun b hb => ?_
  have hvisible := List.all_eq_true.mp hbytes b hb
  have hlt := HeaderValue.isVisible_lt hvisible
  have hcode : (Char.ofNat b).toNat = b := by
    rw [Char.ofNat, dif_pos (.inl (by omega))]
    rfl
  rwa [Function.comp_apply, hcode]

theorem HeaderLine.ofTexts?_visible {name text : String} (hname : headerName? name = some name)
    (htext : HeaderValue.isVisibleText text = true) :
    ∃ l, ofTexts? name text = some l ∧ l.name = name ∧ l.text? = some text := by
  cases hl : ofTexts? name text with
  | none =>
    rcases ofTexts?_eq_none.mp hl with h | h
    · rw [hname] at h; cases h
    · rw [HeaderValue.ofString?_visible htext] at h; cases h
  | some l =>
    refine ⟨l, rfl, ?_, ?_⟩
    · rw [name_ofTexts? hl, ← headerName?_eq_some hname]
    · rw [text?_ofTexts? hl, if_pos htext]

theorem HeaderBlock.isVisibleText_of_texts {b : HeaderBlock} {name t : String}
    (h : t ∈ b.texts name) : HeaderValue.isVisibleText t = true := by
  obtain ⟨l, -, hl⟩ := List.mem_filterMap.mp h
  exact l.isVisibleText_of_text? hl

/-! ## Names of a block -/

namespace HeaderBlock

variable {b : HeaderBlock} {name key : String}

theorem isName_of_texts (h : b.texts name ≠ []) : headerName? name = some name.toLower := by
  cases hname : headerName? name with
  | none => rw [texts, named_of_no_name hname] at h; exact absurd rfl h
  | some key => rw [headerName?_eq_some hname]

theorem combined?_eq_some {text : String} : b.combined? name = some text ↔
    b.texts name ≠ [] ∧ Text.join ", " (b.texts name) = text := by
  simp [combined?]

theorem texts_of_name (h : headerName? name = some key) : b.texts key = b.texts name := by
  have hkey := headerName?_eq_some (headerName?_of_some h)
  rw [texts, named, ← hkey, headerName?_eq_some h]
  rfl

theorem isVisibleText_of_combined {text : String} (h : b.combined? name = some text) :
    HeaderValue.isVisibleText text = true := by
  obtain ⟨-, rfl⟩ := combined?_eq_some.mp h
  exact HeaderValue.isVisibleText_join fun t => isVisibleText_of_texts

theorem texts_of_pairs {pairs : List (String × String)}
    (h : ∀ p ∈ pairs, headerName? p.1 = some p.1 ∧ HeaderValue.isVisibleText p.2 = true)
    (name : String) :
    texts (ofPairs pairs) name = (pairs.filter (·.1 = name.toLower)).map (·.2) := by
  induction pairs with
  | nil => rfl
  | cons p rest ih =>
    obtain ⟨⟨hname, htext⟩, hrest⟩ := List.forall_mem_cons.mp h
    obtain ⟨l, hl, hlname, hltext⟩ := HeaderLine.ofTexts?_visible hname htext
    have ih := ih hrest
    simp only [texts, named] at ih ⊢
    rw [ofPairs_cons, hl, Option.toList_some, List.singleton_append, List.filter_cons,
      List.filter_cons, hlname]
    split
    · rw [List.filterMap_cons_some hltext, ih, List.map_cons]
    · exact ih

theorem combined?_of_pairs {pairs : List (String × String)} (hs : Entries.Sorted pairs)
    (h : ∀ p ∈ pairs, headerName? p.1 = some p.1 ∧ HeaderValue.isVisibleText p.2 = true)
    (name : String) : combined? (ofPairs pairs) name = Entries.find? name.toLower pairs := by
  rw [combined?, texts_of_pairs h, Entries.filter_name hs]
  cases Entries.find? name.toLower pairs <;> rfl

end HeaderBlock

/-! ## Every way of reading -/

namespace Headers

/-- The headers show the block, whichever way they are read. -/
structure Reads (h : Headers) (b : HeaderBlock) : Prop where
  get (name : String) : h.get? name = b.combined? name
  setCookies : h.setCookies = b.texts "set-cookie"
  sorted : Entries.Sorted h.entries
  /-- Each name that has a visible value, in lower case. -/
  entry (name text : String) :
    (name, text) ∈ h.entries ↔ name.toLower = name ∧ b.combined? name = some text
  names : h.names = h.entries.map (·.1)
  values : h.values = h.entries.map (·.2)
  /-- Headers can be built from the entries, and have them again. -/
  again : ∃ h', ofPairs h.entries = .ok h' ∧ h'.entries = h.entries

variable {h : Headers} {b : HeaderBlock}

theorem combined?_eq (values : List HeaderValue) : combined? values =
    if values.filterMap HeaderValue.text? = [] then none
    else some (Text.join ", " (values.filterMap HeaderValue.text?)) := by
  unfold combined?
  cases values.filterMap HeaderValue.text? <;> rfl

theorem sorted_entries (h : Headers) : Entries.Sorted h.entries := by
  refine h.lines.sorted.filterMap _ fun e f below x hx y hy => ?_
  obtain ⟨_, -, rfl⟩ := Option.map_eq_some_iff.mp hx
  obtain ⟨_, -, rfl⟩ := Option.map_eq_some_iff.mp hy
  exact below

theorem mem_entries {name text : String} :
    (name, text) ∈ h.entries ↔ combined? (h.valuesOf name) = some text := by
  have hentry : (name, text) ∈ h.entries ↔
      ∃ values, h.lines.get? name = some values ∧ combined? values = some text := by
    simp only [entries, List.mem_filterMap, Option.map_eq_some_iff, Prod.mk.injEq,
      ← NameMap.mem_entries]
    constructor
    · rintro ⟨⟨_, values⟩, hmem, _, htext, rfl, rfl⟩
      exact ⟨values, hmem, htext⟩
    · rintro ⟨values, hmem, htext⟩
      exact ⟨(name, values), hmem, text, htext, rfl, rfl⟩
  rw [hentry, valuesOf]
  cases h.lines.get? name with
  | none => simp [combined?]
  | some values => simp

namespace Holds

theorem combined? (hb : h.Holds b) {name : String} (hname : headerName? name = some name) :
    Headers.combined? (h.valuesOf name) = b.combined? name := by
  rw [combined?_eq, hb.texts hname]
  rfl

theorem get? (hb : h.Holds b) (name : String) : h.get? name = b.combined? name := by
  unfold Headers.get?
  cases hname : headerName? name with
  | none =>
    rw [HeaderBlock.combined?, HeaderBlock.texts, HeaderBlock.named_of_no_name hname]
    rfl
  | some key =>
    change Headers.combined? (h.valuesOf key) = _
    rw [hb.combined? (headerName?_of_some hname), HeaderBlock.combined?,
      HeaderBlock.texts_of_name hname]
    rfl

theorem isName (hb : h.Holds b) {name : String} (hne : h.valuesOf name ≠ []) :
    headerName? name = some name := by
  rw [hb.values, Ne, List.map_eq_nil_iff] at hne
  obtain ⟨l, hl⟩ := List.exists_mem_of_ne_nil _ hne
  obtain rfl : l.name = name := of_decide_eq_true (List.mem_filter.mp hl).2
  exact l.isName

theorem entry (hb : h.Holds b) (name text : String) :
    (name, text) ∈ h.entries ↔ name.toLower = name ∧ b.combined? name = some text := by
  rw [mem_entries]
  constructor
  · intro htext
    have hne : h.valuesOf name ≠ [] := fun hnil => by rw [hnil] at htext; cases htext
    have hname := hb.isName hne
    exact ⟨(headerName?_eq_some hname).symm, by rwa [← hb.combined? hname]⟩
  · rintro ⟨hlower, htext⟩
    have hname := HeaderBlock.isName_of_texts (HeaderBlock.combined?_eq_some.mp htext).1
    rw [hlower] at hname
    rwa [hb.combined? hname]

/-- Entries are lines, and the block of these lines shows the entries. -/
theorem again (hb : h.Holds b) : ∃ h', ofPairs h.entries = .ok h' ∧ h'.entries = h.entries := by
  have hline : ∀ p ∈ h.entries,
      headerName? p.1 = some p.1 ∧ HeaderValue.isVisibleText p.2 = true := by
    rintro ⟨name, text⟩ hp
    obtain ⟨hlower, htext⟩ := (hb.entry name text).mp hp
    have hname := HeaderBlock.isName_of_texts (HeaderBlock.combined?_eq_some.mp htext).1
    exact ⟨by rw [hname, hlower], HeaderBlock.isVisibleText_of_combined htext⟩
  have hread : h.entries.find? (fun p => (HeaderLine.ofTexts? p.1 p.2).isNone) = none := by
    refine List.find?_eq_none.mpr fun p hp => ?_
    obtain ⟨l, hl, -⟩ := HeaderLine.ofTexts?_visible (hline p hp).1 (hline p hp).2
    simp [hl]
  refine ⟨_, by rw [ofPairs_eq, hread], ?_⟩
  have hs := sorted_entries h
  refine Entries.ext_find? (sorted_entries _) hs fun name => Option.ext fun text => ?_
  rw [← Entries.mem_iff_find? (sorted_entries _), ← Entries.mem_iff_find? hs,
    (holds_ofBlock _).entry, HeaderBlock.combined?_of_pairs hs hline]
  constructor
  · rintro ⟨hlower, htext⟩
    rw [hlower] at htext
    exact (Entries.mem_iff_find? hs).mpr htext
  · intro hmem
    have hlower := ((hb.entry name text).mp hmem).1
    rw [hlower]
    exact ⟨rfl, (Entries.mem_iff_find? hs).mp hmem⟩

theorem reads (hb : h.Holds b) : h.Reads b where
  get := hb.get?
  setCookies := hb.texts (by decide +kernel)
  sorted := sorted_entries h
  entry := hb.entry
  names := rfl
  values := rfl
  again := hb.again

end Holds

/-! ## Building from pairs -/

theorem ofPairs_error {pairs : List (String × String)} {e : StoreError} :
    ofPairs pairs = .error e ↔ ∃ earlier p later, pairs = earlier ++ p :: later ∧
      (∀ q ∈ earlier, HeaderLine.ofTexts? q.1 q.2 ≠ none) ∧
      HeaderLine.ofTexts? p.1 p.2 = none ∧ e = fault p.1 p.2 := by
  have hfind : ofPairs pairs = .error e ↔ ∃ p,
      pairs.find? (fun p => (HeaderLine.ofTexts? p.1 p.2).isNone) = some p ∧ e = fault p.1 p.2 := by
    rw [ofPairs_eq]
    cases pairs.find? fun p => (HeaderLine.ofTexts? p.1 p.2).isNone with
    | none => simp
    | some p => simp [eq_comm]
  simp only [hfind, List.find?_eq_some_iff_append, Option.isNone_iff_eq_none, Bool.not_eq_true',
    Option.isNone_eq_false_iff, ← Option.ne_none_iff_isSome]
  constructor
  · rintro ⟨p, ⟨hnone, earlier, later, rfl, hearlier⟩, rfl⟩
    exact ⟨earlier, p, later, rfl, hearlier, hnone, rfl⟩
  · rintro ⟨earlier, p, later, rfl, hearlier, hnone, rfl⟩
    exact ⟨p, ⟨hnone, earlier, later, rfl, hearlier⟩, rfl⟩

theorem ofPairs_fails_iff (pairs : List (String × String)) :
    (∃ e, ofPairs pairs = .error e) ↔ ∃ p ∈ pairs, HeaderLine.ofTexts? p.1 p.2 = none := by
  rw [ofPairs_eq]
  cases hp : pairs.find? fun p => (HeaderLine.ofTexts? p.1 p.2).isNone with
  | none => simpa using hp
  | some p =>
    simp only [Except.error.injEq, exists_eq', true_iff]
    exact ⟨p, List.mem_of_find?_eq_some hp, by simpa using List.find?_some hp⟩

end Headers

/-- Headers show the block that was made and called like them, in a world and on their own. Pairs
are refused for the first of them that is no line, by its name if that is no name and else by its
value. A call that is refused changes nothing, and sealed headers refuse every change, whatever
name and value it has. -/
theorem headers_refine_block :
    (∀ (o : HeaderOrigin) (start : Headers), o.headers = .ok start → ∀ calls,
      (start.after calls).Reads (o.after calls) ∧ (start.after calls).isSealed = o.isSealed) ∧
    (∀ (w : World) (key : Key .headers) (calls : List HeaderCall),
      (calls.foldl (fun w c => (w.callHeaders (.shared key) c).1) w).headers.get key =
        (w.headers.get key).after calls) ∧
    (∀ pairs, (∃ e, Headers.ofPairs pairs = .error e) ↔
      ∃ p ∈ pairs, HeaderLine.ofTexts? p.1 p.2 = none) ∧
    (∀ pairs e, Headers.ofPairs pairs = .error e ↔ ∃ earlier p later,
      pairs = earlier ++ p :: later ∧ (∀ q ∈ earlier, HeaderLine.ofTexts? q.1 q.2 ≠ none) ∧
      HeaderLine.ofTexts? p.1 p.2 = none ∧
      e = .invalidHeader (if headerName? p.1 = none then p.1 else p.2)) ∧
    (∀ (w : World) source c e, (w.callHeaders source c).2 = .error e →
      (w.callHeaders source c).1 = w) ∧
    ∀ (w : World) source, (w.headersOf source).isSealed = true → ∀ c, c.isChange = true →
      w.callHeaders source c = (w, .error .readonlyHeaders) := by
  refine ⟨fun o start h calls => ?_, World.headers_after, Headers.ofPairs_fails_iff,
    fun _ _ => Headers.ofPairs_error, fun _ _ _ _ => World.callHeaders_refused,
    fun w source hs c hc => ?_⟩
  · obtain ⟨hholds, hsealed⟩ := HeaderOrigin.holds_after h calls
    exact ⟨hholds.reads, hsealed⟩
  · obtain ⟨hsame, hrefused⟩ := World.callHeaders_sealed hs c
    exact Prod.ext hsame (hrefused hc)

/-- Two names in several letter cases, and calls that are refused. -/
theorem headers_refine_block_of_two_names :
    let calls : List HeaderCall :=
      [.append "Accept" "text/html", .set "X-B" "2", .append "ACCEPT" "*/*", .set "x b" "3"]
    HeaderBlock.combined? (HeaderOrigin.empty.after calls) "aCCEPT" = some "text/html, */*" ∧
      (({} : World).callHeaders .blank (.set "x b" "3")).2 = .error .readonlyHeaders ∧
      (({} : World).callHeaders .blank (.delete "x")).1 = {} := by
  intro calls
  obtain ⟨reads, -, -, -, refused, unchanged⟩ := headers_refine_block
  have hget := (reads .empty .empty rfl calls).1.get "aCCEPT"
  refine ⟨?_, ?_, refused {} .blank (.delete "x") .readonlyHeaders rfl⟩
  · rw [← hget]
    decide +kernel
  · rw [unchanged {} .blank rfl (.set "x b" "3") rfl]

end RequestAccess
