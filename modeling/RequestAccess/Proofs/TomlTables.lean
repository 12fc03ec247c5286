import RequestAccess.Toml.Tables

/-!
# Tables of a document

A document with new names only is what is added to it. A text that stands under headers stays as it
is, whatever else is added to the document: no key is given a second value, and a table with a
header of its own gets no second one.
-/

namespace RequestAccess.Toml

/-! ## Look-ups -/

variable {name key : String} {v : Toml} {ms ms' : Members}

theorem find?_cons (name : String) (m : String × Toml) (ms : Members) :
    find? name (m :: ms) = if m.1 = name then some m.2 else find? name ms := by
  by_cases h : m.1 = name <;> simp [find?, h]

theorem find?_append (h : find? name ms = some v) (more : Members) :
    find? name (ms ++ more) = some v := by
  obtain ⟨m, hm, rfl⟩ := Option.map_eq_some_iff.mp h
  simp [find?, List.find?_append, hm]

theorem find?_append_new (h : find? name ms = none) (v : Toml) :
    find? name (ms ++ [(name, v)]) = some v := by
  simp only [find?, Option.map_eq_none_iff] at h
  simp [find?, List.find?_append, h]

theorem find?_replace (name key : String) (v : Toml) (ms : Members) :
    find? name (replace key v ms) =
      if name = key then (find? key ms).map fun _ => v else find? name ms := by
  induction ms with
  | nil => simp [find?, replace]
  | cons m ms ih =>
    rw [replace, List.map_cons, ← replace, find?_cons, ih, find?_cons, find?_cons]
    grind

theorem find?_supersede (name key : String) (v : Toml) (ms : Members) :
    find? name (ms.filter (·.1 ≠ key) ++ [(key, v)]) =
      if name = key then some v else find? name ms := by
  induction ms with
  | nil => grind [find?_cons, find?]
  | cons m ms ih =>
    by_cases hm : m.1 = key
    · rw [List.filter_cons_of_neg (by simpa using hm), ih, find?_cons]
      grind
    · rw [List.filter_cons_of_pos (by simpa using hm), List.cons_append, find?_cons, ih, find?_cons]
      grind

theorem find?_eq_none : find? name ms = none ↔ name ∉ ms.map (·.1) := by
  simp only [find?, Option.map_eq_none_iff, List.find?_eq_none, decide_eq_true_iff, List.mem_map,
    not_exists, not_and]

theorem replace_last {ms : Members} (h : find? key ms = none) (v w : Toml) :
    replace key w (ms ++ [(key, v)]) = ms ++ [(key, w)] := by
  have hsame : ms.map (fun m => if m.1 = key then (key, w) else m) = ms := by
    refine (List.map_congr_left fun m hm => ?_).trans (List.map_id ms)
    rw [if_neg]
    · rfl
    · rintro rfl
      exact find?_eq_none.mp h (List.mem_map_of_mem hm)
  rw [replace, List.map_append, hsame]
  simp

/-! ## New names -/

def pairOf (m : String × Toml) : Pair := { path := [], key := m.1, value := m.2 }

theorem addPairs_new {more : Members} (h : ((ms ++ more).map (·.1)).Nodup) :
    addPairs .dotted .header ms (more.map pairOf) = some (ms ++ more) := by
  induction more generalizing ms with
  | nil => exact congrArg some (List.append_nil ms).symm
  | cons m more ih =>
    have hnew : find? m.1 ms = none := by
      rw [find?_eq_none]
      simp only [List.map_append, List.map_cons, List.nodup_append] at h
      exact fun hm => h.2.2 _ hm _ List.mem_cons_self rfl
    have hadd : addPair .dotted .header ms (pairOf m) = some (ms ++ [m]) := by
      simp [addPair, within, pairOf, isDotted, hnew]
    have hrest := @ih (ms ++ [m]) (by rwa [List.append_assoc])
    rw [List.append_assoc] at hrest
    rw [List.map_cons, addPairs, List.foldlM_cons, hadd]
    exact hrest

/-- A document with a hole at a path: what is done at the path is done to what fills the hole. -/
def IsHole (path : List String) (around : Members → Members) : Prop :=
  ∀ f inner, within .header path f .header (around inner) = (f .header inner).map around

theorem isHole_table {key : String} (h : find? key ms = none) :
    IsHole [key] fun inner => ms ++ [(key, .table .header inner)] := by
  intro f inner
  simp only [within, find?_append_new h, Route.header]
  cases f .header inner with
  | none => simp
  | some made => simp [replace_last h]

theorem addSections_new {path : List String} {around : Members → Members} (h : IsHole path around)
    {inner : Members} {sections : List (String × Members)}
    (hnodup : (inner.map (·.1) ++ sections.map (·.1)).Nodup)
    (hsections : ∀ s ∈ sections, (s.2.map (·.1)).Nodup) :
    (sections.map fun s => Section.mk false path s.1 (s.2.map pairOf)).foldlM addSection
        (around inner) =
      some (around (inner ++ sections.map fun s => (s.1, .table .header s.2))) := by
  induction sections generalizing inner with
  | nil => simp
  | cons s sections ih =>
    have hnew : find? s.1 inner = none := by
      rw [find?_eq_none]
      rw [List.map_cons, List.nodup_append] at hnodup
      exact fun hm => hnodup.2.2 _ hm _ List.mem_cons_self rfl
    have hpairs : addPairs .dotted .header [] (s.2.map pairOf) = some s.2 :=
      addPairs_new (hsections s List.mem_cons_self)
    have hadd : addSection (around inner) (Section.mk false path s.1 (s.2.map pairOf)) =
        some (around (inner ++ [(s.1, .table .header s.2)])) := by
      rw [addSection, h]
      simp [Section.addTo, hnew, Section.table?, hpairs]
    have hrest := @ih (inner ++ [(s.1, .table .header s.2)])
      (by simpa using hnodup) fun t ht => hsections t (List.mem_cons_of_mem s ht)
    rw [List.append_assoc] at hrest
    rw [List.map_cons, List.foldlM_cons, hadd]
    exact hrest

/-! ## Texts -/

/-- The text under a key, in the tables that headers lead to. -/
def textAt : List String → Toml → Option String
  | [], .text t => some t
  | name :: path, .table .header ms => (find? name ms).bind (textAt path)
  | _, _ => none

theorem textAt_cons {path : List String} {t : String} (h : textAt (name :: path) v = some t) :
    ∃ ms w, v = .table .header ms ∧ find? name ms = some w ∧ textAt path w = some t := by
  unfold textAt at h
  split at h
  · next hnil => cases hnil
  · next hcons =>
    cases hcons
    obtain ⟨w, hw, ht⟩ := Option.bind_eq_some_iff.mp h
    exact ⟨_, w, rfl, hw, ht⟩
  · cases h

theorem textAt_nil {t : String} (h : textAt [] v = some t) : v = .text t := by
  unfold textAt at h
  split at h
  · cases h
    rfl
  · next hcons => cases hcons
  · cases h

/-- Each text that stands in the one value stands in the other. -/
def Keeps (v v' : Toml) : Prop := ∀ path t, textAt path v = some t → textAt path v' = some t

namespace Keeps

variable {u v w : Toml}

theorem refl (v : Toml) : Keeps v v := fun _ _ h => h

theorem trans (h : Keeps u v) (h' : Keeps v w) : Keeps u w :=
  fun path t ht => h' path t (h path t ht)

theorem tables (items : List Toml) (v : Toml) : Keeps (.tables items) v := by
  -- No path leads into an array of tables, or below into a table without a header.
  intro path t ht
  cases path <;> cases ht

theorem unheaded (ms : Members) (v : Toml) : Keeps (.table .implied ms) v := by
  intro path t ht
  cases path <;> cases ht

theorem table (h : Keeps (.table .header ms) (.table .header ms')) (style : TableStyle) :
    Keeps (.table style ms) (.table style ms') := by
  intro path t ht
  cases style with
  | header => exact h path t ht
  | _ => cases path <;> cases ht

theorem of_find
    (h : ∀ name v, find? name ms = some v → ∃ v', find? name ms' = some v' ∧ Keeps v v') :
    Keeps (.table .header ms) (.table .header ms') := by
  intro path t ht
  cases path with
  | nil => cases ht
  | cons name path =>
    obtain ⟨v, hv, hvt⟩ := Option.bind_eq_some_iff.mp ht
    obtain ⟨v', hv', hkeeps⟩ := h name v hv
    exact Option.bind_eq_some_iff.mpr ⟨v', hv', hkeeps path t hvt⟩

theorem append (ms more : Members) : Keeps (.table .header ms) (.table .header (ms ++ more)) :=
  of_find fun _ v hv => ⟨v, find?_append hv more, .refl v⟩

theorem replace {name : String} {v v' : Toml} (hv : find? name ms = some v) (h : Keeps v v') :
    Keeps (.table .header ms) (.table .header (replace name v' ms)) := by
  refine of_find fun n u hu => ?_
  rw [find?_replace]
  by_cases hn : n = name
  · subst hn
    cases hv.symm.trans hu
    exact ⟨v', by simp [hv], h⟩
  · exact ⟨u, by rw [if_neg hn]; exact hu, .refl u⟩

theorem foldlM {α : Type} {f : Members → α → Option Members}
    (hf : ∀ {ms ms'} a, f ms a = some ms' → Keeps (.table .header ms) (.table .header ms'))
    {l : List α} (h : l.foldlM f ms = some ms') :
    Keeps (.table .header ms) (.table .header ms') := by
  induction l generalizing ms with
  | nil =>
    cases h
    exact .refl _
  | cons a l ih =>
    obtain ⟨ms₁, hfirst, hrest⟩ := Option.bind_eq_some_iff.mp h
    exact (hf a hfirst).trans (ih hrest)

end Keeps

/-! ## Adding -/

theorem within_keeps {route : Route} {f : TableStyle → Members → Option Members}
    (hf : ∀ {style ms ms'}, f style ms = some ms' →
      Keeps (.table .header ms) (.table .header ms'))
    {path : List String} {style : TableStyle} (h : within route path f style ms = some ms') :
    Keeps (.table .header ms) (.table .header ms') := by
  induction path generalizing style ms ms' with
  | nil => exact hf h
  | cons name path ih =>
    unfold within at h
    split at h
    · obtain ⟨inner, -, rfl⟩ := Option.map_eq_some_iff.mp h
      exact .append ms _
    · next style inner hv =>
      split at h
      · obtain ⟨inner', hinner, rfl⟩ := Option.map_eq_some_iff.mp h
        exact .replace hv ((ih hinner).table style)
      · cases h
    · next items hv =>
      split at h
      · obtain ⟨inner', -, rfl⟩ := Option.map_eq_some_iff.mp h
        exact .replace hv (.tables items _)
      · cases h
    · cases h

theorem addPair_keeps {route : Route} {style : TableStyle} (p : Pair)
    (h : addPair route style ms p = some ms') :
    Keeps (.table .header ms) (.table .header ms') := by
  refine within_keeps (fun hf => ?_) h
  split at hf
  · cases hf
  · split at hf
    · cases hf
    · cases hf
      exact .append _ _

theorem addPairs_keeps {route : Route} {style : TableStyle} {pairs : List Pair}
    (h : addPairs route style ms pairs = some ms') :
    Keeps (.table .header ms) (.table .header ms') :=
  .foldlM (fun p => addPair_keeps p) h

theorem Section.addTo_keeps {s : Section} (h : s.addTo ms = some ms') :
    Keeps (.table .header ms) (.table .header ms') := by
  unfold addTo at h
  split at h
  · split at h
    · cases h
      exact .append ms _
    · next items made hv _ =>
      cases h
      exact .replace hv (.tables items _)
    · cases h
  · split at h
    · obtain ⟨made, -, rfl⟩ := Option.map_eq_some_iff.mp h
      exact .append ms _
    · next inner hv =>
      obtain ⟨made, -, rfl⟩ := Option.map_eq_some_iff.mp h
      refine .of_find fun name v hn => ?_
      rw [find?_supersede]
      by_cases hname : name = s.key
      · subst hname
        cases hv.symm.trans hn
        exact ⟨made, if_pos rfl, .unheaded inner made⟩
      · exact ⟨v, by rw [if_neg hname]; exact hn, .refl v⟩
    · cases h

theorem addSection_keeps (s : Section) (h : addSection ms s = some ms') :
    Keeps (.table .header ms) (.table .header ms') :=
  within_keeps (fun hf => s.addTo_keeps hf) h

/-- Sections that are added change no text. -/
theorem addSections_keep {sections : List Section} (h : sections.foldlM addSection ms = some ms') :
    Keeps (.table .header ms) (.table .header ms') :=
  .foldlM addSection_keeps h

/-! ## The first pair of a section -/

theorem textAt_addPair {route : Route} {style : TableStyle} {t : String}
    (h : addPair route style ms { path := [], key, value := .text t } = some ms') :
    textAt [key] (.table .header ms') = some t := by
  simp only [addPair, within] at h
  split at h
  · cases h
  · split at h
    · cases h
    · next hnew =>
      cases h
      rw [textAt, find?_append_new (by simpa using hnew)]
      rfl

variable {s : Section} {pairs : List Pair} {t : String}

theorem Section.textAt_table? (hs : s.pairs = { path := [], key, value := .text t } :: pairs)
    (h : s.table? ms = some v) : textAt [key] v = some t := by
  obtain ⟨ms', hms', rfl⟩ := Option.map_eq_some_iff.mp h
  rw [hs] at hms'
  obtain ⟨ms₁, hfirst, hrest⟩ := Option.bind_eq_some_iff.mp hms'
  exact addPairs_keeps hrest _ _ (textAt_addPair hfirst)

theorem textAt_addSection (hr : s.repeated = false) (hp : s.path = [])
    (hs : s.pairs = { path := [], key, value := .text t } :: pairs)
    (h : addSection ms s = some ms') : textAt [s.key, key] (.table .header ms') = some t := by
  have hadd : s.addTo ms = some ms' := by simpa only [addSection, hp, within] using h
  have made_of_find {made : Toml} (hmade : find? s.key ms' = some made)
      (ht : textAt [key] made = some t) : textAt [s.key, key] (.table .header ms') = some t := by
    rw [textAt, hmade]
    exact ht
  unfold Section.addTo at hadd
  rw [if_neg (by simp [hr])] at hadd
  split at hadd
  · next hnew =>
    obtain ⟨made, hmade, rfl⟩ := Option.map_eq_some_iff.mp hadd
    exact made_of_find (find?_append_new hnew made) (Section.textAt_table? hs hmade)
  · next inner _ =>
    obtain ⟨made, hmade, rfl⟩ := Option.map_eq_some_iff.mp hadd
    refine made_of_find ?_ (Section.textAt_table? hs hmade)
    rw [find?_supersede, if_pos rfl]
  · cases hadd

end RequestAccess.Toml
