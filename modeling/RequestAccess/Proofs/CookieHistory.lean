import RequestAccess.Proofs.CookieRoundTrip
import RequestAccess.Proofs.StoreCalls

/-!
# The history of a jar

What a jar shows is said by the changes that were made to it: of each name it has the cookie that
was filed last, unless the name was deleted or the jar cleared since.
-/

namespace RequestAccess

/-! ## Histories -/

/-- Whether the call decides what is filed under the name. -/
def CookieCall.touches (name : String) : CookieCall → Bool
  | .set c => c.name = name
  | .delete other => other = name
  | .clear => true
  | .get _ | .getAll | .has _ | .size | .render => false

/-- The cookie was filed under the name, and the name was not touched since. -/
def LastFiled (history : List CookieCall) (name : String) (c : Cookie) : Prop :=
  ∃ earlier later, history = earlier ++ .set c :: later ∧ c.name = name ∧
    ∀ call ∈ later, call.touches name = false

theorem lastFiled_concat {history : List CookieCall} {call : CookieCall} {name : String}
    {c : Cookie} : LastFiled (history ++ [call]) name c ↔
      call = .set c ∧ c.name = name ∨ call.touches name = false ∧ LastFiled history name c := by
  constructor
  · rintro ⟨earlier, later, heq, hname, hlater⟩
    -- The filing is the last call itself, or the last call comes after it.
    rcases List.eq_nil_or_concat later with rfl | ⟨rest, last, rfl⟩
    · obtain ⟨-, hcall⟩ := List.append_inj' heq rfl
      exact .inl ⟨List.singleton_inj.mp hcall, hname⟩
    · rw [List.concat_eq_append] at heq hlater
      rw [← List.cons_append, ← List.append_assoc] at heq
      obtain ⟨rfl, hcall⟩ := List.append_inj' heq rfl
      obtain rfl := List.singleton_inj.mp hcall
      refine .inr ⟨hlater call (by simp), earlier, rest, rfl, hname, fun x hx => ?_⟩
      exact hlater x (List.mem_append_left _ hx)
  · rintro (⟨rfl, hname⟩ | ⟨hcall, earlier, later, rfl, hname, hlater⟩)
    · exact ⟨history, [], rfl, hname, by simp⟩
    · refine ⟨earlier, later ++ [call], by simp, hname, fun x hx => ?_⟩
      rcases List.mem_append.mp hx with hx | hx
      · exact hlater x hx
      · rwa [List.mem_singleton.mp hx]

/-! ## Where jars come from -/

/-- How jars are made: empty, readonly or from a header, with cookies that are filed on the way. -/
inductive JarOrigin where
  | empty
  | sealed
  | ofHeader (header : String)
  | file (o : JarOrigin) (c : Cookie)

namespace JarOrigin

def jar : JarOrigin → CookieJar
  | .empty => .empty
  | .sealed => .sealed
  | .ofHeader header => .ofHeader header
  | .file o c => o.jar.file c

def isReadonly : JarOrigin → Bool
  | .empty => false
  | .sealed | .ofHeader _ => true
  | .file o _ => o.isReadonly

/-- The cookies that are filed, from left to right. -/
def history : JarOrigin → List CookieCall
  | .empty | .sealed => []
  | .ofHeader header => (CookieJar.pairs header.toList).map .set
  | .file o c => o.history ++ [.set c]

theorem readonly_jar (o : JarOrigin) : o.jar.readonly = o.isReadonly := by
  induction o with
  | empty | «sealed» => rfl
  | ofHeader header => exact CookieJar.readonly_ofHeader header
  | file o c ih => exact ih

end JarOrigin

namespace CookieJar

/-- The calls that were changes and that the jar took. -/
def taken (j : CookieJar) : List CookieCall → List CookieCall
  | [] => []
  | c :: rest => (if (j.run c).isTaken then [c] else []) ++ taken ((j.run c).left j) rest

/-! ## A jar and its history -/

/-- The jar has of each name what was filed last. -/
def Follows (j : CookieJar) (history : List CookieCall) : Prop :=
  ∀ name c, j.get? name = some c ↔ LastFiled history name c

namespace Follows

variable {j : CookieJar} {history : List CookieCall}

theorem nil (hj : ∀ name, j.get? name = none) : j.Follows [] := by
  intro name c
  simp [hj, LastFiled]

theorem file (h : j.Follows history) (c : Cookie) : (j.file c).Follows (history ++ [.set c]) := by
  intro name x
  rw [get?_file, lastFiled_concat, ← h name x]
  by_cases hc : c.name = name
  · have htouched : CookieCall.touches name (.set c) = true := decide_eq_true hc
    rw [if_pos hc.symm, htouched]
    simp only [Option.some.injEq, CookieCall.set.injEq, Bool.true_eq_false, false_and, or_false]
    exact ⟨fun same => ⟨same, same ▸ hc⟩, And.left⟩
  · have htouched : CookieCall.touches name (.set c) = false := decide_eq_false hc
    rw [if_neg (Ne.symm hc), htouched]
    simp only [CookieCall.set.injEq, true_and]
    exact ⟨.inr, (·.resolve_left fun ⟨same, hx⟩ => hc (same ▸ hx))⟩

theorem erase (h : j.Follows history) (name : String) :
    Follows { j with cookies := j.cookies.erase name } (history ++ [.delete name]) := by
  intro other x
  rw [lastFiled_concat, ← h other x, get?, NameMap.get?_erase]
  by_cases hname : other = name
  · simp [CookieCall.touches, hname]
  · simp [CookieCall.touches, hname, Ne.symm hname, get?]

theorem clear : Follows { j with cookies := .empty } (history ++ [.clear]) := by
  intro other x
  rw [lastFiled_concat]
  simp [CookieCall.touches, get?]

theorem foldl_file (h : j.Follows history) (l : List Cookie) :
    (l.foldl CookieJar.file j).Follows (history ++ l.map .set) := by
  induction l generalizing j history with
  | nil => simpa using h
  | cons c rest ih =>
    have hrest := ih (h.file c)
    rwa [List.append_assoc, List.singleton_append] at hrest

theorem jar (o : JarOrigin) : o.jar.Follows o.history := by
  induction o with
  | empty | «sealed» => exact nil fun _ => rfl
  | ofHeader header => exact foldl_file (nil fun _ => rfl) (pairs header.toList)
  | file o c ih => exact ih.file c

theorem call (h : j.Follows history) (c : CookieCall) :
    ((j.run c).left j).Follows (history ++ if (j.run c).isTaken then [c] else []) := by
  have hsame : j.Follows (history ++ []) := by rwa [List.append_nil]
  cases c with
  | set c =>
    rw [run, set, ifWritable]
    split
    · exact hsame
    · exact h.file c
  | delete name =>
    rw [run, CookieJar.erase, ifWritable]
    split
    · exact hsame
    · exact h.erase name
  | clear =>
    rw [run, CookieJar.clear, ifWritable]
    split
    · exact hsame
    · exact clear
  | _ => exact hsame

theorem after (h : j.Follows history) (calls : List CookieCall) :
    (j.after calls).Follows (history ++ j.taken calls) := by
  induction calls generalizing j history with
  | nil => rw [taken, List.append_nil]; exact h
  | cons c rest ih =>
    have hrest := ih (h.call c)
    rwa [List.append_assoc] at hrest

theorem keyed (h : j.Follows history) : j.Keyed := by
  intro name c hc
  obtain ⟨-, -, -, hname, -⟩ := (h name c).mp hc
  exact hname

end Follows

theorem taken_eq (j : CookieJar) (calls : List CookieCall) :
    j.taken calls = if j.readonly then [] else calls.filter CookieCall.isChange := by
  induction calls generalizing j with
  | nil => simp [taken]
  | cons c rest ih =>
    rw [taken, ih, readonly_left, isTaken_run]
    cases j.readonly <;> cases hc : c.isChange <;> simp [hc]

/-! ## Every way of looking -/

theorem sorted_toList {j : CookieJar} (h : j.Keyed) :
    j.toList.Pairwise fun c d => c.name < d.name := by
  refine List.pairwise_map.mpr (j.cookies.sorted.imp_of_mem fun {e f} he hf below => ?_)
  have hfirst : e.2.name = e.1 := h e.1 e.2 (NameMap.mem_entries.mp he)
  have hsecond : f.2.name = f.1 := h f.1 f.2 (NameMap.mem_entries.mp hf)
  rwa [hfirst, hsecond]

/-- The jar shows its history, whichever way it is looked at. -/
structure Shows (j : CookieJar) (history : List CookieCall) : Prop where
  get (name : String) (c : Cookie) : j.get? name = some c ↔ LastFiled history name c
  own (name : String) (c : Cookie) : j.get? name = some c → c.name = name
  contains (name : String) : j.contains name = (j.get? name).isSome
  toList (c : Cookie) : c ∈ j.toList ↔ ∃ name, j.get? name = some c
  sorted : j.toList.Pairwise fun c d => c.name < d.name
  size : j.size = j.toList.length
  render : j.render = Text.join "; " (j.toList.map fun c => c.name ++ "=" ++ c.value)

theorem Follows.shows {j : CookieJar} {history : List CookieCall} (h : j.Follows history) :
    j.Shows history where
  get := h
  own := h.keyed
  contains _ := rfl
  toList c := by
    rw [mem_toList h.keyed]
    constructor
    · exact fun hc => ⟨c.name, hc⟩
    · rintro ⟨name, hc⟩
      rwa [h.keyed name c hc]
  sorted := sorted_toList h.keyed
  size := (List.length_map _).symm
  render := rfl

end CookieJar

/-- A jar shows its history: what was filed when it was made, and the changes that it took since. A
readonly jar refuses every change and stays as it was made, and any other jar takes every change. -/
theorem jar_refines_history :
    (∀ (o : JarOrigin) (calls : List CookieCall),
      (o.jar.after calls).Shows (o.history ++ o.jar.taken calls)) ∧
    (∀ o : JarOrigin, o.isReadonly = true → ∀ calls,
      o.jar.after calls = o.jar ∧ o.jar.taken calls = [] ∧
      ∀ c : CookieCall, c.isChange = true → o.jar.run c = .change (.error .readonlyCookies)) ∧
    (∀ o : JarOrigin, o.isReadonly = false → ∀ calls,
      o.jar.taken calls = calls.filter CookieCall.isChange ∧
      ∀ c : CookieCall, c.isChange = true →
        ∃ changed, (o.jar.after calls).run c = .change (.ok changed)) ∧
    ∀ (w : World) (key : Key .jar) (calls : List CookieCall),
      (calls.foldl (fun w c => (w.callJar (.shared key) c).1) w).jars.get key =
        (w.jars.get key).after calls := by
  refine ⟨fun o calls => ?_, fun o ho calls => ?_, fun o ho calls => ?_, World.jars_after⟩
  · exact ((CookieJar.Follows.jar o).after calls).shows
  · have hr := o.readonly_jar.trans ho
    refine ⟨CookieJar.after_of_readonly hr calls, ?_, fun c => CookieJar.run_readonly hr⟩
    rw [CookieJar.taken_eq, if_pos hr]
  · have hr := o.readonly_jar.trans ho
    refine ⟨by rw [CookieJar.taken_eq, if_neg (by simp [hr])], fun c hc => ?_⟩
    obtain ⟨changed, -, hrun⟩ :=
      CookieJar.run_writable ((CookieJar.readonly_after _ calls).trans hr) hc
    exact ⟨changed, hrun⟩

/-- A cookie that is filed twice, one that is deleted, and a readonly jar. -/
theorem jar_refines_history_of_two_jars :
    let first : Cookie := { name := "a", value := "1" }
    let second : Cookie := { name := "a", value := "2" }
    let o := JarOrigin.empty.file first
    let calls : List CookieCall := [.set { name := "b", value := "3" }, .set second, .delete "b"]
    LastFiled (o.history ++ o.jar.taken calls) "a" second ∧ o.jar.taken calls = calls ∧
      (o.jar.after calls).render = "a=2" ∧
      (JarOrigin.ofHeader "a=1").jar.run .clear = .change (.error .readonlyCookies) := by
  intro first second o calls
  obtain ⟨shows, refuses, takes, -⟩ := jar_refines_history
  have hget : (o.jar.after calls).get? "a" = some second := by decide +kernel
  refine ⟨((shows o calls).get "a" second).mp hget, (takes o rfl calls).1, by decide +kernel, ?_⟩
  exact (refuses (.ofHeader "a=1") rfl []).2.2 .clear rfl

end RequestAccess
