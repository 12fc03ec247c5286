import RequestAccess.Proofs.Memoization

/-!
# What a fetch supplies

The value of a handle that a fetch has given is a value of the resource that was fetched. It is what
the unit offers, or a blank one under a force-static work.
-/

namespace RequestAccess

namespace Moment

/-- The step has fetched a handle that has a value. -/
def Supplies (m : Moment) (v : Value) (g : Grant) : Prop :=
  m.grant? = some g ∧ g.handle.value? = some v

def workOf (m : Moment) (g : Grant) : Work := m.before.world.works.get g.binding.work

def variantOf (m : Moment) (g : Grant) : Variant := (m.before.world.units.get g.unit).variant

end Moment

variable {f m : Moment} {v : Value} {g : Grant}

theorem Key.eq_of_source {kind : Kind} {k j : Key kind}
    (h : MemoKey.source k.index = .source j.index) : k = j :=
  congrArg Key.mk (MemoKey.source.inj h)

theorem Variant.jar?_of_keyFor {found : Option (Key .draft)} {v : Variant}
    {jar : Key .jar} (h : .source jar.index = v.keyFor found .cookies) : v.jar? = some jar := by
  cases v with
  | request p => exact congrArg some (Key.eq_of_source h).symm
  | privateCache cookies headers forwarded => exact congrArg some (Key.eq_of_source h).symm
  | _ => simp [keyFor] at h

theorem Variant.headers?_of_keyFor {found : Option (Key .draft)} {v : Variant}
    {key : Key .headers} (h : .source key.index = v.keyFor found .headers) :
    v.headers? = some key := by
  cases v with
  | request p => exact congrArg some (Key.eq_of_source h).symm
  | privateCache cookies headers forwarded => exact congrArg some (Key.eq_of_source h).symm
  | _ => simp [keyFor] at h

namespace Moment

theorem fetch_of_grant (hg : m.grant? = some g) :
    (m.before.world.fetch g.binding.coordinator (some ⟨g.binding.work, g.binding.unit⟩)
      g.resource).result = .ok g.handle := by
  obtain ⟨saveAs, same, hstep, hreply, -⟩ := grant_fetches hg
  obtain ⟨s, step⟩ := m
  change step = _ at hstep
  subst hstep
  change (s.fetch ..).reply = _ at hreply
  cases hc : s.world.scope? (some g.binding.work) (some g.binding.unit) with
  | none =>
    simp only [Session.fetch, hc, World.fetch, World.refuse] at hreply
    cases hreply
  | some scope =>
    have hscope : scope = ⟨g.binding.work, g.binding.unit⟩ := by
      simp only [World.scope?, Option.ite_none_right_eq_some, Option.some.injEq] at hc
      exact hc.2.symm
    rw [hscope] at hc
    cases hr : (s.world.fetch g.binding.coordinator (some ⟨g.binding.work, g.binding.unit⟩)
        g.resource).result with
    | error e => simp [Session.fetch, hc, hr] at hreply
    | ok x =>
      simp only [Session.fetch, hc, hr, Reply.handle.injEq] at hreply
      exact congrArg Except.ok hreply.1

theorem Supplies.value (h : f.Supplies v g) (hs : f.before.Sound) :
    (f.workOf g).forceStatic = true ∧ v = World.blankValue g.binding g.resource ∨
      (f.workOf g).forceStatic = false ∧ ∃ found, HandleState.Under (f.variantOf g) g.unit
        g.resource ((f.variantOf g).keyFor found g.resource) (.resolved v) := by
  obtain ⟨hg, hv⟩ := h
  have hstate := Handle.state_of_value hv
  cases hf : (f.workOf g).forceStatic with
  | true =>
    have hr := fetch_of_grant hg
    rw [workOf] at hf
    simp only [World.fetch, hf, if_true, World.giveBlank, Except.ok.injEq] at hr
    rw [← hr] at hstate
    exact .inl ⟨rfl, (HandleState.resolved.inj hstate).symm⟩
  | false =>
    have hunder := ((granted hg).given.remembered hs.fits hf).state
    rw [hstate] at hunder
    exact .inr ⟨rfl, _, hunder⟩

theorem Supplies.cookies (h : f.Supplies v g) (hs : f.before.Sound) (hr : g.resource = .cookies) :
    v = .cookies .blank ∧ (f.workOf g).forceStatic = true ∨
      ∃ jar, v = .cookies (.shared jar) ∧ (f.variantOf g).jar? = some jar ∧
        (f.workOf g).forceStatic = false := by
  obtain ⟨hf, hv⟩ | ⟨hf, found, hu⟩ := h.value hs
  · rw [hr] at hv
    exact .inl ⟨hv, hf⟩
  · rw [hr] at hu
    generalize hk : (f.variantOf g).keyFor found .cookies = key at hu
    cases hu with
    | cookies jar => exact .inr ⟨jar, rfl, Variant.jar?_of_keyFor hk.symm, hf⟩

theorem Supplies.headers (h : f.Supplies v g) (hs : f.before.Sound) (hr : g.resource = .headers) :
    v = .headers .blank ∨
      ∃ key, v = .headers (.shared key) ∧ (f.variantOf g).headers? = some key := by
  obtain ⟨-, hv⟩ | ⟨-, found, hu⟩ := h.value hs
  · rw [hr] at hv
    exact .inl hv
  · rw [hr] at hu
    generalize hk : (f.variantOf g).keyFor found .headers = key at hu
    cases hu with
    | headers key => exact .inr ⟨key, rfl, Variant.headers?_of_keyFor hk.symm⟩

theorem Supplies.resource (h : f.Supplies v g) (hs : f.before.Sound) : v.resource = g.resource := by
  obtain ⟨-, rfl⟩ | ⟨-, found, hu⟩ := h.value hs
  · cases g.resource <;> rfl
  · generalize (f.variantOf g).keyFor found g.resource = key at hu
    generalize g.resource = r at hu
    cases hu <;> rfl

theorem Supplies.dynamicShouldError (h : f.Supplies v g) (hp : (f.variantOf g).phase = .request)
    (hf : (f.workOf g).forceStatic = false) : (f.workOf g).dynamicShouldError = false := by
  have hr := fetch_of_grant h.1
  unfold workOf at hf ⊢
  unfold variantOf at hp
  cases hv : (f.before.world.units.get g.unit).variant with
  | request p =>
    have hunit : (f.before.world.units.get g.binding.unit).variant = .request p := hv
    cases hd : (f.before.world.works.get g.binding.work).dynamicShouldError with
    | false => rfl
    | true => simp [World.fetch, hf, World.fetchIn, hunit, World.unlessStatic, hd] at hr
  | _ => simp [hv, Variant.phase] at hp

theorem supplies_of_makes {b : Binding} {r : Resource} {h : Handle} (hm : m.Makes b r h)
    (hv : h.state = .resolved v) : ∃ g, m.Supplies v g := by
  cases hg : m.grant? with
  | none =>
    have hnone := gives_of_no_grant hg
    rw [hm.gives] at hnone
    cases hnone
  | some g =>
    have hsame : g.handle = h := Option.some.inj ((granted hg).gives.symm.trans hm.gives)
    refine ⟨g, hg, ?_⟩
    simp [hsame, Handle.value?, hv]

end Moment

end RequestAccess
