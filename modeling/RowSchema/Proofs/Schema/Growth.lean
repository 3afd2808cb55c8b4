import RowSchema.Proofs.Schema.Known

/-! # Caches that grow

What has been derived once is neither replaced nor lost. Whatever a derivation adds belongs to a
registered record, and its groups have the catalogs of results that are in the cache by then: a
group is derived before the record that it is spliced into, and what is derived is kept. -/

namespace RowSchema

variable {registry : Registry} {settings : Options} {r m : Record} {c c' c₀ : Cache} {k : Key}
  {d : Derivation Derived} {x : Derived}

/-! ## Growth -/

/-- What is known in one cache is known in the other. -/
def Grows (c c' : Cache) : Prop := ∀ k d, c.get? k = some d → c'.get? k = some d

instance : IsPreorder Cache Grows where
  refl _ _ _ h := h
  trans _ _ _ h h' k d hd := h' k d (h k d hd)

theorem Grows.put (h : c.get? k = none) : Grows c (c.put k d) := by
  intro l known hl
  by_cases hk : l = k
  · rw [hk, h] at hl
    cases hl
  · rwa [Dictionary.get?_put_of_ne _ _ hk]

/-- The record has that result in the cache. -/
def Kept (c : Cache) (r : Record) (x : Derived) : Prop :=
  ∃ d, c.get? r.key = some d ∧ d.result = some x

theorem Kept.mono (h : Kept c r x) (hc : Grows c c') : Kept c' r x := by
  obtain ⟨d, hd, hx⟩ := h
  exact ⟨d, hc _ d hd, hx⟩

/-- Whatever the cache has beyond `c₀` belongs to a registered record, and a result composes from
results that are in the cache. -/
def Composed (registry : Registry) (settings : Options) (c₀ c : Cache) : Prop :=
  ∀ k d, c.get? k = some d → c₀.get? k = some d ∨ ∃ r, registry.records.get? k = some r ∧
    ∀ x, d.result = some x → Composes registry settings (Kept c) r x

theorem Composed.refl (registry : Registry) (settings : Options) (c : Cache) :
    Composed registry settings c c :=
  fun _ _ h => .inl h

theorem Composed.put (h : Composed registry settings c₀ c)
    (hr : registry.records.get? r.key = some r) (hfree : c.get? r.key = none)
    (hx : ∀ x, d.result = some x → Composes registry settings (Kept c) r x) :
    Composed registry settings c₀ (c.put r.key d) := by
  have hgrow {r' : Record} {x' : Derived} (hx' : Composes registry settings (Kept c) r' x') :
      Composes registry settings (Kept (c.put r.key d)) r' x' :=
    hx'.mono fun _ _ h => h.mono (Grows.put hfree)
  intro l known hl
  rcases Dictionary.get?_put_eq hl with ⟨rfl, rfl⟩ | hl
  · exact .inr ⟨r, hr, fun x h => hgrow (hx x h)⟩
  · rcases h l known hl with hold | ⟨r', hr', hcomposes⟩
    · exact .inl hold
    · exact .inr ⟨r', hr', fun x h => hgrow (hcomposes x h)⟩

/-! ## Derivations -/

open Deriving

/-- A derivation makes the cache grow, and what it gives is in there. -/
abbrev Caches (registry : Registry) (settings : Options) (c₀ : Cache) (r : Record) :
    Deriving (Derivation Derived) → Prop :=
  Takes Grows (Composed registry settings c₀)
    (fun c d => Composed registry settings c₀ c ∧ c.get? r.key = some d)
    (Composed registry settings c₀)

theorem deriveCached_grows (hr : registry.records.get? r.key = some r) {nested : Nested}
    (hn : ∀ m, registry.Refers r m → Takes Grows (Composed registry settings c₀)
      (fun c answer => Composed registry settings c₀ c ∧ ∀ d, answer = some d →
        c.get? m.key = some d) (Composed registry settings c₀) (nested m)) :
    Caches registry settings c₀ r (deriveCached registry settings nested r) := by
  have hnew : Takes Grows (Composed registry settings c₀)
      (fun c d => Composed registry settings c₀ c ∧
        ∀ x, d.result = some x → Composes registry settings (Kept c) r x)
      (Composed registry settings c₀) (deriveNew registry settings nested r) := by
    refine (deriveNew_takes_between (H := fun _ _ => False) (U := Kept) (N := True)
      (fun _ _ hc _ _ h => h.mono hc) (fun _ _ hc => hc) fun m hm =>
        (hn m hm).mono (fun _ hc => hc) ?_ fun _ hc => hc).mono (fun _ hc => hc)
      (fun c d h => ⟨h.1, h.2.sound⟩) fun _ hc => hc
    rintro c answer ⟨hc, hanswer⟩
    refine ⟨hc, ?_, fun x hx => hx.elim, fun _ => trivial⟩
    intro x hx
    obtain ⟨d, rfl, hd⟩ := Option.bind_eq_some_iff.mp hx
    exact ⟨d, hanswer d rfl, hd⟩
  refine deriveCached_takes hnew (fun c d hc hd => ⟨hc, hd⟩) fun c d hc hd hfree => ?_
  exact ⟨Grows.put hfree, hc.put hr hfree hd, Dictionary.get?_put_self _ _ _⟩

theorem deriveWithin_grows (hkeyed : registry.Keyed) : ∀ (depth : Nat) (closed : List Key)
    {r : Record}, registry.records.get? r.key = some r →
    Caches registry settings c₀ r (deriveWithin registry settings depth closed r)
  | 0, closed, r, hr => by
    rw [deriveWithin]
    refine deriveCached_grows hr fun m _ => Takes.pure fun c hc => ⟨hc, ?_⟩
    intro d hd
    cases hd
  | depth + 1, closed, r, hr => by
    rw [deriveWithin]
    refine deriveCached_grows hr fun m hm => ?_
    split
    · refine Takes.pure fun c hc => ⟨hc, ?_⟩
      intro d hd
      cases hd
    · have ih := deriveWithin_grows hkeyed depth (r.key :: closed) (hkeyed.get?_of_refers hm)
      refine ih.bind fun d => Takes.pure fun c hc => ⟨hc.1, ?_⟩
      intro d' hd'
      cases hd'
      exact hc.2

/-! ## Schemas -/

namespace Schema

variable {s t : Schema} {reference : Reference}

/-- The same records are registered in `t`, and more may be known of them. -/
structure Extends (s t : Schema) : Prop where
  registry_eq : t.registry = s.registry
  settings_eq : t.settings = s.settings
  grows : Grows s.progress.cache t.progress.cache
  composed : Composed s.registry s.settings s.progress.cache t.progress.cache

theorem Extends.refl (s : Schema) : s.Extends s :=
  ⟨rfl, rfl, fun _ _ h => h, .refl _ _ _⟩

/-- The derivation of one more record. -/
theorem Extends.deriveRecord (h : s.Extends t) (hkeyed : s.registry.Keyed)
    (hr : s.registry.records.get? r.key = some r) :
    s.Extends (t.deriveRecord r).2 ∧ ∀ d, (t.deriveRecord r).1 = .ok d →
      (t.deriveRecord r).2.progress.cache.get? r.key = some d := by
  obtain ⟨hregistry, hsettings, hgrows, hcomposed⟩ := h
  have hcaches : Caches s.registry s.settings s.progress.cache r
      (deriveWithin s.registry s.settings s.registry.records.length [] r) :=
    deriveWithin_grows hkeyed _ [] hr
  have hrun := hcaches t.progress hcomposed
  rw [← hregistry, ← hsettings] at hrun
  obtain ⟨hmore, hok, herror⟩ := hrun
  refine ⟨⟨hregistry, hsettings, IsTrans.trans _ _ _ hgrows hmore, ?_⟩, fun d hd => (hok d hd).2⟩
  rw [← hregistry, ← hsettings]
  cases hd : (t.deriveRecord r).1 with
  | error e => exact herror e hd
  | ok d => exact (hok d hd).1

theorem extends_derive? (hkeyed : s.registry.Keyed)
    {derivation : Except RangeError (Derivation Derived)}
    (hd : s.derive? reference = some (derivation, t)) : s.Extends t := by
  refine derive?_keeps (P := s.Extends) (fun u r hu hr => ?_) hkeyed (.refl s) hd
  rw [hu.registry_eq] at hr
  exact (hu.deriveRecord hkeyed hr).1

theorem extends_deriveAll (hkeyed : s.registry.Keyed)
    {derivations : Except RangeError (Dictionary String (Derivation Derived))}
    (hd : s.deriveAll = (derivations, t)) : s.Extends t := by
  refine deriveAll_keeps (P := s.Extends) (fun u r hu hr => ?_) hkeyed (.refl s) hd
  rw [hu.registry_eq] at hr
  exact (hu.deriveRecord hkeyed hr).1

/-- What is known of a record is given again, and nothing else changes but the log. -/
theorem deriveRecord_of_known (h : s.progress.cache.get? r.key = some d) :
    s.deriveRecord r = (.ok d, { s with progress := s.progress.note [.cacheHit r.name] }) := by
  have hget : (get : Deriving Progress).run.run s.progress = (.ok s.progress, s.progress) := rfl
  have hrun (nested : Nested) : (deriveCached s.registry s.settings nested r).run.run s.progress =
      (.ok d, s.progress.note [.cacheHit r.name]) := by
    unfold deriveCached
    rw [Takes.run_bind, hget]
    dsimp only
    rw [h]
    rfl
  unfold deriveRecord
  cases s.registry.records.length with
  | zero =>
    rw [deriveWithin]
    dsimp only
    rw [hrun]
  | succ depth =>
    rw [deriveWithin]
    dsimp only
    rw [hrun]

end Schema

end RowSchema
