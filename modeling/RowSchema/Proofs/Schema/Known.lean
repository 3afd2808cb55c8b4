import RowSchema.Proofs.Schema.Registered

/-! # What is known of derivations

A property that holds of whatever is newly derived holds of everything in the cache. The results
that records can have at all are the least that compose from each other, and a record that reaches
a cycle of the group graph has none. -/

namespace RowSchema

variable {registry : Registry} {settings : Options} {r : Record}

/-! ## Caches -/

/-- Every derivation in the cache satisfies `Q` of its key. -/
def Known (Q : Key → Derivation Derived → Prop) (cache : Cache) : Prop :=
  ∀ k derivation, cache.get? k = some derivation → Q k derivation

theorem Known.put {Q : Key → Derivation Derived → Prop} {cache : Cache} (h : Known Q cache)
    {k : Key} {derivation : Derivation Derived} (hk : Q k derivation) :
    Known Q (cache.put k derivation) := by
  intro l known hl
  rcases Dictionary.get?_put_eq hl with ⟨rfl, rfl⟩ | hl
  · exact hk
  · exact h l known hl

open Deriving

/-- A record that is not in the cache is derived and put there, unless it has come to be there in
the meantime. -/
theorem deriveCached_takes {Δ : Cache → Cache → Prop} [IsPreorder Cache Δ] {I E : Cache → Prop}
    {N Q : Cache → Derivation Derived → Prop} {nested : Nested}
    (hnew : Takes Δ I (fun c d => I c ∧ N c d) E (deriveNew registry settings nested r))
    (hknown : ∀ c d, I c → c.get? r.key = some d → Q c d)
    (hput : ∀ c d, I c → N c d → c.get? r.key = none →
      Δ c (c.put r.key d) ∧ Q (c.put r.key d) d) :
    Takes Δ I Q E (deriveCached registry settings nested r) := by
  unfold deriveCached
  refine Takes.get_bind fun p hp => ?_
  split
  · rename_i known hget
    refine (Takes.noting _).bind fun _ => Takes.pure ?_
    rintro _ rfl
    exact hknown p.cache known hp hget
  · have hnew' : Takes Δ (fun c => c = p.cache) (fun c d => I c ∧ N c d) E
        (deriveNew registry settings nested r) :=
      hnew.mono (fun _ hc => hc ▸ hp) (fun _ _ h => h) fun _ h => h
    refine hnew'.bind fun derivation => Takes.get_bind fun p' hp' => ?_
    split
    · rename_i known hget
      refine Takes.pure ?_
      rintro _ rfl
      exact hknown p'.cache known hp'.1 hget
    · rename_i hget
      refine (Takes.update (S := fun c => Q c derivation) ?_).bind fun _ => ?_
      · intro q hq
        rw [hq]
        exact hput p'.cache derivation hp'.1 hp'.2 hget
      · exact (Takes.noting _).bind fun _ => Takes.pure fun _ h => h

theorem deriveCached_meets {Q : Key → Derivation Derived → Prop} {E : Prop} {nested : Nested}
    (hnew : Meets (Known Q) E (Q r.key) (deriveNew registry settings nested r)) :
    Meets (Known Q) E (Q r.key) (deriveCached registry settings nested r) :=
  Meets.iff_takes.mpr (deriveCached_takes (Meets.iff_takes.mp hnew)
    (fun _ _ hc hd => ⟨hc, hc _ _ hd⟩) fun _ _ hc hd _ => ⟨trivial, hc.put hd, hd⟩)

/-! ## Properties of results -/

section Results

variable {P : Derived → Prop}
  (hP : ∀ r x, Composes registry settings (fun _ y => P y) r x → P x)

include hP

theorem deriveCached_result {nested : Nested}
    (hn : ∀ member, Meets (Known fun _ d => ∀ x, d.result = some x → P x) True
      (fun answer => ∀ x, answer.bind (·.result) = some x → P x) (nested member)) (r : Record) :
    Meets (Known fun _ d => ∀ x, d.result = some x → P x) True
      (fun d => ∀ x, d.result = some x → P x) (deriveCached registry settings nested r) := by
  refine deriveCached_meets ?_
  refine (deriveNew_between (H := fun _ _ => False) (N := True) (fun _ => trivial)
    fun member _ => (hn member).mono id fun answer h => ⟨h, ?_, ?_⟩).mono id ?_
  · intro x hx
    exact False.elim hx
  · exact fun _ => trivial
  · intro d hd x hx
    exact hP r x (hd.sound x hx)

/-- What holds of everything that composes from results for which it holds is true of every
result. -/
theorem deriveWithin_result : ∀ (depth : Nat) (closed : List Key) (r : Record),
    Meets (Known fun _ d => ∀ x, d.result = some x → P x) True
      (fun d => ∀ x, d.result = some x → P x) (deriveWithin registry settings depth closed r)
  | 0, closed, r => by
    rw [deriveWithin]
    refine deriveCached_result hP (fun member => Meets.pure ?_) r
    intro x hx
    cases hx
  | depth + 1, closed, r => by
    rw [deriveWithin]
    refine deriveCached_result hP (fun member => ?_) r
    split
    · refine Meets.pure ?_
      intro x hx
      cases hx
    · exact (deriveWithin_result depth _ member).bind fun d hd => Meets.pure hd

end Results

/-! ## The results that records have -/

/-- The least results that compose from each other. -/
def Derives (registry : Registry) (settings : Options) (r : Record) (x : Derived) : Prop :=
  ∀ P : Record → Derived → Prop, (∀ r x, Composes registry settings P r x → P r x) → P r x

theorem Derives.of_composes {x : Derived}
    (h : Composes registry settings (Derives registry settings) r x) :
    Derives registry settings r x := by
  intro P hP
  exact hP r x (h.mono fun m y hy => hy P hP)

theorem Derives.composes {x : Derived} (h : Derives registry settings r x) :
    Composes registry settings (Derives registry settings) r x := by
  refine h _ fun r x hx => ?_
  exact hx.mono fun m y hy => Derives.of_composes hy

/-- No cycle of the group graph can be reached from the record. -/
def Registry.AcyclicFrom (registry : Registry) (r : Record) : Prop :=
  ∀ m, Relation.ReflTransGen registry.Refers r m → ¬ Relation.TransGen registry.Refers m m

theorem Registry.AcyclicFrom.of_reaches {m : Record} (h : registry.AcyclicFrom r)
    (hm : Relation.ReflTransGen registry.Refers r m) : registry.AcyclicFrom m :=
  fun m' hm' => h m' (hm.trans hm')

/-- A record reaches no cycle but through a member that does. -/
theorem Registry.AcyclicFrom.of_members
    (h : ∀ m, registry.Refers r m → registry.AcyclicFrom m) : registry.AcyclicFrom r := by
  intro m hreach hcycle
  rcases Relation.ReflTransGen.cases_head hreach with rfl | ⟨m', hm', hreach⟩
  · obtain ⟨m', hm', hback⟩ := Relation.TransGen.head'_iff.mp hcycle
    exact h m' hm' r hback hcycle
  · exact h m' hm' m hreach hcycle

/-- A record that has a result reaches no cycle. -/
theorem Derives.acyclicFrom {x : Derived} (h : Derives registry settings r x) :
    registry.AcyclicFrom r := by
  refine h (fun r _ => registry.AcyclicFrom r) fun r x hx => .of_members fun m hm => ?_
  obtain ⟨y, hy⟩ := hx.of_refers hm
  exact hy

theorem Derives.of_refers {x : Derived} (h : Derives registry settings r x) {m : Record}
    (hm : registry.Refers r m) : ∃ y, Derives registry settings m y :=
  h.composes.of_refers hm

end RowSchema
