import Mathlib.Data.List.Forall2
import Mathlib.Order.Defs.Unbundled
import RowSchema.Schema

/-! # Steps of a derivation

A derivation changes the cache, writes the log, and may be stopped by a range of no use. `Takes`
says how it changes the cache, what it gives and what holds where it is stopped, and goes through
every way in which derivations are put together. `Meets` is the case in which the same is kept of
the cache throughout and nothing that is given depends on it. -/

namespace RowSchema

/-- The derivations that are known. -/
abbrev Cache := Dictionary Key (Derivation Derived)

namespace Deriving

/-- Where the cache satisfies `P`, `x` changes it as `Δ` allows. What `x` gives satisfies `Q`
together with the cache that is left; if `x` is stopped, that cache satisfies `E`. -/
def Takes {α : Type} (Δ : Cache → Cache → Prop) (P : Cache → Prop) (Q : Cache → α → Prop)
    (E : Cache → Prop) (x : Deriving α) : Prop :=
  ∀ p : Progress, P p.cache → Δ p.cache (x.run.run p).2.cache ∧
    (∀ a, (x.run.run p).1 = .ok a → Q (x.run.run p).2.cache a) ∧
    ∀ e, (x.run.run p).1 = .error e → E (x.run.run p).2.cache

namespace Takes

variable {α β : Type} {Δ : Cache → Cache → Prop} {P P' E E' : Cache → Prop}
  {Q Q' : Cache → α → Prop} {R : Cache → β → Prop}

theorem mono {x : Deriving α} (hx : Takes Δ P Q E x) (hP : ∀ c, P' c → P c)
    (hQ : ∀ c a, Q c a → Q' c a) (hE : ∀ c, E c → E' c) : Takes Δ P' Q' E' x := by
  intro p hp
  obtain ⟨hΔ, hq, he⟩ := hx p (hP p.cache hp)
  exact ⟨hΔ, fun a ha => hQ _ a (hq a ha), fun e h => hE _ (he e h)⟩

/-- What holds of every cache that the cache may become goes on to hold. -/
theorem frame {S : Cache → Prop} (hS : ∀ c c', Δ c c' → S c → S c') {x : Deriving α}
    (hx : Takes Δ P Q E x) : Takes Δ (fun c => P c ∧ S c) (fun c a => Q c a ∧ S c) E x := by
  rintro p ⟨hp, hs⟩
  obtain ⟨hΔ, hQ, hE⟩ := hx p hp
  exact ⟨hΔ, fun a ha => ⟨hQ a ha, hS _ _ hΔ hs⟩, hE⟩

theorem get_bind {f : Progress → Deriving α}
    (h : ∀ p, P p.cache → Takes Δ (fun c => c = p.cache) Q E (f p)) :
    Takes Δ P Q E (get >>= f) := by
  intro p hp
  exact h p hp p rfl

theorem update {S : Cache → Prop} {f : Progress → Progress}
    (h : ∀ p, P p.cache → Δ p.cache (f p).cache ∧ S (f p).cache) :
    Takes Δ P (fun c _ => S c) E (modify f : Deriving PUnit) := by
  intro p hp
  obtain ⟨hΔ, hs⟩ := h p hp
  refine ⟨hΔ, fun _ _ => hs, ?_⟩
  intro e he
  cases he

/-- What the cache has nothing to do with may be taken for granted. -/
theorem of_fact {fact : Prop} {x : Deriving α} (h : fact → Takes Δ P Q E x) :
    Takes Δ (fun c => P c ∧ fact) Q E x := by
  rintro p ⟨hp, hfact⟩
  exact h hfact p hp

variable [IsPreorder Cache Δ]

theorem pure {a : α} (h : ∀ c, P c → Q c a) : Takes Δ P Q E (Pure.pure a : Deriving α) := by
  intro p hp
  refine ⟨refl p.cache, ?_, ?_⟩
  · intro b hb
    cases hb
    exact h p.cache hp
  · intro e he
    cases he

theorem throw {e : RangeError} (h : ∀ c, P c → E c) :
    Takes Δ P Q E (throwThe RangeError e : Deriving α) := by
  intro p hp
  refine ⟨refl p.cache, ?_, fun _ _ => h p.cache hp⟩
  intro b hb
  cases hb

theorem run_bind (x : Deriving α) (f : α → Deriving β) (p : Progress) :
    (x >>= f).run.run p = match x.run.run p with
      | (.ok a, p) => (f a).run.run p
      | (.error e, p) => (.error e, p) := by
  simp only [ExceptT.run_bind, StateT.run_bind]
  rcases h : x.run.run p with ⟨_ | a, p'⟩ <;> rfl

theorem bind {x : Deriving α} {f : α → Deriving β} (hx : Takes Δ P Q E x)
    (hf : ∀ a, Takes Δ (fun c => Q c a) R E (f a)) : Takes Δ P R E (x >>= f) := by
  intro p hp
  obtain ⟨hΔ, hQ, hE⟩ := hx p hp
  rw [run_bind]
  rcases h : x.run.run p with ⟨e | a, p'⟩
  · rw [h] at hΔ hE
    refine ⟨hΔ, ?_, fun _ _ => hE e rfl⟩
    intro b hb
    cases hb
  · rw [h] at hΔ hQ
    obtain ⟨hΔ', hR, hE'⟩ := hf a p' (hQ a rfl)
    exact ⟨IsTrans.trans _ _ _ hΔ hΔ', hR, hE'⟩

theorem noting (events : List Event) : Takes Δ P (fun c _ => P c) E (note events) := by
  intro p hp
  refine ⟨refl p.cache, fun _ _ => hp, ?_⟩
  intro e he
  cases he

theorem ofExcept {x : Except RangeError α} (hQ : ∀ a, x = .ok a → ∀ c, P c → Q c a)
    (hE : ∀ e, x = .error e → ∀ c, P c → E c) :
    Takes Δ P Q E (MonadExcept.ofExcept x : Deriving α) := by
  cases x with
  | error e => exact throw (hE e rfl)
  | ok a => exact pure (hQ a rfl)

/-- Steps for the items of a list give one result for each. -/
theorem mapM {f : α → Deriving β} {I : Cache → Prop} {R : Cache → α → β → Prop}
    (hR : ∀ a b c c', Δ c c' → R c a b → R c' a b) : ∀ {l : List α},
    (∀ a ∈ l, Takes Δ I (fun c b => I c ∧ R c a b) E (f a)) →
    Takes Δ I (fun c bs => I c ∧ List.Forall₂ (R c) l bs) E (l.mapM f)
  | [], _ => by
    rw [List.mapM_nil]
    exact pure fun c hc => ⟨hc, .nil⟩
  | a :: l, h => by
    rw [List.mapM_cons]
    refine (h a List.mem_cons_self).bind fun b => ?_
    have hl := mapM hR fun a' ha' => h a' (List.mem_cons_of_mem _ ha')
    refine (hl.frame (hR a b)).bind fun bs => ?_
    exact pure fun c hc => ⟨hc.1.1, .cons hc.2 hc.1.2⟩

end Takes

/-- Any change of the cache. -/
def Anyhow (_ _ : Cache) : Prop := True

instance : IsPreorder Cache Anyhow where
  refl _ := trivial
  trans _ _ _ _ _ := trivial

/-- What goes on in `x` keeps `I` of the cache. What `x` gives satisfies `Q`, and `x` is stopped
only if `E` holds. -/
def Meets {α : Type} (I : Cache → Prop) (E : Prop) (Q : α → Prop) (x : Deriving α) : Prop :=
  ∀ p : Progress, I p.cache → I (x.run.run p).2.cache ∧
    (∀ a, (x.run.run p).1 = .ok a → Q a) ∧ ∀ e, (x.run.run p).1 = .error e → E

namespace Meets

variable {α β : Type} {I : Cache → Prop} {E E' : Prop} {Q Q' : α → Prop} {R : β → Prop}

theorem iff_takes {x : Deriving α} : Meets I E Q x ↔
    Takes Anyhow I (fun c a => I c ∧ Q a) (fun c => I c ∧ E) x := by
  constructor
  · intro h p hp
    obtain ⟨hI, hQ, hE⟩ := h p hp
    exact ⟨trivial, fun a ha => ⟨hI, hQ a ha⟩, fun e he => ⟨hI, hE e he⟩⟩
  · intro h p hp
    obtain ⟨-, hQ, hE⟩ := h p hp
    refine ⟨?_, fun a ha => (hQ a ha).2, fun e he => (hE e he).2⟩
    cases hx : (x.run.run p).1 with
    | error e => exact (hE e hx).1
    | ok a => exact (hQ a hx).1

theorem pure {a : α} (h : Q a) : Meets I E Q (Pure.pure a : Deriving α) :=
  iff_takes.mpr (Takes.pure fun _ hc => ⟨hc, h⟩)

theorem bind {x : Deriving α} {f : α → Deriving β} (hx : Meets I E Q x)
    (hf : ∀ a, Q a → Meets I E R (f a)) : Meets I E R (x >>= f) := by
  refine iff_takes.mpr ((iff_takes.mp hx).bind fun a => ?_)
  rintro p ⟨hp, ha⟩
  exact iff_takes.mp (hf a ha) p hp

theorem mono {x : Deriving α} (hx : Meets I E Q x) (hE : E → E') (hQ : ∀ a, Q a → Q' a) :
    Meets I E' Q' x :=
  iff_takes.mpr ((iff_takes.mp hx).mono (fun _ hc => hc) (fun _ a h => h.imp_right (hQ a))
    fun _ h => h.imp_right hE)

end Meets

end Deriving

end RowSchema
