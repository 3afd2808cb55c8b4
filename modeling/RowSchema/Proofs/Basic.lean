import Mathlib.Data.List.Forall2

/-! # Lists side by side, and computations that may fail -/

namespace RowSchema

variable {α β γ : Type}

theorem exists_left_of_mem {R : α → β → Prop} {l : List α} {l' : List β}
    (h : List.Forall₂ R l l') {b : β} (hb : b ∈ l') : ∃ a ∈ l, R a b := by
  induction h with
  | nil => cases hb
  | cons hab _ ih =>
    rcases List.mem_cons.mp hb with rfl | hb
    · exact ⟨_, List.mem_cons_self, hab⟩
    · obtain ⟨a, ha, hR⟩ := ih hb
      exact ⟨a, List.mem_cons_of_mem _ ha, hR⟩

theorem exists_right_of_mem {R : α → β → Prop} {l : List α} {l' : List β}
    (h : List.Forall₂ R l l') {a : α} (ha : a ∈ l) : ∃ b ∈ l', R a b :=
  exists_left_of_mem h.flip ha

theorem exists_left_of_getElem? {R : α → β → Prop} {l : List α} {l' : List β}
    (h : List.Forall₂ R l l') {i : Nat} {b : β} (hb : l'[i]? = some b) :
    ∃ a, l[i]? = some a ∧ R a b := by
  obtain ⟨hi, rfl⟩ := List.getElem?_eq_some_iff.mp hb
  have hi' := h.length_eq ▸ hi
  exact ⟨l[i], List.getElem?_eq_getElem hi', (List.forall₂_iff_get.mp h).2 i hi' hi⟩

/-- What is side by side in three lists is so in the outer two. -/
theorem mem_zip_of_mem_zip_zip {a : α} {b : β} {c : γ} {as : List α} {bs : List β} {cs : List γ}
    (h : (a, b, c) ∈ as.zip (bs.zip cs)) : (a, c) ∈ as.zip cs := by
  induction as generalizing bs cs with
  | nil => cases h
  | cons a' as ih =>
    cases bs with
    | nil => cases h
    | cons b' bs =>
      cases cs with
      | nil => cases h
      | cons c' cs =>
        rcases List.mem_cons.mp h with h | h
        · cases h
          exact List.mem_cons_self
        · exact List.mem_cons_of_mem _ (ih h)

/-- If `R` determines what `P` says, a list related by `P` is the image of one related by `R`. -/
theorem eq_map_of_forall₂ {P : α → β → Prop} {R : α → γ → Prop} {f : γ → β} {l : List α}
    {bs : List β} {cs : List γ} (hP : List.Forall₂ P l bs) (hR : List.Forall₂ R l cs)
    (h : ∀ a b c, P a b → R a c → b = f c) : bs = cs.map f := by
  induction hP generalizing cs with
  | nil =>
    cases hR
    rfl
  | cons hab _ ih =>
    cases hR with
    | cons hac hrest => rw [List.map_cons, ← h _ _ _ hab hac, ← ih hrest]

/-- What is side by side with a list is so with what is side by side with that. -/
theorem forall₂_comp {P : α → β → Prop} {Q : β → γ → Prop} {R : α → γ → Prop} {as : List α}
    {bs : List β} {cs : List γ} (hP : List.Forall₂ P as bs) (hQ : List.Forall₂ Q bs cs)
    (h : ∀ a b c, P a b → Q b c → R a c) : List.Forall₂ R as cs := by
  induction hP generalizing cs with
  | nil =>
    cases hQ
    exact .nil
  | cons hab _ ih =>
    cases hQ with
    | cons hbc hrest => exact .cons (h _ _ _ hab hbc) (ih hrest)

variable {ε : Type}

theorem bind_eq_ok {x : Except ε α} {f : α → Except ε β} {b : β} :
    (x >>= f) = .ok b ↔ ∃ a, x = .ok a ∧ f a = .ok b := by
  cases x with
  | error e =>
    constructor
    · intro h
      cases h
    · rintro ⟨a, h, -⟩
      cases h
  | ok a =>
    constructor
    · intro h
      exact ⟨a, rfl, h⟩
    · rintro ⟨a', h, h'⟩
      cases h
      exact h'

theorem map_eq_ok {x : Except ε α} {f : α → β} {b : β} :
    x.map f = .ok b ↔ ∃ a, x = .ok a ∧ f a = b := by
  cases x <;> simp [Except.map]

@[simp] theorem mapError_ok {ε' : Type} (f : ε → ε') (a : α) :
    (Except.ok a : Except ε α).mapError f = .ok a := rfl

@[simp] theorem mapError_error {ε' : Type} (f : ε → ε') (e : ε) :
    (Except.error e : Except ε α).mapError f = .error (f e) := rfl

/-- Steps for the items of a list give one result for each. -/
theorem mapM_eq_ok {f : α → Except ε β} {l : List α} {bs : List β} :
    l.mapM f = .ok bs ↔ List.Forall₂ (fun a b => f a = .ok b) l bs := by
  induction l generalizing bs with
  | nil =>
    rw [List.mapM_nil, List.forall₂_nil_left_iff]
    constructor
    · intro h
      cases h
      rfl
    · rintro rfl
      rfl
  | cons a l ih =>
    rw [List.mapM_cons, bind_eq_ok, List.forall₂_cons_left_iff]
    constructor
    · rintro ⟨b, hb, h⟩
      obtain ⟨rest, hrest, h⟩ := bind_eq_ok.mp h
      cases h
      exact ⟨b, rest, hb, ih.mp hrest, rfl⟩
    · rintro ⟨b, rest, hb, hrest, rfl⟩
      exact ⟨b, hb, bind_eq_ok.mpr ⟨rest, ih.mpr hrest, rfl⟩⟩

/-- Steps that agree item by item agree together. -/
theorem mapM_map_eq {δ : Type} {g : α → γ} {k : α → Except ε β} {k' : γ → Except ε δ} {e : β → δ}
    {l : List α} (h : ∀ a ∈ l, k' (g a) = (k a).map e) :
    (l.map g).mapM k' = (l.mapM k).map (List.map e) := by
  induction l with
  | nil => rfl
  | cons a l ih =>
    obtain ⟨hfirst, hrest⟩ := List.forall_mem_cons.mp h
    rw [List.map_cons, List.mapM_cons, List.mapM_cons, hfirst, ih hrest]
    cases k a with
    | error e => rfl
    | ok b => cases l.mapM k <;> rfl

/-- Steps that never fail do not fail together. -/
theorem exists_mapM_eq_ok {f : α → Except ε β} {l : List α}
    (h : ∀ a ∈ l, ∃ b, f a = .ok b) : ∃ bs, l.mapM f = .ok bs := by
  simp only [mapM_eq_ok]
  induction l with
  | nil => exact ⟨[], .nil⟩
  | cons a l ih =>
    obtain ⟨hfirst, hrest⟩ := List.forall_mem_cons.mp h
    obtain ⟨b, hb⟩ := hfirst
    obtain ⟨bs, hbs⟩ := ih hrest
    exact ⟨b :: bs, .cons hb hbs⟩

/-- Where no result is picked as an error, every item has one. -/
theorem forall₂_of_no_error {f : α → Except ε β} {error? : Except ε β → Option ε}
    (herror : ∀ d, error? (.error d) = some d) {l : List α}
    (h : (l.map f).filterMap error? = []) :
    List.Forall₂ (fun a b => f a = .ok b) l ((l.map f).filterMap Except.toOption) := by
  induction l with
  | nil => exact .nil
  | cons a l ih =>
    rw [List.map_cons, List.filterMap_eq_nil_iff] at h
    obtain ⟨hfirst, hrest⟩ := List.forall_mem_cons.mp h
    cases hf : f a with
    | error d =>
      rw [hf, herror] at hfirst
      cases hfirst
    | ok b =>
      rw [List.map_cons, hf]
      exact .cons hf (ih (List.filterMap_eq_nil_iff.mpr hrest))

end RowSchema
