import Mathlib.Data.List.Induction
import Mathlib.Data.List.Perm.Subperm
import RowSchema.Dictionary
import RowSchema.Proofs.Basic

/-! # Dictionaries

Putting entries one after another keeps every key once, with what was put last. -/

namespace RowSchema

namespace Dictionary

variable {κ α : Type} [BEq κ]

theorem ofList_concat (entries : List (κ × α)) (k : κ) (a : α) :
    ofList (entries ++ [(k, a)]) = (ofList entries).put k a := by
  rw [ofList, List.foldl_append]
  rfl

theorem put_of_not_has {d : Dictionary κ α} {k : κ} (h : d.has k = false) (a : α) :
    d.put k a = d ++ [(k, a)] := by
  induction d with
  | nil => rfl
  | cons e rest ih =>
    obtain ⟨l, b⟩ := e
    rw [has, get?] at h
    by_cases hk : (l == k) = true
    · rw [if_pos hk] at h
      cases h
    · rw [if_neg hk] at h
      rw [put, if_neg hk, ih h, List.cons_append]

theorem get?_concat (d : Dictionary κ α) (k l : κ) (a : α) :
    get? (d ++ [(k, a)]) l = (d.get? l).or (if k == l then some a else none) := by
  induction d with
  | nil => rfl
  | cons e rest ih =>
    rw [List.cons_append, get?, get?, ih]
    cases e.1 == l <;> rfl

omit [BEq κ] in
/-- The keys for which there is something. -/
theorem keys_filterMap (f : κ → Option α) (names : List κ) :
    keys (names.filterMap fun l => (f l).map (l, ·)) = names.filter fun l => (f l).isSome := by
  induction names with
  | nil => rfl
  | cons l rest ih =>
    rw [keys] at ih ⊢
    cases hf : f l with
    | none => simp [hf, ih]
    | some a => simp [hf, ih]

/-- The dictionary with each value changed. -/
def mapValues {β : Type} (g : α → β) (d : Dictionary κ α) : Dictionary κ β :=
  d.map fun (k, a) => (k, g a)

section

variable {β : Type} (g : α → β)

theorem get?_mapValues (d : Dictionary κ α) (k : κ) :
    (d.mapValues g).get? k = (d.get? k).map g := by
  induction d with
  | nil => rfl
  | cons e rest ih =>
    simp only [mapValues, List.map_cons, get?]
    split
    · rfl
    · exact ih

theorem put_mapValues (d : Dictionary κ α) (k : κ) (a : α) :
    (d.mapValues g).put k (g a) = (d.put k a).mapValues g := by
  induction d with
  | nil => rfl
  | cons e rest ih =>
    simp only [mapValues, List.map_cons, put] at ih ⊢
    split
    · rfl
    · rw [List.map_cons, ih]

theorem ofList_mapValues (entries : List (κ × α)) :
    ofList (mapValues g entries) = (ofList entries).mapValues g := by
  induction entries using List.reverseRecOn with
  | nil => rfl
  | append_singleton entries e ih =>
    obtain ⟨k, a⟩ := e
    have hlast : mapValues g (entries ++ [(k, a)]) = mapValues g entries ++ [(k, g a)] :=
      List.map_append
    rw [hlast, ofList_concat, ofList_concat, ih, put_mapValues]

end

variable [LawfulBEq κ]

theorem mem_of_get? {d : Dictionary κ α} {k : κ} {a : α} (h : d.get? k = some a) : (k, a) ∈ d := by
  induction d with
  | nil => cases h
  | cons e rest ih =>
    obtain ⟨l, b⟩ := e
    rw [get?] at h
    by_cases hk : l == k
    · rw [if_pos hk] at h
      cases h
      rw [eq_of_beq hk]
      exact List.mem_cons_self
    · rw [if_neg hk] at h
      exact List.mem_cons_of_mem _ (ih h)

theorem get?_of_mem {d : Dictionary κ α} {k : κ} {a : α} (hnodup : d.keys.Nodup)
    (h : (k, a) ∈ d) : d.get? k = some a := by
  induction d with
  | nil => cases h
  | cons e rest ih =>
    obtain ⟨l, b⟩ := e
    rw [keys, List.map_cons, List.nodup_cons] at hnodup
    rw [get?]
    rcases List.mem_cons.mp h with h | h
    · cases h
      rw [if_pos (beq_self_eq_true k)]
    · have hne : l ≠ k := by
        rintro rfl
        exact hnodup.1 (List.mem_map.mpr ⟨_, h, rfl⟩)
      rw [if_neg (by simpa using hne)]
      exact ih hnodup.2 h

theorem has_iff_mem_keys {d : Dictionary κ α} {k : κ} : d.has k = true ↔ k ∈ d.keys := by
  induction d with
  | nil => simp [has, get?, keys]
  | cons e rest ih =>
    obtain ⟨l, b⟩ := e
    rw [keys, List.map_cons, List.mem_cons, has, get?]
    by_cases hk : l == k
    · rw [if_pos hk]
      simp [eq_of_beq hk]
    · rw [if_neg hk]
      have hne : k ≠ l := by
        rintro rfl
        exact hk (beq_self_eq_true k)
      rw [or_iff_right hne]
      exact ih

theorem get?_eq_none_iff {d : Dictionary κ α} {k : κ} : d.get? k = none ↔ k ∉ d.keys := by
  rw [← has_iff_mem_keys, has, Bool.not_eq_true, Option.isSome_eq_false_iff,
    Option.isNone_iff_eq_none]

/-- The order of entries with different keys makes no difference to what is looked up. -/
theorem get?_of_perm {d d' : Dictionary κ α} (h : d.Perm d') (hnodup : d.keys.Nodup) (k : κ) :
    d.get? k = d'.get? k := by
  have hkeys : d.keys.Perm d'.keys := h.map _
  cases hget : Dictionary.get? d' k with
  | none =>
    rw [get?_eq_none_iff] at hget ⊢
    exact fun hk => hget (hkeys.mem_iff.mp hk)
  | some a => exact get?_of_mem hnodup (h.mem_iff.mpr (mem_of_get? hget))

/-! ## One more entry -/

theorem has_put (d : Dictionary κ α) (k l : κ) (a : α) :
    (d.put k a).has l = (l == k || d.has l) := by
  by_cases hl : l = k
  · simp [has, hl, get?_put_self]
  · simp [has, hl, get?_put_of_ne]

/-- What is in a dictionary after an entry is put is that entry or was there before. -/
theorem get?_put_eq {d : Dictionary κ α} {k l : κ} {a b : α} (h : (d.put k a).get? l = some b) :
    (l = k ∧ b = a) ∨ d.get? l = some b := by
  by_cases hl : l = k
  · subst hl
    rw [get?_put_self] at h
    exact .inl ⟨rfl, (Option.some.inj h).symm⟩
  · rw [get?_put_of_ne d a hl] at h
    exact .inr h

/-- What is not in a dictionary after an entry is put is another key, and was not there before. -/
theorem get?_eq_none_of_put {d : Dictionary κ α} {k l : κ} {a : α}
    (h : (d.put k a).get? l = none) : l ≠ k ∧ d.get? l = none := by
  have hne : l ≠ k := by
    rintro rfl
    rw [get?_put_self] at h
    cases h
  rw [get?_put_of_ne d a hne] at h
  exact ⟨hne, h⟩

theorem nodup_keys_put {d : Dictionary κ α} (h : d.keys.Nodup) (k : κ) (a : α) :
    (d.put k a).keys.Nodup := by
  rw [keys_put]
  split
  · exact h
  · rename_i hk
    rw [List.nodup_append]
    refine ⟨h, by simp, ?_⟩
    rintro l hl _ hk' rfl
    obtain rfl := List.mem_singleton.mp hk'
    obtain ⟨⟨l, b⟩, hmem, rfl⟩ := List.mem_map.mp hl
    rw [has, get?_of_mem h hmem] at hk
    exact hk rfl

theorem mem_keys_put {d : Dictionary κ α} {k l : κ} {a : α} :
    l ∈ (d.put k a).keys ↔ l ∈ d.keys ∨ l = k := by
  rw [keys_put]
  split
  · rename_i hk
    constructor
    · exact .inl
    · rintro (hl | rfl)
      · exact hl
      · exact has_iff_mem_keys.mp hk
  · rw [List.mem_append, List.mem_singleton]

theorem isSome_get?_put {d : Dictionary κ α} {l : κ} (h : (d.get? l).isSome = true) (k : κ)
    (a : α) : ((d.put k a).get? l).isSome = true := by
  by_cases hl : l = k
  · rw [hl, get?_put_self]
    rfl
  · rwa [get?_put_of_ne _ _ hl]

/-! ## Entries in order -/

theorem nodup_keys_ofList (entries : List (κ × α)) : (ofList entries).keys.Nodup := by
  induction entries using List.reverseRecOn with
  | nil => exact List.nodup_nil
  | append_singleton entries e ih =>
    rw [ofList_concat]
    exact nodup_keys_put ih _ _

theorem mem_keys_ofList {entries : List (κ × α)} {k : κ} :
    k ∈ (ofList entries).keys ↔ k ∈ entries.map (·.1) := by
  induction entries using List.reverseRecOn with
  | nil => exact Iff.rfl
  | append_singleton entries e ih =>
    rw [ofList_concat, mem_keys_put, ih, List.map_append, List.mem_append, List.map_singleton,
      List.mem_singleton]

/-- Nothing is lost just if no key is put twice. -/
theorem length_ofList_eq_iff (entries : List (κ × α)) :
    (ofList entries).length = entries.length ↔ (entries.map (·.1)).Nodup := by
  have hkeys : (ofList entries).keys.length = (ofList entries).length := List.length_map _
  have hentries : (entries.map (·.1)).length = entries.length := List.length_map _
  have hsub := List.subperm_of_subset (nodup_keys_ofList entries) fun _ => mem_keys_ofList.mp
  constructor
  · intro h
    have hperm := hsub.perm_of_length_le (by omega)
    exact hperm.nodup_iff.mp (nodup_keys_ofList entries)
  · intro hnodup
    have hback := List.subperm_of_subset hnodup fun _ => mem_keys_ofList.mpr
    have hle := hsub.length_le
    have hge := hback.length_le
    omega

/-- What is put last under a key stays there. -/
theorem get?_ofList_of_last {before after : List (κ × α)} {k : κ} {a : α}
    (h : k ∉ after.map (·.1)) : (ofList (before ++ (k, a) :: after)).get? k = some a := by
  induction after using List.reverseRecOn with
  | nil => rw [ofList_concat, get?_put_self]
  | append_singleton after e ih =>
    rw [List.map_append, List.mem_append, not_or, List.map_singleton, List.mem_singleton] at h
    rw [← List.cons_append, ← List.append_assoc, ofList_concat, get?_put_of_ne _ _ h.2]
    exact ih h.1

theorem get?_ofList_of_getElem? {entries : List (κ × α)} {i : Nat} {k : κ} {a : α}
    (hi : entries[i]? = some (k, a)) (h : k ∉ (entries.drop (i + 1)).map (·.1)) :
    (ofList entries).get? k = some a := by
  obtain ⟨hlt, hget⟩ := List.getElem?_eq_some_iff.mp hi
  rw [← List.take_append_drop i entries, List.drop_eq_getElem_cons hlt, hget]
  exact get?_ofList_of_last h

/-- The keys stand in the order in which they were first put. -/
theorem keys_ofList (entries : List (κ × α)) :
    (ofList entries).keys = (entries.map (·.1)).eraseDups := by
  induction entries using List.reverseRecOn with
  | nil => simp [ofList, keys]
  | append_singleton entries e ih =>
    obtain ⟨k, a⟩ := e
    rw [ofList_concat, keys_put, List.map_append, List.eraseDups_append, ih]
    by_cases hk : (ofList entries).has k = true
    · have hmem : k ∈ entries.map (·.1) := mem_keys_ofList.mp (has_iff_mem_keys.mp hk)
      simp [hk, List.removeAll, hmem]
    · have hmem : k ∉ entries.map (·.1) :=
        fun h => hk (has_iff_mem_keys.mpr (mem_keys_ofList.mpr h))
      simp [hk, List.removeAll, hmem, List.eraseDups_cons]

/-- Entries with different keys stay as they are. -/
theorem ofList_of_nodup {entries : List (κ × α)} (h : (entries.map (·.1)).Nodup) :
    ofList entries = entries := by
  induction entries using List.reverseRecOn with
  | nil => rfl
  | append_singleton entries e ih =>
    obtain ⟨k, a⟩ := e
    rw [List.map_append, List.nodup_append] at h
    obtain ⟨hnodup, -, hdisjoint⟩ := h
    have hfresh : Dictionary.has entries k = false := by
      rw [← Bool.not_eq_true, has_iff_mem_keys]
      exact fun hk => hdisjoint k hk k List.mem_cons_self rfl
    rw [ofList_concat, ih hnodup, put_of_not_has hfresh]

/-! ## Parts of a dictionary -/

theorem mem_of_mem_ofList {entries : List (κ × α)} {k : κ} {a : α}
    (h : (k, a) ∈ ofList entries) : (k, a) ∈ entries := by
  have hget := get?_of_mem (nodup_keys_ofList entries) h
  clear h
  induction entries using List.reverseRecOn with
  | nil => cases hget
  | append_singleton entries e ih =>
    rw [ofList_concat] at hget
    rcases get?_put_eq hget with ⟨rfl, rfl⟩ | hget
    · exact List.mem_append_right _ List.mem_cons_self
    · exact List.mem_append_left _ (ih hget)

/-- What a dictionary has of those names, in their order. -/
def restrict (d : Dictionary κ α) (names : List κ) : Dictionary κ α :=
  names.eraseDups.filterMap fun k => (d.get? k).map (k, ·)

/-- Names with what there is for each make a dictionary of what there is. -/
theorem get?_filterMap (f : κ → Option α) (names : List κ) (k : κ) :
    get? (names.filterMap fun l => (f l).map (l, ·)) k = if k ∈ names then f k else none := by
  induction names with
  | nil => rfl
  | cons l rest ih =>
    rw [List.filterMap_cons]
    by_cases hl : l = k
    · subst hl
      cases hget : f l with
      | none => simp [ih, hget]
      | some a => simp [get?]
    · cases hget : f l with
      | none => simp [ih, Ne.symm hl]
      | some a => simp [get?, ih, hl, Ne.symm hl]

theorem get?_restrict (d : Dictionary κ α) {names : List κ} {k : κ} (hk : k ∈ names) :
    (d.restrict names).get? k = d.get? k := by
  rw [restrict, get?_filterMap, if_pos (List.mem_eraseDups.mpr hk)]

theorem keys_restrict {d : Dictionary κ α} {names : List κ}
    (h : ∀ k ∈ names, (d.get? k).isSome = true) : (d.restrict names).keys = names.eraseDups := by
  have hall : ∀ k ∈ names.eraseDups, (d.get? k).isSome = true :=
    fun k hk => h k (List.mem_eraseDups.mp hk)
  rw [restrict]
  generalize names.eraseDups = distinct at hall
  induction distinct with
  | nil => rfl
  | cons k rest ih =>
    obtain ⟨hfirst, hrest⟩ := List.forall_mem_cons.mp hall
    obtain ⟨a, ha⟩ := Option.isSome_iff_exists.mp hfirst
    rw [List.filterMap_cons_some (by rw [ha]; rfl)]
    exact congrArg (k :: ·) (ih hrest)

/-- Names with what a dictionary has of them make the part of it with these names. -/
theorem ofList_eq_restrict {d : Dictionary κ α} {names : List κ} {pairs : List (κ × α)}
    (h : List.Forall₂ (fun k pair => pair.1 = k ∧ d.get? k = some pair.2) names pairs) :
    ofList pairs = d.restrict names := by
  have hnames : pairs.map (·.1) = names := by
    rw [← List.forall₂_eq_eq_eq, List.forall₂_map_left_iff]
    exact h.flip.imp fun _ _ hpair => hpair.1
  have hget : ∀ pair ∈ ofList pairs, (d.get? pair.1).map (pair.1, ·) = some pair := by
    intro pair hpair
    obtain ⟨k, -, rfl, hk⟩ := exists_left_of_mem h (mem_of_mem_ofList hpair)
    rw [hk]
    rfl
  rw [restrict, ← hnames, ← keys_ofList, keys, List.filterMap_map]
  exact (List.filterMap_some.symm.trans (List.filterMap_congr hget).symm)

end Dictionary

end RowSchema
