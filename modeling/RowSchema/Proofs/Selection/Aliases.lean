import Mathlib
import RowSchema.Proofs.Selection.Bound

/-! # Distinct aliases

The aliases of a list of names are pairwise distinct, whatever the names look like: a candidate may
be another name, or one that has been made of another name before. Every number is the least that
is free, and of one more candidate than there are taken names one is free. -/

namespace RowSchema

namespace Alias

theorem numbered_injective (name : String) : Function.Injective (numbered name) := by
  intro i j h
  exact Nat.repr_injective ((String.append_right_inj _).mp h)

/-! ## The next number -/

/-- The least number above `n` that makes of the name none of the taken ones. -/
structure Next (taken : List String) (name : String) (n i : Nat) : Prop where
  above : n < i
  free : numbered name i ∉ taken
  least : ∀ j, n < j → j < i → numbered name j ∈ taken

theorem Next.congr {taken taken' : List String} {name : String} {n i : Nat}
    (h : Next taken name n i) (htaken : ∀ other, other ∈ taken ↔ other ∈ taken') :
    Next taken' name n i :=
  ⟨h.above, fun hmem => h.free ((htaken _).mpr hmem),
    fun j hj hji => (htaken _).mp (h.least j hj hji)⟩

/-- Not all of more candidates than there are taken names are taken. -/
theorem exists_free (taken : List String) (name : String) (n : Nat) :
    ∃ i, n < i ∧ i < n + 1 + (taken.length + 1) ∧ numbered name i ∉ taken := by
  by_contra hnone
  have hcandidates : ((List.range' (n + 1) (taken.length + 1)).map (numbered name)).Nodup :=
    List.Nodup.map (numbered_injective name) (List.nodup_range' 1)
  have hsubset : (List.range' (n + 1) (taken.length + 1)).map (numbered name) ⊆ taken := by
    intro candidate hcandidate
    obtain ⟨i, hi, rfl⟩ := List.mem_map.mp hcandidate
    obtain ⟨hlow, hhigh⟩ := List.mem_range'_1.mp hi
    by_contra hfree
    exact hnone ⟨i, hlow, hhigh, hfree⟩
  have hle := (List.subperm_of_subset hcandidates hsubset).length_le
  rw [List.length_map, List.length_range'] at hle
  omega

/-- The search ends at a free candidate, so that its default is never reached. -/
theorem nextFree_next (taken : List String) (name : String) (n : Nat) :
    Next taken name n (nextFree taken name n) := by
  unfold nextFree
  cases hfind : (List.range' (n + 1) (taken.length + 1)).find? fun i =>
      !taken.contains (numbered name i) with
  | none =>
    obtain ⟨i, hlow, hhigh, hfree⟩ := exists_free taken name n
    have htaken := List.find?_range'_eq_none.mp hfind i hlow hhigh
    simp [hfree] at htaken
  | some i =>
    obtain ⟨hfree, hi, hleast⟩ := List.find?_range'_eq_some.mp hfind
    refine ⟨(List.mem_range'_1.mp hi).1, by simpa using hfree, ?_⟩
    intro j hlow hji
    simpa using hleast j hlow hji

/-! ## Numberings -/

/-- What a name becomes at its occurrence after `k` others, where `before` are the aliases given so
far: itself if it occurs once, and otherwise its candidate with the least number above the last one
that is neither one of the names nor given so far. -/
structure Given (names before : List String) (index : Nat → Nat) (name : String) (k : Nat)
    (candidate : String) : Prop where
  once : names.count name = 1 → candidate = name
  numbered : names.count name ≠ 1 → candidate = numbered name (index (k + 1))
  next : names.count name ≠ 1 → Next (names ++ before) name (index k) (index (k + 1))

theorem Given.congr {names before : List String} {index index' : Nat → Nat}
    {name candidate : String} {k : Nat} (h : Given names before index name k candidate)
    (hlast : index' k = index k) (hnext : index' (k + 1) = index (k + 1)) :
    Given names before index' name k candidate :=
  ⟨h.once, fun hn => hnext ▸ h.numbered hn, fun hn => hlast ▸ hnext ▸ h.next hn⟩

/-- The names that are done have these aliases, for some numbers of the occurrences of each name,
counted from zero. -/
structure Numbering (names done aliases : List String) (index : String → Nat → Nat) : Prop where
  length : aliases.length = done.length
  given : ∀ (p : Nat) (name candidate : String), done[p]? = some name →
    aliases[p]? = some candidate →
    Given names (aliases.take p) (index name) name ((done.take p).count name) candidate
  start : ∀ name, index name 0 = 0

/-- An occurrence is not among those before it. -/
theorem count_take_lt {done : List String} {p : Nat} {name : String} (h : done[p]? = some name) :
    (done.take p).count name < done.count name := by
  have hsucc : (done.take (p + 1)).count name = (done.take p).count name + 1 := by
    rw [List.take_add_one, h, Option.toList_some, List.count_append, List.count_singleton_self]
  have hle := (List.take_sublist (p + 1) done).count_le name
  omega

/-- The occurrence after `k` others. -/
theorem exists_occurrence {name : String} {done : List String} {k : Nat}
    (hk : k < done.count name) :
    ∃ p : Nat, done[p]? = some name ∧ (done.take p).count name = k := by
  induction done generalizing k with
  | nil => cases hk
  | cons first rest ih =>
    by_cases hfirst : first = name
    · subst hfirst
      rw [List.count_cons_self] at hk
      cases k with
      | zero => exact ⟨0, rfl, rfl⟩
      | succ k =>
        obtain ⟨p, hp, hcount⟩ := ih (Nat.lt_of_succ_lt_succ hk)
        exact ⟨p + 1, hp, by rw [List.take_succ_cons, List.count_cons_self, hcount]⟩
    · rw [List.count_cons_of_ne hfirst] at hk
      obtain ⟨p, hp, hcount⟩ := ih hk
      exact ⟨p + 1, hp, by rw [List.take_succ_cons, List.count_cons_of_ne hfirst, hcount]⟩

/-- An item of a list with one more item is one of the list or the last. -/
theorem getElem?_concat_eq_some {l : List String} {last x : String} {p : Nat}
    (h : (l ++ [last])[p]? = some x) : l[p]? = some x ∧ p < l.length ∨ p = l.length ∧ x = last := by
  rcases Nat.lt_or_ge p l.length with hlt | hge
  · rw [List.getElem?_append_left hlt] at h
    exact .inl ⟨h, hlt⟩
  · rw [List.getElem?_append_right hge, List.getElem?_singleton] at h
    split at h
    · exact .inr ⟨by omega, (Option.some.inj h).symm⟩
    · cases h

namespace Numbering

variable {names done aliases : List String} {index : String → Nat → Nat} {name : String}

theorem nil (names : List String) : Numbering names [] [] fun _ _ => 0 := by
  refine ⟨rfl, ?_, fun _ => rfl⟩
  intro p name candidate hp
  cases hp

/-- One more name gets its alias. Numbers of later occurrences only may change. -/
theorem concat {candidate : String} {index' : String → Nat → Nat}
    (h : Numbering names done aliases index)
    (hindex : ∀ other k, k ≤ done.count other → index' other k = index other k)
    (hgiven : Given names aliases (index' name) name (done.count name) candidate) :
    Numbering names (done ++ [name]) (aliases ++ [candidate]) index' := by
  refine ⟨by simp [h.length], ?_, fun other => (hindex other 0 (Nat.zero_le _)).trans (h.start _)⟩
  intro p other alias' hother halias
  rcases getElem?_concat_eq_some hother with ⟨hother, hlt⟩ | ⟨rfl, rfl⟩
  · have hlt' : p < aliases.length := h.length ▸ hlt
    rw [List.getElem?_append_left hlt'] at halias
    rw [List.take_append_of_le_length hlt.le, List.take_append_of_le_length hlt'.le]
    have hcount := count_take_lt hother
    exact (h.given p other alias' hother halias).congr (hindex _ _ hcount.le) (hindex _ _ hcount)
  · rw [← h.length, List.getElem?_concat_length] at halias
    cases halias
    rw [List.take_left, ← h.length, List.take_left]
    exact hgiven

end Numbering

/-- The names that are taken are those there are and the aliases given so far. -/
theorem mem_taken_concat {names aliases taken : List String} {candidate : String}
    (htaken : ∀ other, other ∈ taken ↔ other ∈ names ++ aliases) (other : String) :
    other ∈ candidate :: taken ↔ other ∈ names ++ (aliases ++ [candidate]) := by
  rw [List.mem_cons, htaken, ← List.append_assoc, List.mem_append (t := [candidate]),
    List.mem_singleton, or_comm]

/-- What is left to assign continues the numbering of the names that are done. -/
theorem assign_numbering {names : List String} {rest : List String} :
    ∀ {done aliases taken : List String} {used : String → Nat} {index : String → Nat → Nat},
    names = done ++ rest → Numbering names done aliases index →
    (∀ other, other ∈ taken ↔ other ∈ names ++ aliases) →
    (∀ other, names.count other ≠ 1 → used other = index other (done.count other)) →
    ∃ index', Numbering names names (aliases ++ assign names taken used rest) index' := by
  induction rest with
  | nil =>
    intro done aliases taken used index hnames h _ _
    rw [List.append_nil] at hnames
    subst hnames
    exact ⟨index, by rwa [assign, List.append_nil]⟩
  | cons name rest ih =>
    intro done aliases taken used index hnames h htaken hused
    have hnames' : names = (done ++ [name]) ++ rest := by rw [hnames, List.append_cons]
    have hother : ∀ other, other ≠ name → (done ++ [name]).count other = done.count other := by
      intro other hne
      rw [List.count_append, List.count_singleton, if_neg (by simpa using hne.symm), Nat.add_zero]
    rw [assign]
    split
    · rename_i honce
      have honce : names.count name = 1 := eq_of_beq honce
      have hgiven : Given names aliases (index name) name (done.count name) name :=
        ⟨fun _ => rfl, fun hn => absurd honce hn, fun hn => absurd honce hn⟩
      rw [List.append_cons]
      refine ih hnames' (h.concat (fun _ _ _ => rfl) hgiven) ?_ ?_
      · -- the name itself has been taken from the start
        intro other
        rw [← mem_taken_concat htaken, List.mem_cons, or_iff_right_of_imp]
        rintro rfl
        exact (htaken _).mpr (List.mem_append_left _ (hnames' ▸ by simp))
      · intro other hn
        rw [hused other hn, hother other fun heq => hn (heq ▸ honce)]
    · rename_i hoften
      have hoften : names.count name ≠ 1 := by simpa using hoften
      have hnext := (nextFree_next taken name (used name)).congr htaken
      extract_lets n candidate
      -- the number of this occurrence, beside those given before
      let index' := Function.update index name
        (Function.update (index name) (done.count name + 1) n)
      have hnew : index' name (done.count name + 1) = n := by simp [index']
      have hindex : ∀ other k, k ≤ done.count other → index' other k = index other k := by
        intro other k hk
        by_cases heq : other = name
        · subst heq
          simp [index', Function.update_of_ne (Nat.ne_of_lt (Nat.lt_succ_of_le hk))]
        · simp [index', heq]
      have hgiven : Given names aliases (index' name) name (done.count name) candidate := by
        refine ⟨fun honce => absurd honce hoften, fun _ => by rw [hnew], fun _ => ?_⟩
        rw [hnew, hindex _ _ (Nat.le_refl _), ← hused name hoften]
        exact hnext
      rw [List.append_cons]
      refine ih hnames' (h.concat hindex hgiven) (mem_taken_concat htaken) ?_
      intro other hn
      split
      · rename_i heq
        rw [eq_of_beq heq, List.count_append, List.count_singleton_self, hnew]
      · rename_i hne
        have hne : other ≠ name := by simpa using hne
        rw [hother other hne, hindex other _ (Nat.le_refl _), hused other hn]

/-- Every alias is the name itself or its candidate with the next number. -/
theorem disambiguate_numbering (names : List String) :
    ∃ index, Numbering names names (disambiguate names) index :=
  assign_numbering (List.nil_append names).symm (.nil names) (fun _ => by rw [List.append_nil])
    fun _ _ => rfl

namespace Numbering

variable {names aliases : List String} {index : String → Nat → Nat} {name : String}

/-- The numbers of a repeated name grow from each of its occurrences to the next. -/
theorem index_lt (h : Numbering names names aliases index) (hn : names.count name ≠ 1) {j k : Nat}
    (hjk : j < k) (hk : k ≤ names.count name) : index name j < index name k := by
  have hstep : ∀ i, i < names.count name → index name i < index name (i + 1) := by
    intro i hi
    obtain ⟨p, hp, rfl⟩ := exists_occurrence hi
    have hlt : p < aliases.length := h.length ▸ (List.getElem?_eq_some_iff.mp hp).1
    exact ((h.given p name _ hp (List.getElem?_eq_getElem hlt)).next hn).above
  induction hjk with
  | refl => exact hstep j hk
  | step _ ih => exact (ih (Nat.le_of_succ_le hk)).trans (hstep _ hk)

/-- No alias is given twice: one that is a name itself is that of no other occurrence, and a
candidate is neither a name nor an alias given before. -/
theorem nodup (h : Numbering names names aliases index) : aliases.Nodup := by
  rw [List.nodup_iff_getElem?_ne_getElem?]
  intro p q hpq hq heq
  have hsecond := List.getElem?_eq_getElem hq
  have hfirst := heq.trans hsecond
  generalize aliases[q] = candidate at hfirst hsecond
  have hnames : ∀ i, i < aliases.length → ∃ name, names[i]? = some name := fun i hi =>
    ⟨_, List.getElem?_eq_getElem (h.length ▸ hi)⟩
  obtain ⟨name, hname⟩ := hnames p (hpq.trans hq)
  obtain ⟨other, hother⟩ := hnames q hq
  have hgiven := h.given p name candidate hname hfirst
  have hgiven' := h.given q other candidate hother hsecond
  have hbefore : candidate ∈ aliases.take q :=
    List.mem_of_getElem? ((List.getElem?_take_of_lt hpq).trans hfirst)
  by_cases honce' : names.count other = 1
  · obtain rfl := hgiven'.once honce'
    by_cases honce : names.count name = 1
    · -- one name would stand at both positions
      obtain rfl := hgiven.once honce
      have hcount := count_take_lt hother
      have hmem : candidate ∈ names.take q :=
        List.mem_of_getElem? ((List.getElem?_take_of_lt hpq).trans hname)
      have := List.count_pos_iff.mpr hmem
      omega
    · refine (hgiven.next honce).free (List.mem_append_left _ ?_)
      rw [← hgiven.numbered honce]
      exact List.mem_of_getElem? hother
  · refine (hgiven'.next honce').free (List.mem_append_right _ ?_)
    rwa [← hgiven'.numbered honce']

end Numbering

end Alias

/-! ## The aliases of catalogs -/

/-- A projection has the aliases it is given, as far as there are expressions. -/
theorem Projection.aliases_ofExpressions_initial (aliases : List String)
    (expressions : List SqlExpr) : (ofExpressions aliases expressions).aliases <+: aliases := by
  induction aliases generalizing expressions with
  | nil => exact List.nil_prefix
  | cons first rest ih =>
    cases expressions with
    | nil => exact List.nil_prefix
    | cons expression expressions => exact List.cons_prefix_cons.mpr ⟨rfl, ih expressions⟩

theorem aliasesOf_nodup (leaves : List Column) : (aliasesOf leaves).Nodup := by
  obtain ⟨index, h⟩ := Alias.disambiguate_numbering (leaves.map (·.name))
  exact h.nodup

theorem Projection.aliases_ofExpressions_nodup (leaves : List Column)
    (expressions : List SqlExpr) : (ofExpressions (aliasesOf leaves) expressions).aliases.Nodup :=
  (aliasesOf_nodup leaves).sublist (aliases_ofExpressions_initial _ _).sublist

/-- Names get as many aliases, of which no two are the same. A name that occurs once stays, and the
occurrences of any other one get increasing numbers, each the least for which the candidate is
neither a name nor an alias given before. So the aliases of a selection, of the projections it
makes, and of the columns of its table are distinct. -/
theorem aliases_distinct :
    (∀ names : List String, (Alias.disambiguate names).length = names.length ∧
      (Alias.disambiguate names).Nodup ∧
      ∃ index, Alias.Numbering names names (Alias.disambiguate names) index ∧
        ∀ name, names.count name ≠ 1 → ∀ j k, j < k → k ≤ names.count name →
          index name j < index name k) ∧
    ∀ g : Group, (aliasesOf g.leaves).Nodup ∧
      (∀ case supplies p, g.select case supplies = .ok p → p.aliases.Nodup) ∧
      ∀ qualifier, (Projection.ofTable g.leaves g.table qualifier).aliases.Nodup := by
  constructor
  · intro names
    obtain ⟨index, h⟩ := Alias.disambiguate_numbering names
    exact ⟨h.length, h.nodup, index, h, fun name hn j k hjk hk => h.index_lt hn hjk hk⟩
  · intro g
    refine ⟨aliasesOf_nodup _, ?_, fun _ => Projection.aliases_ofExpressions_nodup _ _⟩
    intro case supplies p h
    rw [Group.select_eq] at h
    obtain ⟨expressions, -, rfl⟩ := map_eq_ok.mp h
    exact Projection.aliases_ofExpressions_nodup _ _

/-- The first candidate of one name is another name. -/
example : Alias.disambiguate ["a", "a_1", "a", "a_1", "b"] =
    ["a_2", "a_1_1", "a_3", "a_1_2", "b"] := by
  decide +kernel

end RowSchema
