import RowSchema.Catalog

/-! # Sized catalogs

An entry states how many columns of a row it takes up. In a sized catalog the statement is true at
every depth: a plain column takes up one, and a column group as many as its members. The width of a
sized catalog is therefore the number of its leaves. -/

namespace RowSchema

mutual

/-- Every entry, at any depth, states its width as it is. -/
def Group.Sized : Group → Prop
  | .record catalog => catalog.Sized
  | .enum catalog => catalog.Sized

def Catalog.Sized : Catalog → Prop
  | { entries, .. } => Entry.AllSized entries

def Entry.AllSized : List Entry → Prop
  | [] => True
  | e :: rest => e.Sized ∧ Entry.AllSized rest

def Entry.Sized : Entry → Prop
  | ⟨column, none⟩ => column.width = 1
  | ⟨column, some members⟩ => column.width = members.width ∧ members.Sized

def EnumCatalog.Sized : EnumCatalog → Prop
  | { cases, .. } => CaseEntry.AllSized cases

def CaseEntry.AllSized : List CaseEntry → Prop
  | [] => True
  | c :: rest => c.Sized ∧ CaseEntry.AllSized rest

def CaseEntry.Sized : CaseEntry → Prop
  | { payload := none, .. } => True
  | { payload := some e, .. } => e.Sized

end

/-! ## Widths and leaves -/

mutual

/-- A sized group is as wide as it has leaves. -/
theorem Group.Sized.width_eq : ∀ {g : Group}, g.Sized → g.width = g.leaves.length
  | .record ⟨_, entries, _, _, _⟩, h => by
    rw [Group.Sized, Catalog.Sized] at h
    rw [Group.width, Catalog.width, Group.leaves, Catalog.leaves]
    exact Entry.AllSized.width_eq h
  | .enum ⟨_, cases, _, _, _⟩, h => by
    rw [Group.Sized, EnumCatalog.Sized] at h
    rw [Group.width, EnumCatalog.width, Group.leaves, EnumCatalog.leaves]
    exact CaseEntry.AllSized.width_eq h

theorem Entry.AllSized.width_eq : ∀ {entries : List Entry}, Entry.AllSized entries →
    Entry.totalWidth entries = (Entry.leavesAll entries).length
  | [], _ => by simp [Entry.totalWidth, Entry.leavesAll]
  | e :: rest, h => by
    rw [Entry.AllSized] at h
    have he := Entry.Sized.width_eq h.1
    have hrest := Entry.AllSized.width_eq h.2
    simp only [Entry.totalWidth, Entry.leavesAll, List.length_append]
    omega

theorem Entry.Sized.width_eq : ∀ {e : Entry}, e.Sized → e.width = e.leaves.length
  | ⟨column, none⟩, h => by simpa [Entry.Sized, Entry.width, Entry.leaves] using h
  | ⟨column, some members⟩, h => by
    rw [Entry.Sized] at h
    have hm := Group.Sized.width_eq h.2
    rw [Entry.width, h.1, hm, Entry.leaves]
    split <;> simp

theorem CaseEntry.AllSized.width_eq : ∀ {cases : List CaseEntry}, CaseEntry.AllSized cases →
    CaseEntry.totalWidth cases = (CaseEntry.leavesAll cases).length
  | [], _ => by simp [CaseEntry.totalWidth, CaseEntry.leavesAll]
  | c :: rest, h => by
    rw [CaseEntry.AllSized] at h
    have hc := CaseEntry.Sized.width_eq h.1
    have hrest := CaseEntry.AllSized.width_eq h.2
    simp only [CaseEntry.totalWidth, CaseEntry.leavesAll, List.length_append]
    omega

theorem CaseEntry.Sized.width_eq : ∀ {c : CaseEntry}, c.Sized → c.width = c.leaves.length
  | ⟨_, _, none⟩, _ => by simp [CaseEntry.width, CaseEntry.leaves]
  | ⟨_, _, some e⟩, h => by
    rw [CaseEntry.Sized] at h
    simpa [CaseEntry.width, CaseEntry.leaves] using Entry.Sized.width_eq h

end

theorem Group.Sized.width_nonneg {g : Group} (h : g.Sized) : 0 ≤ g.width := by
  rw [h.width_eq]; omega

theorem Entry.Sized.width_nonneg {e : Entry} (h : e.Sized) : 0 ≤ e.width := by
  rw [h.width_eq]; omega

theorem Entry.AllSized.width_nonneg {entries : List Entry} (h : Entry.AllSized entries) :
    0 ≤ Entry.totalWidth entries := by
  rw [h.width_eq]; omega

theorem CaseEntry.Sized.width_nonneg {c : CaseEntry} (h : c.Sized) : 0 ≤ c.width := by
  rw [h.width_eq]; omega

theorem CaseEntry.AllSized.width_nonneg {cases : List CaseEntry} (h : CaseEntry.AllSized cases) :
    0 ≤ CaseEntry.totalWidth cases := by
  rw [h.width_eq]; omega

/-! ## Parts of sized catalogs -/

theorem Entry.allSized_iff {entries : List Entry} :
    Entry.AllSized entries ↔ ∀ e ∈ entries, e.Sized := by
  induction entries with
  | nil => simp [Entry.AllSized]
  | cons e rest ih => simp [Entry.AllSized, ih]

theorem CaseEntry.allSized_iff {cases : List CaseEntry} :
    CaseEntry.AllSized cases ↔ ∀ c ∈ cases, c.Sized := by
  induction cases with
  | nil => simp [CaseEntry.AllSized]
  | cons c rest ih => simp [CaseEntry.AllSized, ih]

theorem Catalog.sized_iff {c : Catalog} : c.Sized ↔ ∀ e ∈ c.entries, e.Sized := by
  cases c
  rw [Catalog.Sized, Entry.allSized_iff]

theorem EnumCatalog.sized_iff {c : EnumCatalog} : c.Sized ↔ ∀ k ∈ c.cases, k.Sized := by
  cases c
  rw [EnumCatalog.Sized, CaseEntry.allSized_iff]

theorem Entry.Sized.members {e : Entry} (h : e.Sized) {g : Group} (hg : e.members = some g) :
    g.Sized := by
  obtain ⟨column, members⟩ := e
  obtain rfl : members = some g := hg
  rw [Entry.Sized] at h
  exact h.2

theorem CaseEntry.Sized.payload {c : CaseEntry} (h : c.Sized) {e : Entry}
    (he : c.payload = some e) : e.Sized := by
  obtain ⟨name, label, payload⟩ := c
  obtain rfl : payload = some e := he
  rwa [CaseEntry.Sized] at h

theorem Group.Sized.of_mem_entries {g : Group} (h : g.Sized) {e : Entry} (he : e ∈ g.entries) :
    e.Sized := by
  cases g with
  | record c =>
    rw [Group.Sized, Catalog.sized_iff] at h
    exact h e he
  | enum c =>
    rw [Group.Sized, EnumCatalog.sized_iff] at h
    obtain ⟨k, hk, hpayload⟩ := List.mem_filterMap.mp he
    obtain ⟨⟨column, members⟩, heq, rfl⟩ := Option.map_eq_some_iff.mp hpayload
    have hs := (h k hk).payload heq
    cases members with
    | none => simpa [Entry.nullable, Column.nullable, Entry.Sized] using hs
    | some g => simpa [Entry.nullable, Column.nullable, Entry.Sized] using hs

/-- Making a catalog a group changes no width. -/
theorem Group.Sized.asGroup {g : Group} (h : g.Sized) : g.asGroup.Sized := by
  cases g with
  | record c =>
    rw [Group.Sized, Catalog.sized_iff] at h
    rw [Group.asGroup, Group.Sized, Catalog.sized_iff]
    intro e he
    obtain ⟨e', he', rfl⟩ := List.mem_map.mp he
    have hs := h e' he'
    obtain ⟨column, members⟩ := e'
    cases members with
    | none => simpa [Entry.Sized] using hs
    | some g => simpa [Entry.Sized] using hs
  | enum c =>
    rw [Group.Sized, EnumCatalog.sized_iff] at h
    rw [Group.asGroup, Group.Sized, EnumCatalog.sized_iff]
    exact h

end RowSchema
