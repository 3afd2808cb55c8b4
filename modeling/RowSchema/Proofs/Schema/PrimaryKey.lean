import RowSchema.Proofs.Schema.Declared
import RowSchema.Proofs.Schema.Nullable

/-! # Primary keys

A table has at most one primary key: the field that claims it or else, by convention, the first one
named "id" that says nothing about it. A second claim is reported. The columns that a group brings
into a table are keys of no table but their own. -/

namespace RowSchema

variable {registry : Registry} {settings : Options} {r : Record}

/-! ## What fields say -/

/-- Whether the field claims or disclaims the key, if it says anything. -/
def Field.keyClaim? (f : Field) : Option Bool :=
  inColumn? (Argument.flag? "primaryKey") f.attributes

/-- Whether the field may be the key by convention. -/
structure Field.IsNamedKey (f : Field) : Prop where
  name : f.name = idField
  silent : f.keyClaim? = none
  plain : Attribute.named? "Columns" f.attributes = none

/-- The number of the field that is the primary key. -/
inductive KeyField (inferId : Bool) (fields : List Field) : Option Nat → Prop
  | claimed {i : Nat} {f : Field} (found : fields[i]? = some f)
      (claims : f.keyClaim? = some true)
      (only : ∀ j g, fields[j]? = some g → g.keyClaim? = some true → j = i) :
      KeyField inferId fields (some i)
  | named {i : Nat} {f : Field} (infer : inferId = true)
      (unclaimed : ∀ g ∈ fields, g.keyClaim? ≠ some true) (found : fields[i]? = some f)
      (named : f.IsNamedKey) (first : ∀ j g, j < i → fields[j]? = some g → ¬ g.IsNamedKey) :
      KeyField inferId fields (some i)
  | missing (unclaimed : ∀ g ∈ fields, g.keyClaim? ≠ some true)
      (unnamed : inferId = true → ∀ g ∈ fields, ¬ g.IsNamedKey) : KeyField inferId fields none

/-! ## Choosing a key -/

section

variable {f : Field} {spec : ColumnSpec}

theorem KeyClaim.isClaimed_iff (claim : KeyClaim) :
    claim.isClaimed = true ↔ claim.explicit? = some true := by
  cases claim <;> simp [KeyClaim.isClaimed, KeyClaim.explicit?]

theorem KeyClaim.unclaimed_iff (claim : KeyClaim) :
    claim = .unclaimed ↔ claim.explicit? = none := by
  cases claim <;> simp [KeyClaim.explicit?]

theorem ColumnSpec.OfField.isClaimed_iff (h : ColumnSpec.OfField f spec) :
    spec.key.isClaimed = true ↔ f.keyClaim? = some true := by
  rw [KeyClaim.isClaimed_iff, h.key]
  rfl

theorem ColumnSpec.OfField.isKeyByName_iff (h : ColumnSpec.OfField f spec) :
    isKeyByName spec = true ↔ f.IsNamedKey := by
  have hsilent : spec.key = .unclaimed ↔ f.keyClaim? = none := by
    rw [KeyClaim.unclaimed_iff, h.key]
    rfl
  rw [isKeyByName, Bool.and_eq_true, Bool.and_eq_true, beq_iff_eq, beq_iff_eq, hsilent, h.name,
    h.isGroup, Bool.not_eq_true', Option.isSome_eq_false_iff, Option.isNone_iff_eq_none]
  constructor
  · intro h
    exact ⟨h.1.1, h.1.2, h.2⟩
  · intro hnamed
    exact ⟨⟨hnamed.name, hnamed.silent⟩, hnamed.plain⟩

end

/-- If only one item of a list is kept, it stands at one place. -/
theorem eq_of_filter_singleton {α : Type} {p : α → Bool} {a : α} : ∀ {l : List α} {i j : Nat}
    {b c : α}, l.filter p = [a] → l[i]? = some b → l[j]? = some c → p b = true → p c = true →
    i = j
  | x :: l, i, j, b, c, h, hi, hj, hb, hc => by
    cases hx : p x with
    | true =>
      rw [List.filter_cons_of_pos hx, List.cons.injEq] at h
      have hnone := List.filter_eq_nil_iff.mp h.2
      have hzero {k : Nat} {d : α} (hk : (x :: l)[k]? = some d) (hd : p d = true) : k = 0 := by
        cases k with
        | zero => rfl
        | succ k => exact absurd hd (hnone d (List.mem_of_getElem? hk))
      rw [hzero hi hb, hzero hj hc]
    | false =>
      have hkept : ¬ p x = true := by simp [hx]
      rw [List.filter_cons_of_neg hkept] at h
      cases i with
      | zero => exact absurd (Option.some.inj hi ▸ hb) hkept
      | succ i =>
        cases j with
        | zero => exact absurd (Option.some.inj hj ▸ hc) hkept
        | succ j => rw [eq_of_filter_singleton h hi hj hb hc]

/-- The first of several claims. -/
theorem exists_claimed {specs : List ColumnSpec} {first : ColumnSpec} {rest : List ColumnSpec}
    (h : specs.filter (·.key.isClaimed) = first :: rest) :
    ∃ i spec, specs.findIdx? (·.key.isClaimed) = some i ∧ specs[i]? = some spec ∧
      spec.key.isClaimed = true := by
  have hfirst : first ∈ specs.filter (·.key.isClaimed) := h ▸ List.mem_cons_self
  have hany : specs.any (·.key.isClaimed) = true :=
    List.any_eq_true.mpr ⟨first, List.mem_filter.mp hfirst⟩
  rw [← List.findIdx?_isSome] at hany
  obtain ⟨i, hi⟩ := Option.isSome_iff_exists.mp hany
  obtain ⟨hlt, hclaims, -⟩ := List.findIdx?_eq_some_iff_getElem.mp hi
  exact ⟨i, specs[i], hi, List.getElem?_eq_getElem hlt, hclaims⟩

section

variable {fields : List Field} {specs : List ColumnSpec}
  (h : List.Forall₂ ColumnSpec.OfField fields specs)

include h

theorem KeyField.of_claimed {first : ColumnSpec}
    (hclaimed : specs.filter (·.key.isClaimed) = [first]) (inferId : Bool) :
    KeyField inferId fields (specs.findIdx? (·.key.isClaimed)) := by
  obtain ⟨i, spec, hi, hspec, hclaims⟩ := exists_claimed hclaimed
  obtain ⟨f, hf, hof⟩ := exists_left_of_getElem? h hspec
  rw [hi]
  refine .claimed hf (hof.isClaimed_iff.mp hclaims) fun j g hg hclaim => ?_
  obtain ⟨spec', hspec', hof'⟩ := exists_left_of_getElem? h.flip hg
  exact eq_of_filter_singleton hclaimed hspec' hspec (hof'.isClaimed_iff.mpr hclaim) hclaims

theorem KeyField.of_named (hunclaimed : ∀ g ∈ fields, g.keyClaim? ≠ some true) :
    KeyField true fields (specs.findIdx? isKeyByName) := by
  cases hfound : specs.findIdx? isKeyByName with
  | none =>
    refine .missing hunclaimed fun _ g hg hnamed => ?_
    obtain ⟨spec, hmem, hof⟩ := exists_right_of_mem h hg
    have hno := List.findIdx?_eq_none_iff.mp hfound spec hmem
    rw [hof.isKeyByName_iff.mpr hnamed] at hno
    cases hno
  | some i =>
    obtain ⟨hlt, hnamed, hfirst⟩ := List.findIdx?_eq_some_iff_getElem.mp hfound
    obtain ⟨f, hf, hof⟩ := exists_left_of_getElem? h (List.getElem?_eq_getElem hlt)
    refine .named rfl hunclaimed hf (hof.isKeyByName_iff.mp hnamed) fun j g hj hg hother => ?_
    obtain ⟨spec, hj', hof'⟩ := exists_left_of_getElem? h.flip hg
    obtain ⟨hlt', rfl⟩ := List.getElem?_eq_some_iff.mp hj'
    exact hfirst j hj (hof'.isKeyByName_iff.mpr hother)

/-- Where no claim is rejected, the key is the field that the record says it is. -/
theorem KeyField.of_selectKey (hrejected : (selectKey settings specs).2 = []) :
    KeyField settings.inferId fields (selectKey settings specs).1 := by
  unfold selectKey at hrejected ⊢
  split at hrejected
  · next first rejected hclaimed =>
    obtain rfl : rejected = [] := hrejected
    exact .of_claimed h hclaimed _
  · next hnone =>
    have hunclaimed : ∀ g ∈ fields, g.keyClaim? ≠ some true := by
      intro g hg hclaim
      obtain ⟨spec, hmem, hof⟩ := exists_right_of_mem h hg
      exact absurd (hof.isClaimed_iff.mpr hclaim) (List.filter_eq_nil_iff.mp hnone spec hmem)
    cases settings.inferId with
    | false => exact .missing hunclaimed nofun
    | true => exact .of_named h hunclaimed

end

/-! ## The key of a catalog -/

/-- Where a claim is rejected, another one is not. -/
theorem selectKey_rejected (settings : Options) (specs : List ColumnSpec) :
    (selectKey settings specs).2 = [] ∨
      ∃ first, (selectKey settings specs).1.bind (specs[·]?) = some first := by
  unfold selectKey
  split
  · next first rejected hclaimed =>
    obtain ⟨i, spec, hi, hspec, -⟩ := exists_claimed hclaimed
    exact .inr ⟨spec, by rw [hi, Option.bind_some, hspec]⟩
  · exact .inl rfl

theorem duplicateKey_isFatal (role : Role) (first spec : ColumnSpec) :
    (duplicateKey role first spec).isFatal = true := by
  unfold duplicateKey
  cases spec.key <;> rfl

/-- A record that is no selection has the key that is chosen for it, and every other claim is
reported. -/
theorem RecordOutline.key_clean {outline : RecordOutline}
    (h : RecordOutline.ofRecord settings r = .ok outline) (table : r.isSelection = false)
    (clean : Diagnostic.hasErrors outline.diagnostics = false) :
    outline.primary = (selectKey settings outline.specs).1 ∧
      (selectKey settings outline.specs).2 = [] := by
  unfold RecordOutline.ofRecord at h
  dsimp only at h
  obtain ⟨resolved, -, h⟩ := bind_eq_ok.mp h
  rw [table] at h
  cases h
  refine ⟨rfl, ?_⟩
  dsimp only at clean ⊢
  simp only [Diagnostic.hasErrors_append, Bool.or_eq_false_iff] at clean
  obtain ⟨-, hduplicates⟩ := clean
  rcases selectKey_rejected settings
    ((resolved.filterMap (·.1)).filter (!·.isEphemeral)) with hnone | ⟨first, hfirst⟩
  · exact hnone
  · rw [if_neg Bool.false_ne_true, hfirst] at hduplicates
    refine List.eq_nil_iff_forall_not_mem.mpr fun spec hspec => ?_
    exact absurd (List.mem_map_of_mem hspec)
      (Diagnostic.not_mem_of_clean hduplicates (duplicateKey_isFatal _ first spec))

/-! ## Columns that are keys -/

/-- No column of the group is a primary key. -/
def Group.Keyless (g : Group) : Prop := ∀ leaf ∈ g.leaves, leaf.isPrimaryKey = false

theorem Entry.leaves_of_members {e : Entry} {g : Group} (hg : e.members = some g)
    (hkeyless : g.Keyless) : ∀ leaf ∈ e.leaves, leaf.isPrimaryKey = false := by
  obtain ⟨column, members⟩ := e
  obtain rfl : members = some g := hg
  rw [Entry.leaves]
  split
  · exact List.forall_mem_map.mpr hkeyless
  · exact hkeyless

theorem Entry.leaves_keyless {e : Entry} (hplain : e.column.isPrimaryKey = false)
    (hmembers : ∀ g, e.members = some g → g.Keyless) :
    ∀ leaf ∈ e.leaves, leaf.isPrimaryKey = false := by
  obtain ⟨column, members⟩ := e
  cases members with
  | none =>
    rw [Entry.leaves]
    exact List.forall_mem_singleton.mpr hplain
  | some g => exact Entry.leaves_of_members rfl (hmembers g rfl)

/-- What is spliced in is no key of the record that it is spliced into. -/
theorem Composes.keyless {x : Derived}
    (h : Composes registry settings (fun _ y => y.catalog.asGroup.Keyless) r x) :
    x.catalog.asGroup.Keyless := by
  have hmembers {e : Entry} (he : e ∈ x.catalog.entries) (g : Group) (hg : e.members = some g) :
      g.Keyless := by
    obtain ⟨member, y, -, hy, rfl⟩ := h.entries_members he hg
    exact hy
  cases hx : x.catalog with
  | record c =>
    rw [hx] at hmembers
    intro leaf hleaf
    rw [Group.asGroup, Group.leaves, Catalog.leaves_eq, Entry.mem_leavesAll] at hleaf
    obtain ⟨e, he, hleaf⟩ := hleaf
    obtain ⟨e', he', rfl⟩ := List.mem_map.mp he
    refine Entry.leaves_keyless ?_ ?_ leaf hleaf
    · rfl
    · exact fun g hg => hmembers he' g hg
  | enum c =>
    rw [hx] at hmembers
    intro leaf hleaf
    obtain ⟨k, hk, e, he, hleaf⟩ := EnumCatalog.mem_leaves.mp hleaf
    obtain ⟨column, hcolumn, rfl⟩ := List.mem_map.mp hleaf
    have hentry : e.nullable ∈ (Group.enum c).entries :=
      List.mem_filterMap.mpr ⟨k, hk, by rw [he]; rfl⟩
    have hspliced : ∀ g, e.members = some g → g.Keyless := fun g hg => hmembers hentry g hg
    refine Entry.leaves_keyless ?_ hspliced column hcolumn
    obtain ⟨_, spec, type, members, -, -, rfl, -⟩ := h.mem_cases hx hk he
    cases members <;> rfl

/-- The columns of an entry that are keys: its own column, if that is one. -/
theorem Entry.key_leaves {e : Entry} (hplain : e.column.isPrimaryKey = true → e.members = none)
    (hspliced : ∀ g, e.members = some g → g.Keyless) :
    e.leaves.filter (·.isPrimaryKey) = ([e].filter (·.column.isPrimaryKey)).map (·.column) := by
  cases hkey : e.column.isPrimaryKey with
  | false =>
    rw [List.filter_cons_of_neg (by simp [hkey]), List.filter_eq_nil_iff.mpr]
    · rfl
    · intro leaf hleaf
      simp [Entry.leaves_keyless hkey hspliced leaf hleaf]
  | true =>
    obtain ⟨column, members⟩ := e
    obtain rfl : members = none := hplain hkey
    have hcolumn : column.isPrimaryKey = true := hkey
    simp [Entry.leaves, hcolumn]

/-- The keys of a catalog: the entry with that number alone is marked, it is a plain column, and no
other column of a row is marked, however deep it is in a group. -/
structure Catalog.HasKey (c : Catalog) (key : Option Nat) : Prop where
  marked : ∀ i e, c.entries[i]? = some e → (e.column.isPrimaryKey = true ↔ key = some i)
  plain : ∀ e ∈ c.entries, e.column.isPrimaryKey = true → e.members = none
  spliced : ∀ e ∈ c.entries, ∀ g, e.members = some g → g.Keyless

/-- The items that are kept, where that is the one with a number alone. -/
theorem filter_eq_of_marked {α : Type} {p : α → Bool} : ∀ {l : List α} {key : Option Nat},
    (∀ i a, l[i]? = some a → (p a = true ↔ key = some i)) →
    l.filter p = (key.bind (l[·]?)).toList
  | [], key, _ => by cases key <;> rfl
  | a :: l, none, h => by
    have hfirst : ¬ p a = true := by simp [h 0 a rfl]
    have hrest : l.filter p = ((none : Option Nat).bind (l[·]?)).toList :=
      filter_eq_of_marked fun i b hb => (h (i + 1) b hb).trans (by simp)
    rw [List.filter_cons_of_neg hfirst, hrest]
    rfl
  | a :: l, some 0, h => by
    have hrest : l.filter p = ((none : Option Nat).bind (l[·]?)).toList :=
      filter_eq_of_marked fun i b hb => (h (i + 1) b hb).trans (by simp)
    rw [List.filter_cons_of_pos ((h 0 a rfl).mpr rfl), hrest]
    rfl
  | a :: l, some (k + 1), h => by
    have hfirst : ¬ p a = true := by simp [h 0 a rfl]
    have hrest : l.filter p = ((some k).bind (l[·]?)).toList :=
      filter_eq_of_marked fun i b hb => (h (i + 1) b hb).trans (by simp)
    rw [List.filter_cons_of_neg hfirst, hrest]
    rfl

section

variable {c : Catalog} {key : Option Nat} (h : c.HasKey key)

include h

/-- The entry that is the key is the one with its number. -/
theorem Catalog.HasKey.primaryKey?_eq : c.primaryKey? = key.bind (c.entries[·]?) := by
  rw [Catalog.primaryKey?, ← List.head?_filter, filter_eq_of_marked h.marked, Option.head?_toList]

/-- The columns of a row that are keys are the column of that entry, if there is one. -/
theorem Catalog.HasKey.leaves_eq :
    c.leaves.filter (·.isPrimaryKey) = (c.primaryKey?.map (·.column)).toList := by
  rw [h.primaryKey?_eq, Option.toList_map, ← filter_eq_of_marked h.marked, Catalog.leaves_eq]
  have hplain := h.plain
  have hspliced := h.spliced
  clear h
  generalize c.entries = entries at hplain hspliced ⊢
  induction entries with
  | nil => rfl
  | cons e rest ih =>
    obtain ⟨hfirst, hrest⟩ := List.forall_mem_cons.mp hplain
    obtain ⟨hfirst', hrest'⟩ := List.forall_mem_cons.mp hspliced
    rw [Entry.leavesAll, List.filter_append, ih hrest hrest', Entry.key_leaves hfirst hfirst',
      ← List.map_append, ← List.filter_append, List.singleton_append]

end

section Structs

variable {outline : RecordOutline} {members : List (Option Group)} {catalog : Catalog}
  {diagnostics : List Diagnostic} (outlined : RecordOutline.ofRecord settings r = .ok outline)
  (resolved : List.Forall₂ ColumnSpec.HasMembers outline.specs members)
  (built : outline.catalog r (members.map .ok) = (catalog, diagnostics))
  (clean : Diagnostic.hasErrors diagnostics = false)

include resolved built clean

theorem RecordOutline.getElem?_entries {i : Nat} {e : Entry} (h : catalog.entries[i]? = some e) :
    ∃ spec m, outline.specs[i]? = some spec ∧ spec.HasMembers m ∧
      e = RecordOutline.entry (outline.primary == some i) spec m := by
  rw [RecordOutline.entries_eq resolved built clean, List.getElem?_mapIdx,
    Option.map_eq_some_iff] at h
  obtain ⟨⟨spec, m⟩, hpair, rfl⟩ := h
  obtain ⟨hspec, hm⟩ := List.getElem?_zip_eq_some.mp hpair
  obtain ⟨spec', hspec', hmembers⟩ := exists_left_of_getElem? resolved hm
  obtain rfl : spec = spec' := Option.some.inj (hspec.symm.trans hspec')
  exact ⟨spec, m, hspec, hmembers, rfl⟩

include outlined

/-- The entry that is marked is the one with the number that the outline has chosen. -/
theorem RecordOutline.marked {i : Nat} {e : Entry} (h : catalog.entries[i]? = some e) :
    e.column.isPrimaryKey = true ↔ outline.primary = some i := by
  obtain ⟨spec, m, hspec, hm, rfl⟩ := RecordOutline.getElem?_entries resolved built clean h
  cases m with
  | none => exact beq_iff_eq
  | some g =>
    refine ⟨nofun, fun hprimary => ?_⟩
    obtain ⟨spec', hspec', hplain⟩ := RecordOutline.primary_plain outlined hprimary
    obtain rfl : spec = spec' := Option.some.inj (hspec.symm.trans hspec')
    rw [ColumnSpec.HasMembers, hplain] at hm
    cases hm

/-- The catalog of an outline has the key of the outline. -/
theorem RecordOutline.hasKey
    (hspliced : ∀ e ∈ catalog.entries, ∀ g, e.members = some g → g.Keyless) :
    catalog.HasKey outline.primary := by
  refine ⟨fun i e => RecordOutline.marked outlined resolved built clean, fun e he hkey => ?_,
    hspliced⟩
  obtain ⟨i, hi⟩ := List.getElem?_of_mem he
  obtain ⟨spec, m, -, -, rfl⟩ := RecordOutline.getElem?_entries resolved built clean hi
  cases m with
  | none => rfl
  | some g => cases hkey

end Structs

/-! ## Results -/

/-- A struct has one entry for each stored field, and as its key the entry of the field that is the
key of the record. It has a draft just if it has a key. -/
def Derived.Keyed (inferId : Bool) (x : Derived) : Prop :=
  ∃ c key, x.catalog = .record c ∧
    c.entries.map (·.column.field) = (x.record.fields.filter Field.isStored).map (·.name) ∧
    KeyField inferId (x.record.fields.filter Field.isStored) key ∧ c.HasKey key ∧
    x.draft.isSome = key.isSome

theorem Composes.keyed {x : Derived}
    (h : Composes registry settings (fun _ y => y.catalog.asGroup.Keyless) r x)
    (kind : r.kind = .struct) (table : r.isTable = true) (lasting : r.isSelection = false) :
    x.Keyed settings.inferId := by
  have hcomplete := h.complete
  have hmembers := @h.entries_members
  cases h with
  | @struct outline members catalog draft diagnostics draftDiagnostics annotated _ outlined
      resolved built clean drafted draftClean =>
    obtain ⟨hown, -, -⟩ := RecordOutline.catalog_clean built clean
    obtain ⟨hprimary, hrejected⟩ := RecordOutline.key_clean outlined lasting hown
    have hkey := KeyField.of_selectKey (RecordOutline.specs_clean outlined hown) hrejected
    rw [← hprimary] at hkey
    have hhas : catalog.HasKey outline.primary := by
      refine RecordOutline.hasKey outlined (resolved.imp fun _ _ => FieldResolves.hasMembers) built
        clean fun e he g hg => ?_
      obtain ⟨member, y, -, hy, rfl⟩ := hmembers he hg
      exact hy
    refine ⟨catalog, outline.primary, rfl, (hcomplete.struct catalog rfl).2.2, hkey, hhas, ?_⟩
    rw [Bool.eq_iff_iff, ← RecordOutline.primaryKey_isSome outlined resolved built clean,
      hcomplete.draft]
    constructor
    · rintro ⟨-, c, ⟨⟩, hc⟩
      exact hc
    · exact fun hc => ⟨table, catalog, rfl, hc⟩
  | enum annotated hkind =>
    rw [kind] at hkind
    cases hkind

namespace Schema

variable {s : Schema} {reference : Reference} {x : Derived}

/-- The primary key of a table is that of its record. No other column of its rows is a key, and it
has a draft just if it has a key. -/
theorem Reachable.primary_key (hs : s.Reachable) (hx : s.Yields reference x)
    (kind : x.record.kind = .struct) (table : x.record.isTable = true)
    (lasting : x.record.isSelection = false) :
    ∃ c key, x.catalog = .record c ∧
      c.entries.map (·.column.field) = (x.record.fields.filter Field.isStored).map (·.name) ∧
      KeyField s.settings.inferId (x.record.fields.filter Field.isStored) key ∧
      c.primaryKey? = key.bind (c.entries[·]?) ∧
      (∀ e, c.primaryKey? = some e → e.members = none) ∧
      c.leaves.filter (·.isPrimaryKey) = (c.primaryKey?.map (·.column)).toList ∧
      (∀ e ∈ c.entries, ∀ g, e.members = some g → g.Keyless) ∧
      x.draft.isSome = key.isSome := by
  obtain ⟨-, hkeyed⟩ := (hs.results_under (P := fun settings x =>
    x.catalog.asGroup.Keyless ∧ (x.record.kind = .struct → x.record.isTable = true →
      x.record.isSelection = false → x.Keyed settings.inferId)) fun registry settings r x h => by
    have hbelow := h.mono fun _ _ hy => hy.1
    refine ⟨hbelow.keyless, ?_⟩
    rw [h.record_eq]
    exact hbelow.keyed).2 reference x hx
  obtain ⟨c, key, hc, hfields, hkey, hhas, hdraft⟩ := hkeyed kind table lasting
  refine ⟨c, key, hc, hfields, hkey, hhas.primaryKey?_eq, fun e he => ?_, hhas.leaves_eq,
    hhas.spliced, hdraft⟩
  have hmarked : e.column.isPrimaryKey = true := by simpa using List.find?_some he
  exact hhas.plain e (List.mem_of_find?_eq_some he) hmarked

/-- The order's key is its first field, by convention. -/
theorem primary_key_order : orderCatalog.leaves.filter (·.isPrimaryKey) =
    [{ name := "id", field := "id", type := some .integer, isPrimaryKey := true }] := by
  obtain ⟨c, key, hc, -, -, -, -, hleaves, -⟩ :=
    Reachable.primary_key orders_reachable yields_order rfl rfl rfl
  cases hc
  exact hleaves.trans rfl

end Schema

end RowSchema
