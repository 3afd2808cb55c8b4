import RowSchema.Proofs.Schema.Absent
import RowSchema.Proofs.Schema.AllDerived
import RowSchema.Proofs.Schema.Drafts

/-! # Nullable columns

The columns of an enum are nullable, and so are those of an optional column group: every one of them
that has a type. A column without a type stays as it is. Only a field can make such a column, one
that is declared with a default whose literal has no type, or with nothing at all; so all columns
are nullable just if no record that is spliced in, at any depth, declares such a field. -/

namespace RowSchema

variable {registry : Registry} {settings : Options} {r : Record}

/-! ## Columns without a type -/

/-- Some column has no type. -/
def Untyped (columns : List Column) : Prop := ∃ c ∈ columns, c.type = none

theorem Column.nullable_type_eq_none (c : Column) : c.nullable.type = none ↔ c.type = none := by
  simp [Column.nullable]

/-- A column is made nullable if it has a type. -/
theorem Column.isNullable_nullable (c : Column) :
    c.nullable.isNullable = true ↔ c.nullable.type ≠ none := by
  cases h : c.type <;> simp [Column.isNullable, Column.nullable, TypeRef.optional, h]

theorem untyped_map_nullable {columns : List Column} :
    Untyped (columns.map Column.nullable) ↔ Untyped columns := by
  simp [Untyped, Column.nullable_type_eq_none]

/-- All columns are nullable just if all have types, where those that have types are. -/
theorem forall_isNullable_iff {columns : List Column}
    (h : ∀ c ∈ columns, c.isNullable = true ↔ c.type ≠ none) :
    (∀ c ∈ columns, c.isNullable = true) ↔ ¬ Untyped columns := by
  constructor
  · rintro hall ⟨c, hc, htype⟩
    exact (h c hc).mp (hall c hc) htype
  · intro hnone c hc
    exact (h c hc).mpr fun htype => hnone ⟨c, hc, htype⟩

/-! ## Leaves -/

/-- A column without a type is a plain entry, or one of the members of an entry. -/
def Entry.IsUntyped (e : Entry) : Prop :=
  match e.members with
  | none => e.column.type = none
  | some members => Untyped members.leaves

theorem Entry.untyped_leaves (e : Entry) : Untyped e.leaves ↔ e.IsUntyped := by
  obtain ⟨column, members⟩ := e
  cases members with
  | none => simp [Entry.leaves, Untyped, Entry.IsUntyped]
  | some g =>
    rw [Entry.leaves, Entry.IsUntyped]
    split
    · exact untyped_map_nullable
    · exact Iff.rfl

theorem Entry.isUntyped_nullable (e : Entry) : e.nullable.IsUntyped ↔ e.IsUntyped := by
  obtain ⟨column, members⟩ := e
  cases members with
  | none => exact column.nullable_type_eq_none
  | some g => exact Iff.rfl

theorem CaseEntry.mem_leavesAll {cases : List CaseEntry} {c : Column} :
    c ∈ CaseEntry.leavesAll cases ↔ ∃ k ∈ cases, c ∈ k.leaves := by
  induction cases with
  | nil => simp [CaseEntry.leavesAll]
  | cons k rest ih => simp [CaseEntry.leavesAll, ih]

/-- Every column of an enum is one that has been made nullable. -/
theorem EnumCatalog.mem_leaves {c : EnumCatalog} {leaf : Column} :
    leaf ∈ c.leaves ↔ ∃ k ∈ c.cases, ∃ e, k.payload = some e ∧
      leaf ∈ e.leaves.map Column.nullable := by
  obtain ⟨typeName, cases, table, schema, maker⟩ := c
  rw [EnumCatalog.leaves, CaseEntry.mem_leavesAll]
  refine exists_congr fun k => and_congr_right fun _ => ?_
  obtain ⟨name, label, payload⟩ := k
  cases payload with
  | none => simp [CaseEntry.leaves]
  | some e => simp [CaseEntry.leaves]

/-- A catalog has a column without a type just if one of its entries has. -/
theorem Group.untyped_leaves (g : Group) :
    Untyped g.leaves ↔ ∃ e ∈ g.entries, e.IsUntyped := by
  cases g with
  | record c =>
    rw [Group.leaves, Catalog.leaves_eq]
    simp only [Untyped, Entry.mem_leavesAll, ← Entry.untyped_leaves, Group.entries]
    constructor
    · rintro ⟨leaf, ⟨e, he, hleaf⟩, htype⟩
      exact ⟨e, he, leaf, hleaf, htype⟩
    · rintro ⟨e, he, leaf, hleaf, htype⟩
      exact ⟨leaf, ⟨e, he, hleaf⟩, htype⟩
  | enum c =>
    rw [Group.leaves]
    constructor
    · rintro ⟨leaf, hleaf, htype⟩
      obtain ⟨k, hk, e, he, hleaf⟩ := EnumCatalog.mem_leaves.mp hleaf
      refine ⟨e.nullable, List.mem_filterMap.mpr ⟨k, hk, by rw [he]; rfl⟩, ?_⟩
      rw [Entry.isUntyped_nullable, ← Entry.untyped_leaves, ← untyped_map_nullable]
      exact ⟨leaf, hleaf, htype⟩
    · rintro ⟨e', he', huntyped⟩
      obtain ⟨k, hk, hpayload⟩ := List.mem_filterMap.mp he'
      obtain ⟨e, he, rfl⟩ := Option.map_eq_some_iff.mp hpayload
      rw [Entry.isUntyped_nullable, ← Entry.untyped_leaves, ← untyped_map_nullable] at huntyped
      obtain ⟨leaf, hleaf, htype⟩ := huntyped
      exact ⟨leaf, EnumCatalog.mem_leaves.mpr ⟨k, hk, e, he, hleaf⟩, htype⟩

theorem Group.untyped_asGroup (g : Group) : Untyped g.asGroup.leaves ↔ Untyped g.leaves := by
  rw [Group.untyped_leaves, Group.untyped_leaves]
  cases g with
  | record c =>
    simp only [Group.asGroup, Group.entries, Catalog.asGroup, List.mem_map,
      exists_exists_and_eq_and]
    exact Iff.rfl
  | enum c => exact Iff.rfl

/-- The entries of a catalog have the same members when it is made a group. -/
theorem Group.exists_mem_asGroup {g : Group} {e : Entry} (he : e ∈ g.entries) :
    ∃ e' ∈ g.asGroup.entries, e'.members = e.members := by
  cases g with
  | record c => exact ⟨_, List.mem_map_of_mem he, rfl⟩
  | enum c => exact ⟨e, he, rfl⟩

/-- The columns of an enum are nullable, as far as they have types. -/
theorem EnumCatalog.isNullable_iff {c : EnumCatalog} {leaf : Column} (h : leaf ∈ c.leaves) :
    leaf.isNullable = true ↔ leaf.type ≠ none := by
  obtain ⟨k, -, e, -, hleaf⟩ := EnumCatalog.mem_leaves.mp h
  obtain ⟨column, -, rfl⟩ := List.mem_map.mp hleaf
  exact column.isNullable_nullable

/-- So are those of an optional column group. -/
theorem Entry.isNullable_iff {e : Entry} {g : Group} (hg : e.members = some g)
    (hnullable : e.column.isNullable = true) {leaf : Column} (h : leaf ∈ e.leaves) :
    leaf.isNullable = true ↔ leaf.type ≠ none := by
  obtain ⟨column, members⟩ := e
  obtain rfl : members = some g := hg
  rw [Entry.leaves, if_pos hnullable] at h
  obtain ⟨column', -, rfl⟩ := List.mem_map.mp h
  exact column'.isNullable_nullable

/-! ## Fields without a type -/

/-- The field is a plain column that has no type: no representation is given, no type declared, and
the literal of the default, if there is one, has none. -/
def Field.Untyped (role : Role) (f : Field) : Prop :=
  ∃ spec diagnostics, ColumnSpec.ofField role f = .ok (some spec, diagnostics) ∧
    spec.isEphemeral = false ∧ spec.isGroup = false ∧ spec.semanticType = none

/-- The record is a struct and declares such a field. -/
def Record.Untyped (r : Record) : Prop := r.kind = .struct ∧ ∃ f ∈ r.fields, f.Untyped r.role

theorem Record.untyped_iff {outline : RecordOutline} (hkind : r.kind = .struct)
    (outlined : RecordOutline.ofRecord settings r = .ok outline) :
    r.Untyped ↔ ∃ spec ∈ outline.specs, spec.isGroup = false ∧ spec.semanticType = none := by
  simp only [RecordOutline.mem_specs outlined]
  constructor
  · rintro ⟨-, f, hf, spec, diagnostics, hof, hstored, hplain, htype⟩
    exact ⟨spec, ⟨hstored, f, hf, diagnostics, hof⟩, hplain, htype⟩
  · rintro ⟨spec, ⟨hstored, f, hf, diagnostics, hof⟩, hplain, htype⟩
    exact ⟨hkind, f, hf, spec, diagnostics, hof, hstored, hplain, htype⟩

theorem RecordOutline.groupName_none {spec : ColumnSpec} :
    RecordOutline.groupName spec = .ok none ↔ spec.isGroup = false := by
  unfold RecordOutline.groupName
  cases spec.isGroup <;> cases spec.type <;> simp

/-- Every specification of a struct has an entry, which is plain if it is no group. -/
theorem RecordOutline.exists_plain_entry {G : Record → Derived → Prop} {outline : RecordOutline}
    {members : List (Option Group)} {catalog : Catalog} {diagnostics : List Diagnostic}
    (resolved : List.Forall₂ (FieldResolves registry G r) outline.specs members)
    (built : outline.catalog r (members.map .ok) = (catalog, diagnostics))
    (clean : Diagnostic.hasErrors diagnostics = false) {spec : ColumnSpec}
    (hspec : spec ∈ outline.specs) (hplain : spec.isGroup = false) :
    ∃ e ∈ catalog.entries, e.members = none ∧ e.column.type = spec.semanticType := by
  obtain ⟨-, -, hsteps⟩ := RecordOutline.catalog_clean built clean
  have hspecs : (outline.steps members).map (·.1) = outline.specs :=
    List.map_fst_zip (by simp [resolved.length_eq])
  rw [← hspecs] at hspec
  obtain ⟨⟨spec, i, resolution⟩, hstep, rfl⟩ := List.mem_map.mp hspec
  obtain ⟨e, he, m, rfl, rfl⟩ := exists_right_of_mem hsteps hstep
  have hpair := mem_zip_of_mem_zip_zip hstep
  rw [List.zip_map_right] at hpair
  obtain ⟨⟨spec', m'⟩, hmem, heq⟩ := List.mem_map.mp hpair
  cases heq
  obtain rfl : m = none := FieldResolves.of_ok_none (RecordOutline.groupName_none.mpr hplain)
    ((List.forall₂_iff_zip.mp resolved).2 hmem)
  exact ⟨_, he, rfl, rfl⟩

/-- A plain entry has no type just if it stands for a field of a struct that has none. -/
theorem Composes.plain_untyped_iff {G : Record → Derived → Prop} {x : Derived}
    (h : Composes registry settings G r x) :
    (∃ e ∈ x.catalog.entries, e.members = none ∧ e.column.type = none) ↔ r.Untyped := by
  have hcomposes := h
  cases h with
  | struct annotated kind outlined resolved built clean =>
    rw [Record.untyped_iff kind outlined]
    constructor
    · rintro ⟨e, he, hplain, htype⟩
      obtain ⟨_, spec, members, rfl, hmembers, outline, outlined', hspec⟩ :=
        hcomposes.mem_entries rfl he
      rw [outlined] at outlined'
      cases outlined'
      cases members with
      | none => exact ⟨spec, hspec, RecordOutline.groupName_none.mp hmembers, htype⟩
      | some g => cases hplain
    · rintro ⟨spec, hspec, hplain, htype⟩
      obtain ⟨e, he, hmembers, heq⟩ :=
        RecordOutline.exists_plain_entry resolved built clean hspec hplain
      exact ⟨e, he, hmembers, heq.trans htype⟩
  | enum annotated kind =>
    constructor
    · rintro ⟨e, he, hplain, htype⟩
      obtain ⟨k, hk, hpayload⟩ := List.mem_filterMap.mp he
      obtain ⟨e', he', rfl⟩ := Option.map_eq_some_iff.mp hpayload
      obtain ⟨_, spec, type, members, -, hspec, rfl, -⟩ := hcomposes.mem_cases rfl hk he'
      rw [Entry.nullable, Column.nullable_type_eq_none] at htype
      cases members with
      | none => simp [EnumOutline.entry, ColumnSpec.semanticType, hspec] at htype
      | some g => cases hplain
    · rintro ⟨hkind, -⟩
      rw [kind] at hkind
      cases hkind

/-! ## Results -/

namespace Schema

variable {s t : Schema} {x y : Derived} {m : Record}

/-- The record of a result, or of one that is spliced into it, at any depth, declares a column
without a type. -/
inductive Untyped (s : Schema) : Derived → Prop
  | own {x : Derived} (h : x.record.Untyped) : Untyped s x
  | member {x y : Derived} {e : Entry} {m : Record} (he : e ∈ x.catalog.entries)
      (hy : Kept s.progress.cache m y) (hm : e.members = some y.catalog.asGroup)
      (h : Untyped s y) : Untyped s x

/-- Every result that is kept composes from results that are kept. -/
def Grounded (s : Schema) : Prop :=
  ∀ m x, Kept s.progress.cache m x → ∃ registry settings,
    Composes registry settings (Kept s.progress.cache) x.record x

theorem Grounded.deriveRecord (hs : s.Grounded) (hkeyed : s.registry.Keyed)
    (hr : s.registry.records.get? r.key = some r) : (s.deriveRecord r).2.Grounded := by
  obtain ⟨hextends, -⟩ := (Extends.refl s).deriveRecord hkeyed hr
  rintro m x ⟨d, hd, hx⟩
  rcases hextends.composed _ d hd with hold | ⟨r', -, hcomposes⟩
  · obtain ⟨registry, settings, hcomposes⟩ := hs m x ⟨d, hold, hx⟩
    exact ⟨registry, settings, hcomposes.mono fun _ _ h => h.mono hextends.grows⟩
  · have hcomposes := hcomposes x hx
    exact ⟨_, _, hcomposes.record_eq ▸ hcomposes⟩

theorem Reachable.grounded (hs : s.Reachable) : s.Grounded := by
  refine (hs.keeps (P := fun t => t.Grounded ∧ t.registry.Keyed) ?_ ?_ ?_).1.1
  · intro settings
    refine ⟨?_, .empty⟩
    rintro m x ⟨d, hd, -⟩
    cases hd
  · rintro t u r ⟨ht, hkeyed⟩ hr
    obtain ⟨hregistry, -, hcache⟩ := register_eq_ok hr
    refine ⟨?_, hkeyed.register? hregistry⟩
    unfold Grounded
    rw [hcache]
    exact ht
  · rintro t r ⟨ht, hkeyed⟩ hr
    exact ⟨ht.deriveRecord hkeyed hr, hkeyed⟩

/-- The column groups of a result that is kept, at any depth, are results that are kept. -/
theorem Grounded.exists_part (hs : s.Grounded) (hx : Kept s.progress.cache m x) {part : Group}
    (hpart : x.catalog.HasPart part) : ∃ m' y, Kept s.progress.cache m' y ∧
      (part = y.catalog ∨ part = y.catalog.asGroup) := by
  induction hpart with
  | self => exact ⟨m, x, hx, .inl rfl⟩
  | @members part members e _ he hm ih =>
    obtain ⟨m', y, hy, hpart⟩ := ih
    obtain ⟨e', he', hm'⟩ : ∃ e' ∈ y.catalog.entries, e'.members = some members := by
      rcases hpart with rfl | rfl
      · exact ⟨e, he, hm⟩
      · obtain ⟨e', he', heq⟩ := Group.mem_entries_asGroup he
        exact ⟨e', he', heq.trans hm⟩
    obtain ⟨registry, settings, hcomposes⟩ := hs m' y hy
    obtain ⟨member, z, -, hz, rfl⟩ := hcomposes.entries_members he' hm'
    exact ⟨member, z, hz, .inr rfl⟩

/-- A result has a column without a type just if a record declares one: its own, or one that is
spliced in at any depth. -/
theorem Grounded.untyped_iff (hs : s.Grounded) (hx : Kept s.progress.cache m x) :
    RowSchema.Untyped x.catalog.leaves ↔ s.Untyped x := by
  constructor
  · -- on the members of the catalog, which are those of the groups made of results
    suffices h : ∀ g : Group, ∀ m x, Kept s.progress.cache m x →
        (g = x.catalog ∨ g = x.catalog.asGroup) → RowSchema.Untyped x.catalog.leaves →
        s.Untyped x from h _ m x hx (.inl rfl)
    intro g
    induction g using Group.induction_members with
    | step g ih =>
      intro m x hx hg hleaves
      obtain ⟨registry, settings, hcomposes⟩ := hs m x hx
      obtain ⟨e, he, huntyped⟩ := x.catalog.untyped_leaves.mp hleaves
      cases hm : e.members with
      | none =>
        rw [Entry.IsUntyped, hm] at huntyped
        exact .own (hcomposes.plain_untyped_iff.mp ⟨e, he, hm, huntyped⟩)
      | some members =>
        rw [Entry.IsUntyped, hm] at huntyped
        obtain ⟨member, y, -, hy, rfl⟩ := hcomposes.entries_members he hm
        obtain ⟨e', he', hm'⟩ : ∃ e' ∈ g.entries, e'.members = some y.catalog.asGroup := by
          rcases hg with rfl | rfl
          · exact ⟨e, he, hm⟩
          · obtain ⟨e', he', heq⟩ := Group.exists_mem_asGroup he
            exact ⟨e', he', heq.trans hm⟩
        have hmember := (Group.untyped_asGroup _).mp huntyped
        exact .member he hy hm (ih e' he' _ hm' member y hy (.inr rfl) hmember)
  · intro h
    rw [Group.untyped_leaves]
    induction h generalizing m with
    | own h =>
      obtain ⟨registry, settings, hcomposes⟩ := hs m _ hx
      obtain ⟨e, he, hm, htype⟩ := hcomposes.plain_untyped_iff.mpr h
      refine ⟨e, he, ?_⟩
      rwa [Entry.IsUntyped, hm]
    | @member x y e m' he hy hm _ ih =>
      refine ⟨e, he, ?_⟩
      rw [Entry.IsUntyped, hm]
      exact (Group.untyped_asGroup _).mpr ((Group.untyped_leaves _).mpr (ih hy))

/-- A result that is returned is kept. -/
theorem Reachable.kept_of_derive? (hs : s.Reachable) {reference : Reference}
    {d : Derivation Derived} (hd : s.derive? reference = some (.ok d, t))
    (hx : d.result = some x) : ∃ m, Kept t.progress.cache m x := by
  obtain ⟨r, hr, hrun⟩ := Option.map_eq_some_iff.mp hd
  have hkept := ((Extends.refl s).deriveRecord hs.keyed (hs.keyed.get?_of_record? hr)).2 d
  rw [hrun] at hkept
  exact ⟨r, d, hkept rfl, hx⟩

/-- The columns of a group are nullable as far as they have types. So all of them are just if no
record declares a column without a type, where the group comes from the result of a record. -/
structure Nullable (t : Schema) (g : Group) (columns : List Column) : Prop where
  typed : ∀ c ∈ columns, c.isNullable = true ↔ c.type ≠ none
  all : ∃ m y, Kept t.progress.cache m y ∧ (g = y.catalog ∨ g = y.catalog.asGroup) ∧
    ((∀ c ∈ columns, c.isNullable = true) ↔ ¬ t.Untyped y)

theorem Grounded.nullable (ht : t.Grounded) (hx : Kept t.progress.cache m x) {g : Group}
    (hg : x.catalog.HasPart g) {columns : List Column}
    (typed : ∀ c ∈ columns, c.isNullable = true ↔ c.type ≠ none)
    (huntyped : RowSchema.Untyped columns ↔ RowSchema.Untyped g.leaves) :
    t.Nullable g columns := by
  obtain ⟨m', y, hy, hpart⟩ := ht.exists_part hx hg
  refine ⟨typed, m', y, hy, hpart, ?_⟩
  rw [forall_isNullable_iff typed, huntyped, ← ht.untyped_iff hy]
  rcases hpart with rfl | rfl
  · exact Iff.rfl
  · rw [Group.untyped_asGroup]

/-- The result of a derivation, and all that is spliced into it, at any depth: the columns of every
enum and those of every optional column group are nullable, but for columns without a type. -/
theorem Reachable.leaves_nullable (hs : s.Reachable) {reference : Reference}
    {d : Derivation Derived} (hd : s.derive? reference = some (.ok d, t))
    (hx : d.result = some x) {part : Group} (hpart : x.catalog.HasPart part) :
    (∀ c, part = .enum c → t.Nullable part c.leaves) ∧
      ∀ e ∈ part.entries, e.column.isNullable = true → ∀ g, e.members = some g →
        t.Nullable g e.leaves := by
  have ht := (hs.derive hd).grounded
  obtain ⟨m, hkept⟩ := hs.kept_of_derive? hd hx
  constructor
  · rintro c rfl
    exact ht.nullable hkept hpart (fun _ => EnumCatalog.isNullable_iff) Iff.rfl
  · intro e he hnullable g hg
    refine ht.nullable hkept (hpart.members he hg) (fun _ => Entry.isNullable_iff hg hnullable) ?_
    rw [Entry.untyped_leaves, Entry.IsUntyped, hg]

/-- The columns of the centre of a shape. -/
def centreColumns : List Column := [
  { name := "x", field := "x", type := some { name := "Int", isOptional := true } },
  { name := "y", field := "y", type := some { name := "Int", isOptional := true } }]

/-- Both coordinates of the centre of a shape may be null. -/
theorem leaves_nullable_centre : ∃ e ∈ shapeCatalog.entries, e.leaves = centreColumns ∧
    ∀ leaf ∈ e.leaves, leaf.isNullable = true := by
  obtain ⟨d, t, hd, hx⟩ := yields_shape
  obtain ⟨-, hgroups⟩ := Reachable.leaves_nullable shapes_reachable hd hx .self
  refine ⟨_, List.mem_cons_self, rfl, fun leaf hleaf => ?_⟩
  refine ((hgroups _ List.mem_cons_self rfl _ rfl).typed leaf hleaf).mpr ?_
  have hmem : leaf ∈ centreColumns := hleaf
  simp only [centreColumns, List.mem_cons, List.not_mem_nil, or_false] at hmem
  rcases hmem with rfl | rfl <;> nofun

/-- What is known of a mark is no more than its default. -/
def markRecord : Record where
  name := "Mark"
  attributes := [{ name := "Selection" }]
  fields := [{ name := "at", default := some .nil }]

/-- An event with a mark. -/
def eventRecord : Record where
  name := "Event"
  kind := .enum
  attributes := [{ name := "Table" }]
  cases := [{ name := "marked", payloads := [{ type := { name := "Mark" } }] }]

def events : Schema := (Schema.registerAll {} [markRecord, eventRecord]).1

def eventCatalog : EnumCatalog where
  typeName := "Event"
  cases := [{
    name := "marked"
    label := none
    payload := some {
      column := { name := "marked", field := "marked", type := some { name := "Mark" } }
      members := some (.record {
        typeName := "Mark"
        entries := [{ column := { name := "at", field := "at", default := some .nil } }] }) } }]
  table := some "events"

theorem yields_event : events.Yields (.name "Event")
    { record := eventRecord, catalog := .enum eventCatalog, policy := .failFast } :=
  ⟨_, _, rfl, rfl⟩

/-- The columns of an enum are not all nullable. -/
theorem not_leaves_nullable : ¬ ∀ (s : Schema) (reference : Reference) (x : Derived)
    (c : EnumCatalog), s.Reachable → s.Yields reference x → x.catalog = .enum c →
    ∀ leaf ∈ c.leaves, leaf.isNullable = true := by
  intro h
  have hleaf := h events (.name "Event") _ eventCatalog ((Reachable.empty {}).registerAll _)
    yields_event rfl _ List.mem_cons_self
  cases hleaf

end Schema

end RowSchema
