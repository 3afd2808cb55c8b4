import RowSchema.Proofs.Schema.Rows

/-! # Drafts

The entries of a draft are those of its table without the generated ones. A column group is an
entry that is never generated itself, so it goes into the draft as it is, with the generated columns
of the records that are spliced in. Hence these are the only generated columns of a draft. -/

namespace RowSchema

variable {registry : Registry} {settings : Options} {r : Record}

/-! ## Entries -/

/-- The columns of those entries that the database generates. -/
def Entry.generatedLeaves (entries : List Entry) : List Column :=
  (Entry.leavesAll entries).filter (!·.isWritable)

@[simp] theorem Entry.generatedLeaves_nil : Entry.generatedLeaves [] = [] := by
  simp [Entry.generatedLeaves, Entry.leavesAll]

theorem Entry.generatedLeaves_cons (e : Entry) (rest : List Entry) :
    Entry.generatedLeaves (e :: rest) =
      e.leaves.filter (!·.isWritable) ++ Entry.generatedLeaves rest := by
  simp [Entry.generatedLeaves, Entry.leavesAll]

@[simp] theorem Column.isWritable_nullable (c : Column) : c.nullable.isWritable = c.isWritable :=
  rfl

/-- Making columns nullable does not make them writable. -/
theorem all_isWritable_nullable {columns : List Column} :
    (∀ c ∈ columns.map Column.nullable, c.isWritable = true) ↔
      ∀ c ∈ columns, c.isWritable = true := by
  simp only [List.forall_mem_map, Column.isWritable_nullable]

theorem Entry.leaves_isWritable_of_members {e : Entry} {g : Group} (hg : e.members = some g) :
    (∀ c ∈ e.leaves, c.isWritable = true) ↔ ∀ c ∈ g.leaves, c.isWritable = true := by
  obtain ⟨column, members⟩ := e
  obtain rfl : members = some g := hg
  rw [Entry.leaves]
  split
  · exact all_isWritable_nullable
  · exact Iff.rfl

theorem Entry.mem_leavesAll {entries : List Entry} {c : Column} :
    c ∈ Entry.leavesAll entries ↔ ∃ e ∈ entries, c ∈ e.leaves := by
  induction entries with
  | nil => simp [Entry.leavesAll]
  | cons e rest ih => simp [Entry.leavesAll, ih]

theorem Catalog.leaves_eq (c : Catalog) : c.leaves = Entry.leavesAll c.entries := by
  cases c
  rw [Catalog.leaves]

/-- No group of a table is a generated entry, nor is it the primary key. -/
def Catalog.PlainGroups (c : Catalog) : Prop :=
  ∀ e ∈ c.entries, e.isGroup = true → e.column.isWritable = true ∧ e.column.isPrimaryKey = false

theorem Composes.plainGroups {G : Record → Derived → Prop} {x : Derived}
    (h : Composes registry settings G r x) {c : Catalog} (hc : x.catalog = .record c) :
    c.PlainGroups := by
  intro e he hgroup
  obtain ⟨_, spec, members, rfl, -⟩ := h.mem_entries hc he
  cases members with
  | none => cases hgroup
  | some g => exact ⟨rfl, rfl⟩

/-! ## From a table to its draft -/

/-- How an entry of a draft comes from one of its table: it has the same name, field and members, is
generated just if that is, and nothing is changed but in a primary key. -/
structure Drafts (e e' : Entry) : Prop where
  name_eq : e'.column.name = e.column.name
  field_eq : e'.column.field = e.column.field
  generated_eq : e'.column.generated = e.column.generated
  members_eq : e'.members = e.members
  eq_of_plain : e.column.isPrimaryKey = false → e' = e

theorem Draft.ofEntry_drafts {specs : List ColumnSpec} {spans : Dictionary String Span}
    {e e' : Entry} {parameter : DraftParameter}
    (h : Draft.ofEntry specs spans e = .ok (e', parameter)) : Drafts e e' := by
  unfold Draft.ofEntry at h
  extract_lets field spec declared at h
  clear_value declared
  cases declared with
  | none => cases h
  | some type =>
    dsimp only at h
    split at h
    · rename_i hkey
      cases h
      refine ⟨rfl, rfl, rfl, rfl, fun hplain => ?_⟩
      rw [hplain] at hkey
      cases hkey
    · cases h
      exact ⟨rfl, rfl, rfl, rfl, fun _ => rfl⟩

/-- The entries of a draft come from the writable ones of its table, in order. -/
theorem draftOf_drafts {outline : RecordOutline} {catalog : Catalog} {draft : Draft}
    {diagnostics : List Diagnostic} (h : draftOf r outline catalog = (some draft, diagnostics)) :
    List.Forall₂ Drafts (catalog.entries.filter (·.column.isWritable)) draft.catalog.entries := by
  obtain ⟨kept, hkept, hentries, -⟩ := draftOf_kept h
  rw [hentries, List.forall₂_map_right_iff]
  exact hkept.imp fun _ _ hentry => Draft.ofEntry_drafts hentry

theorem Composes.drafts {G : Record → Derived → Prop} {x : Derived}
    (h : Composes registry settings G r x) {c : Catalog} (hc : x.catalog = .record c)
    {draft : Draft} (hd : x.draft = some draft) :
    List.Forall₂ Drafts (c.entries.filter (·.column.isWritable)) draft.catalog.entries := by
  cases h with
  | struct _ _ _ _ _ _ drafted =>
    cases hc
    obtain rfl := hd
    exact draftOf_drafts drafted
  | enum => cases hc

/-! ## Generated columns of a draft -/

/-- An entry that goes into a draft brings the generated columns that it has as a group. -/
theorem Drafts.leaves {e e' : Entry} (h : Drafts e e') (hwritable : e.column.isWritable = true)
    (hgroup : e.isGroup = true → e.column.isPrimaryKey = false) :
    e'.leaves.filter (!·.isWritable) = Entry.generatedLeaves ([e].filter (·.isGroup)) := by
  by_cases hg : e.isGroup = true
  · rw [h.eq_of_plain (hgroup hg)]
    simp [hg, Entry.generatedLeaves_cons]
  · have hnone : e'.members = none := by
      rw [h.members_eq]
      simpa [Entry.isGroup] using hg
    have hplain : e'.column.isWritable = true := by
      rw [Column.isWritable, h.generated_eq]
      exact hwritable
    obtain ⟨column, members⟩ := e'
    obtain rfl : members = none := hnone
    simp [hg, Entry.leaves, hplain]

theorem generatedLeaves_of_drafts {entries drafted : List Entry}
    (h : List.Forall₂ Drafts entries drafted)
    (hwritable : ∀ e ∈ entries, e.column.isWritable = true)
    (hgroups : ∀ e ∈ entries, e.isGroup = true → e.column.isPrimaryKey = false) :
    Entry.generatedLeaves drafted = Entry.generatedLeaves (entries.filter (·.isGroup)) := by
  induction h with
  | nil => simp
  | @cons e e' entries drafted hentry _ ih =>
    have hfirst := hentry.leaves (hwritable e List.mem_cons_self) (hgroups e List.mem_cons_self)
    have hrest := ih (fun e he => hwritable e (List.mem_cons_of_mem _ he))
      fun e he => hgroups e (List.mem_cons_of_mem _ he)
    rw [Entry.generatedLeaves_cons, hfirst, hrest]
    by_cases hg : e.isGroup = true
    · simp [hg, Entry.generatedLeaves_cons]
    · simp [hg]

namespace Schema

variable {s : Schema} {reference : Reference} {x : Derived} {c : Catalog} {draft : Draft}

/-- A draft has the entries of its table but for the generated ones. The generated columns that it
has nevertheless are those inside the column groups of the table; so a draft is writable throughout
just if no record that is spliced into the table, at any depth, has a generated column. -/
theorem Yields.draft_generated (hs : s.Reachable) (hx : s.Yields reference x)
    (hc : x.catalog = .record c) (hd : x.draft = some draft) :
    draft.catalog.entries.map (·.column.name) =
        (c.entries.filter (·.column.isWritable)).map (·.column.name) ∧
      (∀ e ∈ draft.catalog.entries, e.column.isWritable = true) ∧
      draft.catalog.leaves.filter (!·.isWritable) =
        (Entry.leavesAll (c.entries.filter (·.isGroup))).filter (!·.isWritable) ∧
      ((∀ leaf ∈ draft.catalog.leaves, leaf.isWritable = true) ↔
        ∀ e ∈ c.entries, ∀ g, e.members = some g → ∀ leaf ∈ g.leaves, leaf.isWritable = true) := by
  obtain ⟨hdrafts, hgroups⟩ : List.Forall₂ Drafts (c.entries.filter (·.column.isWritable))
      draft.catalog.entries ∧ c.PlainGroups := by
    refine (hs.results (P := fun x => ∀ c, x.catalog = .record c → ∀ draft,
      x.draft = some draft → List.Forall₂ Drafts (c.entries.filter (·.column.isWritable))
        draft.catalog.entries ∧ c.PlainGroups) ?_).2 reference x hx c hc draft hd
    intro registry settings r x h c hc draft hd
    exact ⟨h.drafts hc hd, h.plainGroups hc⟩
  have hleaves : Entry.generatedLeaves draft.catalog.entries =
      Entry.generatedLeaves (c.entries.filter (·.isGroup)) := by
    rw [generatedLeaves_of_drafts hdrafts (fun e he => (List.mem_filter.mp he).2)
      fun e he hg => (hgroups e (List.mem_filter.mp he).1 hg).2, List.filter_filter]
    congr 1
    refine List.filter_congr fun e he => ?_
    by_cases hg : e.isGroup = true
    · simp [hg, (hgroups e he hg).1]
    · simp [hg]
  refine ⟨?_, ?_, ?_, ?_⟩
  · rw [← List.forall₂_eq_eq_eq, List.forall₂_map_left_iff, List.forall₂_map_right_iff]
    exact hdrafts.flip.imp fun _ _ h => h.name_eq
  · intro e he
    obtain ⟨e', he', hentry⟩ := exists_left_of_mem hdrafts he
    rw [Column.isWritable, hentry.generated_eq]
    exact (List.mem_filter.mp he').2
  · rw [Catalog.leaves_eq]
    exact hleaves
  · have hnone : (∀ leaf ∈ draft.catalog.leaves, leaf.isWritable = true) ↔
        Entry.generatedLeaves (c.entries.filter (·.isGroup)) = [] := by
      rw [← hleaves, Entry.generatedLeaves, ← Catalog.leaves_eq, List.filter_eq_nil_iff]
      simp
    rw [hnone, Entry.generatedLeaves, List.filter_eq_nil_iff]
    constructor
    · intro h e he g hg
      rw [← Entry.leaves_isWritable_of_members hg]
      intro leaf hleaf
      have hgroup : e.isGroup = true := by rw [Entry.isGroup, hg]; rfl
      simpa using h leaf (Entry.mem_leavesAll.mpr ⟨e, List.mem_filter.mpr ⟨he, hgroup⟩, hleaf⟩)
    · intro h leaf hleaf
      obtain ⟨e, he, hleaf⟩ := Entry.mem_leavesAll.mp hleaf
      obtain ⟨he, hgroup⟩ := List.mem_filter.mp he
      obtain ⟨g, hg⟩ := Option.isSome_iff_exists.mp hgroup
      simp [(Entry.leaves_isWritable_of_members hg).mpr (h e he g hg) leaf hleaf]

/-- A line of an order: the database computes its total. -/
def lineRecord : Record where
  name := "Line"
  attributes := [{ name := "Table" }]
  fields := [
    { name := "quantity", type := some .integer },
    { name := "total", type := some .integer, isMutable := false
      attributes := [{ name := "Column"
                       arguments := [⟨some "generated", .member "stored", none⟩] }] }]

/-- An order has a key, a line that is spliced in, and a generated number of its own. -/
def orderRecord : Record where
  name := "Order"
  attributes := [{ name := "Table" }]
  fields := [
    { name := "id", type := some .integer, isMutable := false },
    { name := "line", type := some { name := "Line" }, attributes := [{ name := "Columns" }] },
    { name := "number", type := some .integer, isMutable := false
      attributes := [{ name := "Column"
                       arguments := [⟨some "generated", .member "virtual", none⟩] }] }]

def orders : Schema := (Schema.registerAll {} [lineRecord, orderRecord]).1

theorem orders_reachable : orders.Reachable := (Reachable.empty {}).registerAll _

/-- The entry that the line is in an order and in its draft. -/
def lineEntry : Entry where
  column := { name := "line", field := "line", type := some { name := "Line" }, width := 2 }
  members := some (.record {
    typeName := "Line"
    entries := [
      { column := { name := "quantity", field := "quantity", type := some .integer } },
      { column := { name := "total", field := "total", type := some .integer
                    generated := .stored } }] })

def orderCatalog : Catalog where
  typeName := "Order"
  entries := [
    { column := { name := "id", field := "id", type := some .integer, isPrimaryKey := true } },
    lineEntry,
    { column := { name := "number", field := "number", type := some .integer
                  generated := .virtual } }]
  table := some "orders"

/-- The key of an order's draft may be left to the database. -/
def draftKey : Entry where
  column := { name := "id", field := "id", type := some { name := "Int", isOptional := true }
              default := some .nil, isPrimaryKey := true }

def orderDraft : Draft where
  typeName := "Order.Draft"
  catalog := { typeName := "Order.Draft", entries := [draftKey, lineEntry]
               table := some "orders" }
  parameters := [
    ⟨"id", { name := "Int", isOptional := true }, some .nil⟩, ⟨"line", { name := "Line" }, none⟩]
  primaryKey := draftKey

theorem yields_order : orders.Yields (.name "Order")
    { record := orderRecord, catalog := .record orderCatalog, draft := some orderDraft
      policy := .failFast } :=
  ⟨_, _, rfl, rfl⟩

/-- The number of an order is not in its draft, but the total of its line is. -/
theorem draft_generated_order :
    orderDraft.catalog.entries.map (·.column.name) = ["id", "line"] ∧
      orderDraft.catalog.leaves.filter (!·.isWritable) =
        [{ name := "total", field := "total", type := some .integer, generated := .stored }] := by
  obtain ⟨hnames, -, hleaves, -⟩ := Yields.draft_generated orders_reachable yields_order rfl rfl
  exact ⟨hnames.trans rfl, hleaves.trans rfl⟩

/-- The columns of a draft are not always all writable. -/
theorem not_draft_writable : ¬ ∀ (s : Schema) (reference : Reference) (x : Derived) (c : Catalog)
    (draft : Draft), s.Reachable → s.Yields reference x → x.catalog = .record c →
    x.draft = some draft → ∀ leaf ∈ draft.catalog.leaves, leaf.isWritable = true := by
  intro h
  have hall := h orders (.name "Order") _ orderCatalog orderDraft orders_reachable yields_order
    rfl rfl
  have hnone : orderDraft.catalog.leaves.filter (!·.isWritable) = [] := by
    rw [List.filter_eq_nil_iff]
    intro leaf hleaf
    simp [hall leaf hleaf]
  have hone : orderDraft.catalog.leaves.filter (!·.isWritable) = [_] := rfl
  rw [hone] at hnone
  cases hnone

end Schema

end RowSchema
