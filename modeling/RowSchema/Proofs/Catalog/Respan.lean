import RowSchema.Proofs.Record.Respan
import RowSchema.Schema

/-! # Catalogs with other spans

The defaults of columns are expressions of the text, and so have spans. Nothing that is built from a
catalog depends on them: neither its width and its columns nor its decode plans. -/

namespace RowSchema

def Column.respan (f : Option Span → Option Span) (c : Column) : Column :=
  { c with default := c.default.map (Expr.respan f) }

mutual

/-- The entry with each span `s` in it, at any depth, changed to `f s`. -/
def Entry.respan (f : Option Span → Option Span) : Entry → Entry
  | ⟨column, none⟩ => ⟨column.respan f, none⟩
  | ⟨column, some members⟩ => ⟨column.respan f, some (members.respan f)⟩

def Group.respan (f : Option Span → Option Span) : Group → Group
  | .record catalog => .record (catalog.respan f)
  | .enum catalog => .enum (catalog.respan f)

def Catalog.respan (f : Option Span → Option Span) : Catalog → Catalog
  | ⟨typeName, entries, table, schema, maker⟩ =>
    ⟨typeName, Entry.respanAll f entries, table, schema, maker⟩

def Entry.respanAll (f : Option Span → Option Span) : List Entry → List Entry
  | [] => []
  | e :: rest => e.respan f :: Entry.respanAll f rest

def EnumCatalog.respan (f : Option Span → Option Span) : EnumCatalog → EnumCatalog
  | ⟨typeName, cases, table, schema, maker⟩ =>
    ⟨typeName, CaseEntry.respanAll f cases, table, schema, maker⟩

def CaseEntry.respan (f : Option Span → Option Span) : CaseEntry → CaseEntry
  | ⟨name, label, none⟩ => ⟨name, label, none⟩
  | ⟨name, label, some e⟩ => ⟨name, label, some (e.respan f)⟩

def CaseEntry.respanAll (f : Option Span → Option Span) : List CaseEntry → List CaseEntry
  | [] => []
  | c :: rest => c.respan f :: CaseEntry.respanAll f rest

end

def DraftParameter.respan (f : Option Span → Option Span) (p : DraftParameter) : DraftParameter :=
  { p with default := p.default.map (Expr.respan f) }

def Draft.respan (f : Option Span → Option Span) (d : Draft) : Draft :=
  { d with
    catalog := d.catalog.respan f
    parameters := d.parameters.map (DraftParameter.respan f)
    primaryKey := d.primaryKey.respan f }

variable (f : Option Span → Option Span)

theorem Entry.respanAll_eq_map (es : List Entry) : respanAll f es = es.map (respan f) := by
  induction es with
  | nil => rw [respanAll, List.map_nil]
  | cons e es ih => rw [respanAll, ih, List.map_cons]

theorem CaseEntry.respanAll_eq_map (cs : List CaseEntry) : respanAll f cs = cs.map (respan f) := by
  induction cs with
  | nil => rw [respanAll, List.map_nil]
  | cons c cs ih => rw [respanAll, ih, List.map_cons]

theorem Entry.respan_eq (e : Entry) :
    e.respan f = { column := e.column.respan f, members := e.members.map (Group.respan f) } := by
  obtain ⟨column, _ | members⟩ := e <;> rw [respan] <;> rfl

theorem Catalog.respan_eq (c : Catalog) :
    c.respan f = { c with entries := c.entries.map (Entry.respan f) } := by
  obtain ⟨typeName, entries, table, schema, maker⟩ := c
  rw [respan, Entry.respanAll_eq_map]

theorem EnumCatalog.respan_eq (c : EnumCatalog) :
    c.respan f = { c with cases := c.cases.map (CaseEntry.respan f) } := by
  obtain ⟨typeName, cases, table, schema, maker⟩ := c
  rw [respan, CaseEntry.respanAll_eq_map]

theorem CaseEntry.respan_eq (c : CaseEntry) :
    c.respan f = { c with payload := c.payload.map (Entry.respan f) } := by
  obtain ⟨name, label, _ | e⟩ := c <;> rw [respan] <;> rfl

@[simp] theorem Entry.column_respan (e : Entry) : (e.respan f).column = e.column.respan f := by
  rw [respan_eq]

@[simp] theorem Entry.width_respan (e : Entry) : (e.respan f).width = e.width := by
  rw [width, column_respan]
  rfl

theorem Entry.totalWidth_respan (es : List Entry) :
    totalWidth (es.map (respan f)) = totalWidth es := by
  induction es with
  | nil => rfl
  | cons e es ih => rw [List.map_cons, totalWidth, totalWidth, width_respan, ih]

@[simp] theorem Catalog.width_respan (c : Catalog) : (c.respan f).width = c.width := by
  rw [respan_eq]
  exact Entry.totalWidth_respan f c.entries

theorem CaseEntry.totalWidth_respan (cs : List CaseEntry) :
    totalWidth (cs.map (respan f)) = totalWidth cs := by
  induction cs with
  | nil => rfl
  | cons c cs ih =>
    have hwidth : (c.respan f).width = c.width := by
      rw [respan_eq, width, width, Option.map_map]
      exact congrArg (fun g => (c.payload.map g).getD 0) (funext (Entry.width_respan f))
    rw [List.map_cons, totalWidth, totalWidth, hwidth, ih]

@[simp] theorem EnumCatalog.width_respan (c : EnumCatalog) : (c.respan f).width = c.width := by
  rw [respan_eq]
  exact CaseEntry.totalWidth_respan f c.cases

@[simp] theorem Group.width_respan (g : Group) : (g.respan f).width = g.width := by
  cases g with
  | record c =>
    rw [respan]
    exact c.width_respan f
  | enum c =>
    rw [respan]
    exact c.width_respan f

/-! ## Columns -/

theorem map_nullable_respan (columns : List Column) :
    (columns.map (Column.respan f)).map Column.nullable =
      (columns.map Column.nullable).map (Column.respan f) := by
  simp only [List.map_map]
  rfl

mutual

theorem Entry.leaves_respan : (e : Entry) →
    (e.respan f).leaves = e.leaves.map (Column.respan f)
  | ⟨column, none⟩ => by simp only [Entry.respan, Entry.leaves, List.map_cons, List.map_nil]
  | ⟨column, some members⟩ => by
    have hnullable : (column.respan f).isNullable = column.isNullable := rfl
    simp only [Entry.respan, Entry.leaves, Group.leaves_respan members, hnullable,
      map_nullable_respan]
    split <;> rfl

theorem Group.leaves_respan : (g : Group) → (g.respan f).leaves = g.leaves.map (Column.respan f)
  | .record catalog => by simp only [Group.respan, Group.leaves, Catalog.leaves_respan catalog]
  | .enum catalog => by simp only [Group.respan, Group.leaves, EnumCatalog.leaves_respan catalog]

theorem Catalog.leaves_respan : (c : Catalog) →
    (c.respan f).leaves = c.leaves.map (Column.respan f)
  | ⟨_, entries, _, _, _⟩ => by
    simp only [Catalog.respan, Catalog.leaves, Entry.leavesAll_respan entries]

theorem Entry.leavesAll_respan : (es : List Entry) →
    Entry.leavesAll (Entry.respanAll f es) = (Entry.leavesAll es).map (Column.respan f)
  | [] => by simp only [Entry.respanAll, Entry.leavesAll, List.map_nil]
  | e :: rest => by
    simp only [Entry.respanAll, Entry.leavesAll, Entry.leaves_respan e,
      Entry.leavesAll_respan rest, List.map_append]

theorem EnumCatalog.leaves_respan : (c : EnumCatalog) →
    (c.respan f).leaves = c.leaves.map (Column.respan f)
  | ⟨_, cases, _, _, _⟩ => by
    simp only [EnumCatalog.respan, EnumCatalog.leaves, CaseEntry.leavesAll_respan cases]

theorem CaseEntry.leaves_respan : (c : CaseEntry) →
    (c.respan f).leaves = c.leaves.map (Column.respan f)
  | ⟨_, _, none⟩ => by simp only [CaseEntry.respan, CaseEntry.leaves, List.map_nil]
  | ⟨_, _, some e⟩ => by
    simp only [CaseEntry.respan, CaseEntry.leaves, Entry.leaves_respan e, map_nullable_respan]

theorem CaseEntry.leavesAll_respan : (cs : List CaseEntry) →
    CaseEntry.leavesAll (CaseEntry.respanAll f cs) =
      (CaseEntry.leavesAll cs).map (Column.respan f)
  | [] => by simp only [CaseEntry.respanAll, CaseEntry.leavesAll, List.map_nil]
  | c :: rest => by
    simp only [CaseEntry.respanAll, CaseEntry.leavesAll, CaseEntry.leaves_respan c,
      CaseEntry.leavesAll_respan rest, List.map_append]

end

theorem aliasesOf_respan (columns : List Column) :
    aliasesOf (columns.map (Column.respan f)) = aliasesOf columns := by
  rw [aliasesOf, aliasesOf, List.map_map]
  rfl

/-! ## Decode plans -/

theorem Column.isRequired_respan (c : Column) : (c.respan f).isRequired = c.isRequired := by
  simp only [respan, isRequired, Option.isNone_map]
  rfl

theorem required_respan (es : List Entry) :
    ((es.map (Entry.respan f)).filter (·.column.isRequired)).map (·.column.name) =
      (es.filter (·.column.isRequired)).map (·.column.name) := by
  have hrequired : ((·.column.isRequired) ∘ Entry.respan f) = (·.column.isRequired) :=
    funext fun e => by rw [Function.comp_apply, Entry.column_respan, Column.isRequired_respan]
  have hname : ((·.column.name) ∘ Entry.respan f) = (·.column.name) :=
    funext fun e => by rw [Function.comp_apply, Entry.column_respan, Column.respan]
  rw [List.filter_map, List.map_map, hrequired, hname]

mutual

theorem Catalog.planEvents_respan : (c : Catalog) → (c.respan f).planEvents = c.planEvents
  | ⟨_, entries, _, _, _⟩ => by
    rw [Catalog.respan, Catalog.planEvents, Catalog.planEvents, Entry.planEvents_respan entries,
      Entry.respanAll_eq_map, required_respan, List.length_map]

theorem Entry.planEvents_respan : (es : List Entry) →
    Entry.planEvents (Entry.respanAll f es) = Entry.planEvents es
  | [] => by rw [Entry.respanAll]
  | ⟨_, none⟩ :: rest => by
    simp only [Entry.respanAll, Entry.respan, Entry.planEvents, Entry.planEvents_respan rest]
  | ⟨_, some (.record catalog)⟩ :: rest => by
    simp only [Entry.respanAll, Entry.respan, Group.respan, Entry.planEvents,
      Catalog.planEvents_respan catalog, Entry.planEvents_respan rest]
  | ⟨_, some (.enum catalog)⟩ :: rest => by
    simp only [Entry.respanAll, Entry.respan, Group.respan, Entry.planEvents,
      Entry.planEvents_respan rest]

end

theorem Group.planEvents_respan (g : Group) : (g.respan f).planEvents = g.planEvents := by
  cases g with
  | record c =>
    rw [respan]
    exact c.planEvents_respan f
  | enum c =>
    rw [respan]
    rfl

/-! ## Parts of catalogs -/

theorem Catalog.asGroup_respan (c : Catalog) : (c.respan f).asGroup = c.asGroup.respan f := by
  simp only [asGroup, respan_eq, List.map_map, Function.comp_def, Entry.respan_eq]
  rfl

theorem EnumCatalog.asGroup_respan (c : EnumCatalog) :
    (c.respan f).asGroup = c.asGroup.respan f := by
  simp only [asGroup, respan_eq]

theorem Group.asGroup_respan (g : Group) : (g.respan f).asGroup = g.asGroup.respan f := by
  cases g with
  | record c => simp only [respan, asGroup, Catalog.asGroup_respan]
  | enum c => simp only [respan, asGroup, EnumCatalog.asGroup_respan]

theorem Entry.nullable_respan (e : Entry) : (e.respan f).nullable = e.nullable.respan f := by
  simp only [nullable, respan_eq]
  rfl

theorem Catalog.primaryKey?_respan (c : Catalog) :
    (c.respan f).primaryKey? = c.primaryKey?.map (Entry.respan f) := by
  have hmarked : ((·.column.isPrimaryKey) ∘ Entry.respan f) = (·.column.isPrimaryKey) :=
    funext fun e => by rw [Function.comp_apply, Entry.column_respan, Column.respan]
  rw [primaryKey?, primaryKey?, respan_eq, List.find?_map, hmarked]

end RowSchema
