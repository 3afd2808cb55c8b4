import RowSchema.Proofs.Schema.PrimaryKey

/-! # Drafts of tables

A table whose fields have different names has a draft just if each of its entries that is not
generated has a type for its parameter; one error is reported for each that has none. The draft
mirrors these entries, in order and unchanged but for the primary key, which may be left to the
database. -/

namespace RowSchema

variable {settings : Options} {r : Record}

/-! ## What a draft should be -/

/-- The declared type of the field with that name, else the type of its literal default. -/
def Record.typeOf? (r : Record) (name : String) : Option TypeRef :=
  (r.fields.find? (·.name == name)).bind ColumnSpec.fieldType

/-- The entry of a table in its draft. -/
def Entry.drafted (e : Entry) : Entry :=
  if e.column.isPrimaryKey then
    { e with column := { e.column.nullable with default := some .nil } }
  else e

/-- The parameter of an entry of a draft, whose field has that type. -/
structure DraftParameter.For (type : Option TypeRef) (e : Entry) (p : DraftParameter) : Prop where
  name : p.name = e.column.field
  type : some p.type = type.map fun t => if e.column.isPrimaryKey then t.optional else t
  default : p.default = e.column.default

/-- The report is that of an entry that has no type. -/
structure Draft.Lacks (e : Entry) (d : Diagnostic) : Prop where
  problem : d.problem = .typeInference
  isFatal : d.isFatal = true
  fieldName : d.fieldName = some e.column.field
  message : d.message = "'@Table' requires '" ++ e.column.field ++
    "' to have a type annotation in order to " ++ "generate a memberwise initializer"

@[simp] theorem Entry.drafted_field (e : Entry) : e.drafted.column.field = e.column.field := by
  unfold Entry.drafted
  split <;> rfl

@[simp] theorem Entry.drafted_name (e : Entry) : e.drafted.column.name = e.column.name := by
  unfold Entry.drafted
  split <;> rfl

@[simp] theorem Entry.drafted_isPrimaryKey (e : Entry) :
    e.drafted.column.isPrimaryKey = e.column.isPrimaryKey := by
  unfold Entry.drafted
  split <;> rfl

/-! ## Types of parameters -/

/-- What is found by a name that only one item has. -/
theorem find?_of_unique {α : Type} {name : α → String} {l : List α} {a : α} (ha : a ∈ l)
    (hunique : ∀ b ∈ l, name b = name a → b = a) :
    l.find? (fun b => name b == name a) = some a := by
  cases hfind : l.find? fun b => name b == name a with
  | none => exact absurd (List.find?_eq_none.mp hfind a ha) (by simp)
  | some b =>
    have hname : name b = name a := by simpa using List.find?_some hfind
    rw [hunique b (List.mem_of_find?_eq_some hfind) hname]

section Tables

variable {outline : RecordOutline} {members : List (Option Group)} {catalog : Catalog}
  {diagnostics : List Diagnostic} (outlined : RecordOutline.ofRecord settings r = .ok outline)
  (resolved : List.Forall₂ ColumnSpec.HasMembers outline.specs members)
  (built : outline.catalog r (members.map .ok) = (catalog, diagnostics))
  (clean : Diagnostic.hasErrors diagnostics = false)
  (distinct : (r.fields.map (·.name)).Nodup)

include outlined resolved built clean

/-- Only the primary key is marked. -/
theorem RecordOutline.eq_of_marked {key e : Entry} (hkey : catalog.primaryKey? = some key)
    (he : e ∈ catalog.entries) (hmarked : e.column.isPrimaryKey = true) : e = key := by
  have hmarkedKey : key.column.isPrimaryKey = true := by simpa using List.find?_some hkey
  obtain ⟨i, hi⟩ := List.getElem?_of_mem he
  obtain ⟨j, hj⟩ := List.getElem?_of_mem (List.mem_of_find?_eq_some hkey)
  have hprimary := (RecordOutline.marked outlined resolved built clean hi).mp hmarked
  have hprimary' := (RecordOutline.marked outlined resolved built clean hj).mp hmarkedKey
  obtain rfl : i = j := Option.some.inj (hprimary.symm.trans hprimary')
  exact Option.some.inj (hi.symm.trans hj)

include distinct

/-- The specification that a draft finds for an entry is that of the entry's field. -/
theorem RecordOutline.exists_found {e : Entry} (he : e ∈ catalog.entries) :
    ∃ spec, outline.specs.reverse.find? (·.name == e.column.field) = some spec ∧
      spec.type = r.typeOf? e.column.field ∧
      (e.column.type = none → spec.type = none) := by
  obtain ⟨hown, -, -⟩ := RecordOutline.catalog_clean built clean
  have hspecs := RecordOutline.specs_clean outlined hown
  obtain ⟨i, hi⟩ := List.getElem?_of_mem he
  obtain ⟨spec, m, hspec, hm, rfl⟩ := RecordOutline.getElem?_entries resolved built clean hi
  obtain ⟨f, hf, hof⟩ := exists_left_of_getElem? hspecs hspec
  have hmem := List.mem_of_getElem? hspec
  have hfield := (List.mem_filter.mp (List.mem_of_getElem? hf)).1
  have hnodup := (RecordOutline.specs_names outlined).nodup distinct
  rw [RecordOutline.entry_field]
  refine ⟨spec, ?_, ?_, ?_⟩
  · exact find?_of_unique (List.mem_reverse.mpr hmem) fun b hb hname =>
      List.inj_on_of_nodup_map hnodup (List.mem_reverse.mp hb) hmem hname
  · have hfound : r.fields.find? (·.name == f.name) = some f :=
      find?_of_unique hfield fun b hb hname =>
        List.inj_on_of_nodup_map distinct hb hfield hname
    rw [Record.typeOf?, hof.name, hfound, Option.bind_some, hof.type]
  · intro hnone
    cases m with
    | none => exact (Option.or_eq_none_iff.mp hnone).2
    | some g => exact hnone

/-- An entry without a type is reported. -/
theorem Draft.ofEntry_lacks (spans : Dictionary String Span) {e : Entry}
    (he : e ∈ catalog.entries) (htype : r.typeOf? e.column.field = none) :
    ∃ d, Draft.ofEntry outline.specs spans e = .error d ∧ Draft.Lacks e d := by
  obtain ⟨spec, hspec, hdeclared, -⟩ :=
    RecordOutline.exists_found outlined resolved built clean distinct he
  rw [htype] at hdeclared
  rw [Draft.ofEntry, hspec]
  simp only [hdeclared]
  exact ⟨_, rfl, rfl, rfl, rfl, rfl⟩

/-- An entry with a type goes into the draft. -/
theorem Draft.ofEntry_eq (spans : Dictionary String Span) {e : Entry}
    (he : e ∈ catalog.entries) {type : TypeRef} (htype : r.typeOf? e.column.field = some type) :
    ∃ p, Draft.ofEntry outline.specs spans e = .ok (e.drafted, p) ∧
      DraftParameter.For (r.typeOf? e.drafted.column.field) e.drafted p ∧
      (e.column.isPrimaryKey = true → e.drafted.column.isNullable = true) := by
  obtain ⟨spec, hspec, hdeclared, htyped⟩ :=
    RecordOutline.exists_found outlined resolved built clean distinct he
  rw [htype] at hdeclared
  have hsome : e.column.type.isSome = true := by
    rw [Option.isSome_iff_ne_none]
    intro hnone
    rw [htyped hnone] at hdeclared
    cases hdeclared
  rw [Draft.ofEntry, hspec, Entry.drafted_field, htype]
  simp only [hdeclared]
  cases hkey : e.column.isPrimaryKey with
  | true =>
    have hdrafted : e.drafted =
        { e with column := { e.column.nullable with default := some .nil } } := if_pos hkey
    refine ⟨⟨e.column.field, type.optional, some .nil⟩, by rw [hdrafted]; rfl, ?_, fun _ => ?_⟩
    · refine ⟨(Entry.drafted_field e).symm, ?_, by rw [hdrafted]⟩
      rw [Entry.drafted_isPrimaryKey, hkey]
      rfl
    · obtain ⟨t, ht⟩ := Option.isSome_iff_exists.mp hsome
      rw [hdrafted, Column.isNullable, Column.nullable, ht]
      rfl
  | false =>
    have hdrafted : e.drafted = e := if_neg (by simp [hkey])
    refine ⟨⟨e.column.field, type, e.column.default⟩, by rw [hdrafted]; rfl, ?_, fun h =>
      absurd h Bool.false_ne_true⟩
    refine ⟨(Entry.drafted_field e).symm, ?_, by rw [hdrafted]⟩
    rw [Entry.drafted_isPrimaryKey, hkey]
    rfl

end Tables

/-! ## From a table to its draft -/

/-- The draft has the entries of the table that are not generated, and a parameter for each. -/
structure Draft.Mirrors (r : Record) (catalog : Catalog) (d : Draft) : Prop where
  entries : d.catalog.entries = (catalog.entries.filter (·.column.isWritable)).map Entry.drafted
  parameters : List.Forall₂ (fun e p => DraftParameter.For (r.typeOf? e.column.field) e p)
    d.catalog.entries d.parameters
  optional : ∀ e ∈ d.catalog.entries, e.column.isPrimaryKey = true →
    e.column.isNullable = true ∧ e.column.default = some .nil
  typeName : d.typeName = catalog.typeName ++ ".Draft"
  table : d.catalog.table = catalog.table
  schema : d.catalog.schema = catalog.schema

section

variable {catalog : Catalog} {specs : List ColumnSpec} {spans : Dictionary String Span}

/-- What the results for entries are: an error where the field has no type, else the entry of the
draft and its parameter. -/
structure Draft.Decides (r : Record) (specs : List ColumnSpec) (spans : Dictionary String Span)
    (e : Entry) : Prop where
  lacks : r.typeOf? e.column.field = none →
    ∃ d, Draft.ofEntry specs spans e = .error d ∧ Draft.Lacks e d
  fits : ∀ type, r.typeOf? e.column.field = some type →
    ∃ p, Draft.ofEntry specs spans e = .ok (e.drafted, p) ∧
      DraftParameter.For (r.typeOf? e.drafted.column.field) e.drafted p ∧
      (e.column.isPrimaryKey = true → e.drafted.column.isNullable = true)

/-- The errors are those of the entries without a type. -/
theorem Draft.errors_lack {entries : List Entry}
    (h : ∀ e ∈ entries, Draft.Decides r specs spans e) :
    List.Forall₂ Draft.Lacks (entries.filter fun e => (r.typeOf? e.column.field).isNone)
      ((entries.map (Draft.ofEntry specs spans)).filterMap fun
        | .error d => some d
        | .ok _ => none) := by
  induction entries with
  | nil => exact .nil
  | cons e rest ih =>
    obtain ⟨hfirst, hrest⟩ := List.forall_mem_cons.mp h
    cases htype : r.typeOf? e.column.field with
    | none =>
      obtain ⟨d, hd, hlacks⟩ := hfirst.lacks htype
      rw [List.filter_cons_of_pos (by rw [htype]; rfl), List.map_cons, hd]
      exact .cons hlacks (ih hrest)
    | some type =>
      obtain ⟨p, hp, -⟩ := hfirst.fits type htype
      rw [List.filter_cons_of_neg (by simp [htype]), List.map_cons, hp]
      exact ih hrest

/-- Where no entry is without a type, the results give the draft. -/
theorem Draft.Mirrors.of_results {entries : List Entry} {kept : List (Entry × DraftParameter)}
    {d : Draft} (hentries : entries = catalog.entries.filter (·.column.isWritable))
    (h : ∀ e ∈ entries, Draft.Decides r specs spans e)
    (hresults : List.Forall₂ (fun e pair => Draft.ofEntry specs spans e = .ok pair) entries kept)
    (hcatalog : d.catalog = { catalog with
      typeName := catalog.typeName ++ ".Draft", entries := kept.map (·.1), maker := none })
    (hparameters : d.parameters = kept.map (·.2))
    (htypeName : d.typeName = catalog.typeName ++ ".Draft") : d.Mirrors r catalog := by
  have hkept : List.Forall₂ (fun e pair => pair.1 = e.drafted ∧
      DraftParameter.For (r.typeOf? e.drafted.column.field) e.drafted pair.2 ∧
      (e.column.isPrimaryKey = true → e.drafted.column.isNullable = true)) entries kept := by
    refine ((List.forall₂_and_left _ _).mpr ⟨h, hresults⟩).imp fun e pair hpair => ?_
    obtain ⟨hdecides, hok⟩ := hpair
    cases htype : r.typeOf? e.column.field with
    | none =>
      obtain ⟨fault, hfault, -⟩ := hdecides.lacks htype
      rw [hok] at hfault
      cases hfault
    | some type =>
      obtain ⟨p, hp, hrest⟩ := hdecides.fits type htype
      rw [hok] at hp
      cases hp
      exact ⟨rfl, hrest⟩
  refine ⟨?_, ?_, ?_, htypeName, by rw [hcatalog], by rw [hcatalog]⟩
  · rw [hcatalog, ← hentries, ← List.forall₂_eq_eq_eq, List.forall₂_map_left_iff,
      List.forall₂_map_right_iff]
    exact hkept.flip.imp fun _ _ hpair => hpair.1
  · rw [hcatalog, hparameters, List.forall₂_map_left_iff, List.forall₂_map_right_iff,
      List.forall₂_same]
    intro pair hpair
    obtain ⟨e, -, hfirst, hparameter, -⟩ := exists_left_of_mem hkept hpair
    rw [hfirst]
    exact hparameter
  · intro e' he' hmarked
    rw [hcatalog] at he'
    obtain ⟨pair, hpair, rfl⟩ := List.mem_map.mp he'
    obtain ⟨e, -, hfirst, -, hnullable⟩ := exists_left_of_mem hkept hpair
    rw [hfirst, Entry.drafted_isPrimaryKey] at hmarked
    rw [hfirst]
    exact ⟨hnullable hmarked, by rw [Entry.drafted, if_pos hmarked]⟩

end

/-- A draft that mirrors its table does not require the key. -/
theorem Draft.Mirrors.key_notMem_required {catalog : Catalog} {d : Draft} (h : d.Mirrors r catalog)
    (hnames : (catalog.entries.map (·.column.name)).Nodup) {key : Entry}
    (hkey : catalog.primaryKey? = some key) : key.column.name ∉ d.catalog.required := by
  intro hmem
  obtain ⟨e', he', hname⟩ := List.mem_map.mp hmem
  obtain ⟨he', hrequired⟩ := List.mem_filter.mp he'
  have hdrafted := he'
  rw [h.entries] at hdrafted
  obtain ⟨e, he, rfl⟩ := List.mem_map.mp hdrafted
  rw [Entry.drafted_name] at hname
  have hmarked : key.column.isPrimaryKey = true := by simpa using List.find?_some hkey
  obtain rfl : e = key := List.inj_on_of_nodup_map hnames (List.mem_filter.mp he).1
    (List.mem_of_find?_eq_some hkey) hname
  obtain ⟨-, hdefault⟩ := h.optional _ he' (by rwa [Entry.drafted_isPrimaryKey])
  rw [Column.isRequired, hdefault] at hrequired
  cases hrequired

/-- A table with a key has a draft, which mirrors it, or an error is reported for each entry that
has no type. -/
theorem Draft.ofCatalog_mirrors {outline : RecordOutline} {members : List (Option Group)}
    {catalog : Catalog} {diagnostics : List Diagnostic} {key : Entry}
    (outlined : RecordOutline.ofRecord settings r = .ok outline)
    (resolved : List.Forall₂ ColumnSpec.HasMembers outline.specs members)
    (built : outline.catalog r (members.map .ok) = (catalog, diagnostics))
    (clean : Diagnostic.hasErrors diagnostics = false)
    (distinct : (r.fields.map (·.name)).Nodup) (keyed : catalog.primaryKey? = some key)
    (spans : Dictionary String Span) :
    (∀ e ∈ catalog.entries, e.column.isPrimaryKey = true → e = key) ∧
      List.Forall₂ Draft.Lacks
        ((catalog.entries.filter (·.column.isWritable)).filter
          fun e => (r.typeOf? e.column.field).isNone)
        (Draft.ofCatalog catalog outline.specs spans).2 ∧
      ((Draft.ofCatalog catalog outline.specs spans).1 = none ↔
        ∃ e ∈ catalog.entries, e.column.isWritable = true ∧ r.typeOf? e.column.field = none) ∧
      ∀ d, (Draft.ofCatalog catalog outline.specs spans).1 = some d →
        d.Mirrors r catalog ∧ key.column.name ∉ d.catalog.required := by
  have hdecides : ∀ e ∈ catalog.entries.filter (·.column.isWritable),
      Draft.Decides r outline.specs spans e := fun e he =>
    ⟨Draft.ofEntry_lacks outlined resolved built clean distinct spans (List.mem_filter.mp he).1,
      fun _ => Draft.ofEntry_eq outlined resolved built clean distinct spans
        (List.mem_filter.mp he).1⟩
  have hnames : (catalog.entries.map (·.column.name)).Nodup := by
    obtain ⟨rfl, -⟩ := Prod.mk.inj built
    exact (RecordOutline.nodup_entries _ []).1
  have huntyped : (∃ e ∈ catalog.entries, e.column.isWritable = true ∧
      r.typeOf? e.column.field = none) ↔ ((catalog.entries.filter (·.column.isWritable)).filter
        fun e => (r.typeOf? e.column.field).isNone) ≠ [] := by
    simp [List.filter_eq_nil_iff, and_comm]
  have hreports := Draft.errors_lack hdecides
  refine ⟨fun e => RecordOutline.eq_of_marked outlined resolved built clean keyed, ?_⟩
  rw [huntyped]
  unfold Draft.ofCatalog
  rw [keyed]
  dsimp only
  split
  · next hempty =>
    have hempty := List.isEmpty_iff.mp hempty
    have hnone := List.length_eq_zero_iff.mp
      (hreports.length_eq.trans (congrArg List.length hempty))
    rw [hnone]
    refine ⟨.nil, ⟨nofun, fun hne => absurd rfl hne⟩, ?_⟩
    intro d hd
    have hmirrors : d.Mirrors r catalog := by
      cases hd
      exact .of_results rfl hdecides (forall₂_of_no_error (fun _ => rfl) hempty) rfl rfl rfl
    exact ⟨hmirrors, hmirrors.key_notMem_required hnames keyed⟩
  · next hreported =>
    refine ⟨hreports, ⟨fun _ hnone => ?_, fun _ => rfl⟩, nofun⟩
    rw [hnone] at hreports
    exact hreported (List.isEmpty_iff.mpr (List.forall₂_nil_left_iff.mp hreports))

namespace Schema

/-- The order's draft has its key and its line, and does not require the key. -/
theorem ofCatalog_mirrors_order :
    Draft.Mirrors orderRecord orderCatalog orderDraft ∧ "id" ∉ orderDraft.catalog.required := by
  obtain ⟨outline, outlined, resolved, built, drafted⟩ : ∃ outline,
      RecordOutline.ofRecord {} orderRecord = .ok outline ∧
      List.Forall₂ ColumnSpec.HasMembers outline.specs [none, lineEntry.members, none] ∧
      outline.catalog orderRecord ([none, lineEntry.members, none].map .ok) = (orderCatalog, []) ∧
      Draft.ofCatalog orderCatalog outline.specs [] = (some orderDraft, []) :=
    ⟨_, rfl, .cons rfl (.cons rfl (.cons rfl .nil)), rfl, rfl⟩
  obtain ⟨-, -, -, hdraft⟩ :=
    Draft.ofCatalog_mirrors outlined resolved built rfl (by decide) rfl []
  exact hdraft orderDraft (congrArg Prod.fst drafted)

end Schema

end RowSchema
