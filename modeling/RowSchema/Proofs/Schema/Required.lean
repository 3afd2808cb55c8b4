import RowSchema.Proofs.Schema.Mirrored

/-! # What a draft requires

A field of a draft may be left out in two places: its value when the draft is made, and its column
when a row of the draft is read. The constructor goes by the declared type, but the row by the type
that values are stored as. Both allow it for the primary key and for a field with a default; for
another field they agree just if both types are optional or neither is. -/

namespace RowSchema

variable {registry : Registry} {settings : Options} {r : Record}

/-- The type that a draft's constructor takes for a name: that of the last stored field with it. -/
def Record.parameterType? (r : Record) (name : String) : Option TypeRef :=
  ((r.fields.filter Field.isStored).reverse.find? (·.name == name)).bind ColumnSpec.fieldType

/-- The type that values of a field are stored as. A column group has no other than its own. -/
def Field.storedType? (f : Field) : Option TypeRef :=
  if (Attribute.named? "Columns" f.attributes).isSome then ColumnSpec.fieldType f
  else (inColumn? Argument.representation? f.attributes).or (ColumnSpec.fieldType f)

/-- Whether values of that type may be null. -/
def admitsNull (type : Option TypeRef) : Bool := type.any (·.isOptional)

/-- When the parameter and the entry of a field are required in a draft. -/
structure Draft.Requires (r : Record) (f : Field) (e : Entry) (p : DraftParameter) : Prop where
  name : p.name = f.name
  field : e.column.field = f.name
  parameter : p.isRequired = true ↔ f.default = none ∧ e.column.isPrimaryKey = false ∧
    admitsNull (r.parameterType? f.name) = false
  step : e.column.isRequired = true ↔ f.default = none ∧ e.column.isPrimaryKey = false ∧
    admitsNull f.storedType? = false

/-- Parameter and entry agree, unless it is only the types that decide and they differ. -/
theorem Draft.Requires.agree_iff {f : Field} {e : Entry} {p : DraftParameter}
    (h : Draft.Requires r f e p) : p.isRequired = e.column.isRequired ↔
      (f.default = none → e.column.isPrimaryKey = false →
        admitsNull (r.parameterType? f.name) = admitsNull f.storedType?) := by
  rw [Bool.eq_iff_iff, h.parameter, h.step]
  cases admitsNull (r.parameterType? f.name) <;> cases admitsNull f.storedType? <;> simp

/-! ## Entries of the table -/

theorem RecordOutline.entry_types {f : Field} {spec : ColumnSpec} {members : Option Group}
    (hspec : ColumnSpec.OfField f spec) (hmembers : spec.HasMembers members)
    (isPrimaryKey : Bool) :
    (RecordOutline.entry isPrimaryKey spec members).column.default = f.default ∧
      (RecordOutline.entry isPrimaryKey spec members).column.type = f.storedType? := by
  have hgroup := Eq.trans hmembers hspec.isGroup
  cases members with
  | none =>
    refine ⟨hspec.default, ?_⟩
    rw [Field.storedType?, ← hgroup, RecordOutline.entry, ColumnSpec.semanticType,
      hspec.representation, hspec.type]
    rfl
  | some g =>
    refine ⟨hspec.default, ?_⟩
    rw [Field.storedType?, ← hgroup, RecordOutline.entry, hspec.type]
    rfl

/-- The type of the last specification with a name is that of the last stored field with it. -/
theorem RecordOutline.find?_specs {fields : List Field} {specs : List ColumnSpec}
    (h : List.Forall₂ ColumnSpec.OfField fields specs) (name : String) :
    (specs.find? (·.name == name)).map (·.type) =
      (fields.find? (·.name == name)).map ColumnSpec.fieldType := by
  induction h with
  | nil => rfl
  | @cons f spec fields specs hof _ ih =>
    rw [List.find?_cons, List.find?_cons, hof.name]
    cases f.name == name with
    | true => exact congrArg some hof.type
    | false => exact ih

/-! ## Entries of the draft -/

/-- An entry and its parameter are required by the types of their field. -/
theorem Draft.ofEntry_requires {specs : List ColumnSpec} {spans : Dictionary String Span}
    {e : Entry} {pair : Entry × DraftParameter} {f : Field}
    (h : Draft.ofEntry specs spans e = .ok pair)
    (hspecs : List.Forall₂ ColumnSpec.OfField (r.fields.filter Field.isStored) specs)
    (hf : f ∈ r.fields.filter Field.isStored) (hfield : e.column.field = f.name)
    (hdefault : e.column.default = f.default) (htype : e.column.type = f.storedType?) :
    Draft.Requires r f pair.1 pair.2 := by
  have hlast := RecordOutline.find?_specs (List.forall₂_reverse_iff.mpr hspecs) f.name
  unfold Draft.ofEntry at h
  rw [hfield] at h
  dsimp only at h
  cases hfind : specs.reverse.find? (·.name == f.name) with
  | none =>
    -- the field itself has the name
    rw [hfind, Option.map_none, eq_comm, Option.map_eq_none_iff, List.find?_eq_none] at hlast
    exact absurd (beq_self_eq_true f.name) (hlast f (List.mem_reverse.mpr hf))
  | some spec =>
    rw [hfind, Option.map_some, eq_comm, Option.map_eq_some_iff] at hlast
    obtain ⟨last, hlast, hspec⟩ := hlast
    have hparameter : r.parameterType? f.name = spec.type := by
      rw [Record.parameterType?, hlast, Option.bind_some, hspec]
    rw [hfind] at h
    dsimp only at h
    split at h
    · cases h
    · next type hknown =>
      split at h
      · next hkey =>
        cases h
        refine ⟨rfl, hfield, ?_, ?_⟩ <;>
          simp [DraftParameter.isRequired, Column.isRequired, Column.nullable, hkey]
      · next hplain =>
        cases h
        refine ⟨rfl, hfield, ?_, ?_⟩
        · rw [hparameter, hknown]
          simp [DraftParameter.isRequired, admitsNull, hdefault, hplain]
        · rw [← htype, ← hdefault]
          simp [Column.isRequired, Column.isNullable, admitsNull, hplain]

/-- Where entries and parameters agree, the same names are required. -/
theorem Draft.required_eq {entries : List Entry} {parameters : List DraftParameter}
    (h : List.Forall₂
      (fun e p => p.name = e.column.field ∧ p.isRequired = e.column.isRequired)
      entries parameters) :
    (parameters.filter (·.isRequired)).map (·.name) =
      (entries.filter (·.column.isRequired)).map (·.column.field) := by
  induction h with
  | nil => rfl
  | @cons e p entries parameters hfirst _ ih =>
    rw [List.filter_cons, List.filter_cons, hfirst.2]
    cases e.column.isRequired with
    | true => exact congrArg₂ _ hfirst.1 ih
    | false => exact ih

/-- A draft has for every entry a parameter, which are required by the types of one field. -/
def Derived.DraftRequires (x : Derived) : Prop :=
  ∀ draft, x.draft = some draft → List.Forall₂
    (fun e p => ∃ f ∈ x.record.fields, f.isStored = true ∧ Draft.Requires x.record f e p)
    draft.catalog.entries draft.parameters

theorem Composes.draftRequires {G : Record → Derived → Prop} {x : Derived}
    (h : Composes registry settings G r x) : x.DraftRequires := by
  intro draft hd
  cases h with
  | @struct outline members catalog _ diagnostics _ annotated kind outlined resolved built clean
      drafted =>
    obtain rfl := hd
    have hmembers := resolved.imp fun _ _ => FieldResolves.hasMembers
    obtain ⟨hown, -, -⟩ := RecordOutline.catalog_clean built clean
    have hspecs := RecordOutline.specs_clean outlined hown
    obtain ⟨kept, hkept, hentries, hparameters⟩ := draftOf_kept drafted
    rw [hentries, hparameters, List.forall₂_map_left_iff, List.forall₂_map_right_iff,
      List.forall₂_same]
    intro pair hpair
    obtain ⟨e, he, hentry⟩ := exists_left_of_mem hkept hpair
    obtain ⟨i, hi⟩ := List.getElem?_of_mem (List.mem_filter.mp he).1
    obtain ⟨spec, m, hspec, hm, rfl⟩ := RecordOutline.getElem?_entries hmembers built clean hi
    obtain ⟨f, hf, hof⟩ := exists_left_of_getElem? hspecs hspec
    have hstored := List.mem_of_getElem? hf
    obtain ⟨hdefault, htype⟩ := RecordOutline.entry_types hof hm (outline.primary == some i)
    refine ⟨f, (List.mem_filter.mp hstored).1, (List.mem_filter.mp hstored).2, ?_⟩
    exact Draft.ofEntry_requires hentry hspecs hstored
      ((RecordOutline.entry_field ..).trans hof.name) hdefault htype
  | enum => cases hd

namespace Schema

variable {s : Schema} {reference : Reference} {x : Derived} {draft : Draft}

/-- The parameter and the entry of a field are both not required if the field is the key or has a
default. Otherwise the parameter is required if the field's type is not optional, and the entry if
the type that it is stored as is not. So where these types are always both optional or both not,
just those fields must be given that a row must have. -/
theorem Yields.draft_required (hs : s.Reachable) (hx : s.Yields reference x)
    (hd : x.draft = some draft) :
    List.Forall₂ (fun e p => ∃ f ∈ x.record.fields, f.isStored = true ∧
        Draft.Requires x.record f e p ∧ (p.isRequired = e.column.isRequired ↔
          (f.default = none → e.column.isPrimaryKey = false →
            admitsNull (x.record.parameterType? f.name) = admitsNull f.storedType?)))
      draft.catalog.entries draft.parameters ∧
    ((∀ f ∈ x.record.fields, f.isStored = true → f.default = none →
        admitsNull (x.record.parameterType? f.name) = admitsNull f.storedType?) →
      (draft.parameters.filter (·.isRequired)).map (·.name) =
        (draft.catalog.entries.filter (·.column.isRequired)).map (·.column.field)) := by
  have hrequires := (hs.results fun _ _ _ _ => Composes.draftRequires).2 reference x hx draft hd
  refine ⟨hrequires.imp ?_, fun hagree => ?_⟩
  · rintro e p ⟨f, hf, hstored, h⟩
    exact ⟨f, hf, hstored, h, h.agree_iff⟩
  · refine Draft.required_eq (hrequires.imp ?_)
    rintro e p ⟨f, hf, hstored, h⟩
    exact ⟨h.name.trans h.field.symm, h.agree_iff.mpr fun hdefault _ =>
      hagree f hf hstored hdefault⟩

/-- The order's draft requires its line, both when it is made and when a row is read. -/
theorem draft_required_order :
    (orderDraft.parameters.filter (·.isRequired)).map (·.name) =
        (orderDraft.catalog.entries.filter (·.column.isRequired)).map (·.column.field) ∧
      (orderDraft.catalog.entries.filter (·.column.isRequired)).map (·.column.field) =
        ["line"] := by
  refine ⟨(Yields.draft_required orders_reachable yields_order rfl).2 ?_, rfl⟩
  decide

/-- A reminder has a date that may be absent, but is stored as a type that is not optional. -/
def reminderRecord : Record where
  name := "Reminder"
  attributes := [{ name := "Table" }]
  fields := [
    { name := "id", type := some .integer, isMutable := false },
    { name := "dueDate", type := some { name := "Date", isOptional := true }
      attributes := [{ name := "Column"
                       arguments := [⟨some "as", .type { name := "ISO8601" }, none⟩] }] }]

/-- What may be left out of a draft's constructor is not always what a row of it may lack. -/
theorem not_draft_required : ¬ ∀ (s : Schema) (reference : Reference) (x : Derived)
    (draft : Draft), s.Reachable → s.Yields reference x → x.draft = some draft →
    (draft.parameters.filter (·.isRequired)).map (·.name) =
      (draft.catalog.entries.filter (·.column.isRequired)).map (·.column.field) := by
  intro h
  have hsame := h (Schema.registerAll {} [reminderRecord]).1 (.name "Reminder") _ _
    ((Reachable.empty {}).registerAll _) ⟨_, _, rfl, rfl⟩ rfl
  have hparameters : [] = ["dueDate"] := hsame
  cases hparameters

end Schema

end RowSchema
