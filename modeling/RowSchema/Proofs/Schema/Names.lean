import RowSchema.Proofs.Decode.Fields
import RowSchema.Proofs.Schema.Parts
import RowSchema.Proofs.Schema.Rows

/-! # Names in a catalog

The entries of a struct have different column names, since the second one of a name is refused. The
names of their fields are those of declared fields, which nothing keeps apart: entries whose columns
are named differently may have one field name, and then only one of them is in a decoded record. -/

namespace RowSchema

variable {registry : Registry} {settings : Options} {r : Record}

/-! ## Specifications of fields -/

theorem ColumnSpec.ofField_name {role : Role} {f : Field} {resolved : Resolved}
    (h : ColumnSpec.ofField role f = .ok resolved) {name : String}
    (hname : resolved.name? = some name) : name = f.name := by
  unfold ColumnSpec.ofField at h
  dsimp only at h
  split at h
  · cases h
    cases hname
  · split at h
    · cases h
      cases hname
    · split at h
      · cases h
        exact (Option.some.inj hname).symm
      · split at h
        · cases h
          exact (Option.some.inj hname).symm
        · obtain ⟨pair, hpair, rfl⟩ := map_eq_ok.mp h
          obtain ⟨found, -, hfound⟩ := bind_eq_ok.mp hpair
          cases hfound
          exact (Option.some.inj hname).symm

theorem ColumnSpec.ofField_names {role : Role} {fields : List Field} {resolved : List Resolved}
    (h : List.Forall₂ (fun f answer => ColumnSpec.ofField role f = .ok answer) fields resolved) :
    (resolved.filterMap Resolved.name?).Sublist (fields.map (·.name)) := by
  induction h with
  | nil => exact .slnil
  | @cons f answer fields resolved hanswer _ ih =>
    cases hname : answer.name? with
    | none =>
      rw [List.filterMap_cons_none hname]
      exact ih.cons _
    | some name =>
      rw [List.filterMap_cons_some hname, ColumnSpec.ofField_name hanswer hname]
      exact ih.cons_cons _

theorem RecordOutline.specs_names {outline : RecordOutline}
    (h : RecordOutline.ofRecord settings r = .ok outline) :
    (outline.specs.map (·.name)).Sublist (r.fields.map (·.name)) := by
  obtain ⟨resolved, hresolved, h⟩ := bind_eq_ok.mp h
  cases h
  have hnames := ColumnSpec.ofField_names (mapM_eq_ok.mp hresolved)
  have hspecs : resolved.filterMap Resolved.name? =
      (resolved.filterMap (·.1)).map (·.name) := by
    rw [List.map_filterMap]
    rfl
  rw [hspecs] at hnames
  exact (List.filter_sublist.map _).trans hnames

/-! ## Entries -/

@[simp] theorem RecordOutline.entry_field (isPrimaryKey : Bool) (spec : ColumnSpec)
    (members : Option Group) :
    (RecordOutline.entry isPrimaryKey spec members).column.field = spec.name := by
  cases members <;> rfl

theorem RecordOutline.entries_fields {primary : Option Nat}
    (numbered : List (ColumnSpec × Nat × Resolution)) : ∀ seen : Dictionary String String,
    ((RecordOutline.entries primary seen numbered).1.map (·.column.field)).Sublist
      (numbered.map (·.1.name)) := by
  induction numbered with
  | nil =>
    intro seen
    exact .slnil
  | cons first rest ih =>
    intro seen
    obtain ⟨spec, i, resolution⟩ := first
    cases resolution with
    | error d =>
      rw [RecordOutline.entries]
      exact (ih seen).cons _
    | ok members =>
      rw [RecordOutline.entries]
      dsimp only
      split
      · exact (ih _).cons _
      · rw [List.map_cons, List.map_cons, RecordOutline.entry_field]
        exact (ih _).cons_cons _

/-- Of several entries with one column name only the first is taken. -/
theorem RecordOutline.nodup_entries {primary : Option Nat}
    (numbered : List (ColumnSpec × Nat × Resolution)) : ∀ seen : Dictionary String String,
    ((RecordOutline.entries primary seen numbered).1.map (·.column.name)).Nodup ∧
      ∀ e ∈ (RecordOutline.entries primary seen numbered).1,
        seen.get? e.column.name = none := by
  induction numbered with
  | nil =>
    intro seen
    exact ⟨List.nodup_nil, fun e he => absurd he List.not_mem_nil⟩
  | cons first rest ih =>
    intro seen
    obtain ⟨spec, i, resolution⟩ := first
    cases resolution with
    | error d =>
      rw [RecordOutline.entries]
      exact ih seen
    | ok members =>
      rw [RecordOutline.entries]
      dsimp only
      split
      · exact ih seen
      · rename_i hfree
        obtain ⟨hnodup, hfresh⟩ := ih
          (seen.put (RecordOutline.entry (primary == some i) spec members).column.name spec.name)
        refine ⟨List.nodup_cons.mpr ⟨?_, hnodup⟩, ?_⟩
        · intro hmem
          obtain ⟨e, he, hname⟩ := List.mem_map.mp hmem
          exact (Dictionary.get?_eq_none_of_put (hfresh e he)).1 hname
        · intro e he
          rcases List.mem_cons.mp he with rfl | he
          · exact hfree
          · exact (Dictionary.get?_eq_none_of_put (hfresh e he)).2

/-- The entries of a catalog have the field names of specifications, in order. -/
theorem RecordOutline.catalog_fields (o : RecordOutline) (r : Record)
    {resolutions : List Resolution} (h : resolutions.length = o.specs.length) :
    ((o.catalog r resolutions).1.entries.map (·.column.field)).Sublist
      (o.specs.map (·.name)) := by
  have hlength : o.specs.length ≤ ((List.range o.specs.length).zip resolutions).length := by
    simp [h]
  have hzip := congrArg (List.map (·.name)) (List.map_fst_zip hlength)
  rw [List.map_map] at hzip
  rw [← hzip]
  exact RecordOutline.entries_fields _ _

/-! ## Results -/

/-- The entries have different column names, and the field names of declared fields in order. -/
structure Catalog.Named (c : Catalog) (fields : List Field) : Prop where
  nodup : (c.entries.map (·.column.name)).Nodup
  fields : (c.entries.map (·.column.field)).Sublist (fields.map (·.name))

theorem Composes.named {G : Record → Derived → Prop} {x : Derived}
    (h : Composes registry settings G r x) {c : Catalog} (hc : x.catalog = .record c) :
    c.Named r.fields := by
  cases h with
  | @struct outline members _ _ _ _ _ _ outlined resolved built =>
    cases hc
    have hcat : (outline.catalog r (members.map .ok)).1 = c := congrArg Prod.fst built
    have hlength : (members.map Except.ok : List Resolution).length = outline.specs.length := by
      rw [List.length_map, resolved.length_eq]
    have hfields := outline.catalog_fields r hlength
    rw [← hcat]
    exact ⟨(RecordOutline.nodup_entries _ []).1,
      hfields.trans (RecordOutline.specs_names outlined)⟩
  | enum => cases hc

namespace Schema

variable {s : Schema} {reference : Reference} {x : Derived} {c : Catalog}

theorem Reachable.named (hs : s.Reachable) (hx : s.Yields reference x)
    (hc : x.catalog = .record c) : c.Named x.record.fields := by
  refine (hs.results (P := fun x => ∀ c, x.catalog = .record c → c.Named x.record.fields) ?_).2
    reference x hx c hc
  intro registry settings r x h c hc
  rw [h.record_eq]
  exact h.named hc

/-- A struct without a constructor is decoded to the fields of its entries, each once. None of the
entries is lost just if all of them have different field names, as their columns do. -/
theorem Yields.fields_kept (hs : s.Reachable) (hx : s.Yields reference x)
    (hc : x.catalog = .record c) (hmaker : c.maker = none) :
    (c.entries.map (·.column.name)).Nodup ∧
    (c.entries.map (·.column.field)).Sublist (x.record.fields.map (·.name)) ∧
    ∀ converters policy row v, x.decode converters policy row = .ok v →
      ∃ fields : Dictionary String Value, v = .ofFields fields ∧ fields.keys.Nodup ∧
        (∀ name, name ∈ fields.keys ↔ name ∈ c.entries.map (·.column.field)) ∧
        (fields.length = c.entries.length ↔ (c.entries.map (·.column.field)).Nodup) := by
  have hnamed := hs.named hx hc
  refine ⟨hnamed.nodup, hnamed.fields, fun converters policy row v hv => ?_⟩
  obtain ⟨cells, -, hv⟩ := bind_eq_ok.mp hv
  rw [hc] at hv
  obtain ⟨pairs, hpairs, rfl⟩ := Catalog.decodeRow_fields hv
  have hlength : pairs.length = c.entries.length := by
    have := congrArg List.length hpairs
    rwa [List.length_map, List.length_map] at this
  refine ⟨.ofList pairs, ?_, Dictionary.nodup_keys_ofList pairs, ?_, ?_⟩
  · rw [Catalog.make, hmaker]
  · intro name
    rw [← hpairs]
    exact Dictionary.mem_keys_ofList
  · rw [← hpairs, ← hlength]
    exact Dictionary.length_ofList_eq_iff pairs

/-- The columns of a point. -/
def pointCatalog : Catalog where
  typeName := "Point"
  entries := [
    { column := { name := "x", field := "x", type := some .integer } },
    { column := { name := "y", field := "y", type := some .integer } }]
  table := some "points"

theorem yields_point : shapes.Yields (.name "Point")
    { record := pointRecord, catalog := .record pointCatalog, policy := .failFast } :=
  ⟨_, _, rfl, rfl⟩

/-- A point is decoded with both of its coordinates. -/
theorem fields_kept_point : ∃ fields : Dictionary String Value,
    Value.ofFields [("x", .int 1), ("y", .int 2)] = .ofFields fields ∧ fields.length = 2 := by
  obtain ⟨-, -, hkept⟩ := Yields.fields_kept (c := pointCatalog) shapes_reachable yields_point
    rfl rfl
  obtain ⟨fields, hv, -, -, hlength⟩ :=
    hkept unconverted none (.list [.int 1, .int 2]) (.ofFields [("x", .int 1), ("y", .int 2)]) rfl
  exact ⟨fields, hv, hlength.mpr (by decide)⟩

/-- Two fields of one name, the second one in a column of another name. -/
def pairRecord : Record where
  name := "Pair"
  attributes := [{ name := "Table" }]
  fields := [
    { name := "x", type := some .integer },
    { name := "x", type := some .integer
      attributes := [{ name := "Column", arguments := [⟨none, .string "y", none⟩] }] }]

def pairs : Schema := (Schema.registerAll {} [pairRecord]).1

/-- Both fields of the pair have an entry. -/
def pairCatalog : Catalog where
  typeName := "Pair"
  entries := [
    { column := { name := "x", field := "x", type := some .integer } },
    { column := { name := "y", field := "x", type := some .integer } }]
  table := some "pairs"

theorem yields_pair : pairs.Yields (.name "Pair")
    { record := pairRecord, catalog := .record pairCatalog, policy := .failFast } :=
  ⟨_, _, rfl, rfl⟩

/-- A record can be decoded to fewer fields than its catalog has entries. -/
theorem not_fields_kept : ¬ ∀ (s : Schema) (reference : Reference) (x : Derived) (c : Catalog),
    s.Reachable → s.Yields reference x → x.catalog = .record c → c.maker = none →
    ∀ converters policy row v, x.decode converters policy row = .ok v →
      ∃ fields : Dictionary String Value, v = .ofFields fields ∧
        fields.length = c.entries.length := by
  intro h
  obtain ⟨fields, hv, hlength⟩ := h pairs (.name "Pair") _ pairCatalog
    ((Reachable.empty {}).registerAll [pairRecord]) yields_pair rfl rfl unconverted none
    (.list [.int 1, .int 2]) (.ofFields [("x", .int 2)]) rfl
  have hentries := congrArg List.length (Value.dict.inj hv)
  rw [List.length_map, List.length_map, hlength] at hentries
  cases hentries

end Schema

end RowSchema
