import RowSchema.Proofs.Decode.Turns
import RowSchema.Proofs.Schema.Complete
import RowSchema.Proofs.Schema.Origin
import RowSchema.Proofs.Schema.Spliced
import RowSchema.RecordClass.Make

/-! # Column groups of classes

Classes and declarations may share names, and a name stands for what was registered last. A column
group that is a class is nevertheless that class and no other: its record is looked up by the class
and never by the name, so that its columns are those of the class and its values are instances of
it. -/

namespace RowSchema

variable {registry : Registry} {settings : Options} {r : Record}

/-! ## Classes -/

/-- The fields of the class have different names. -/
def RecordClass.Distinct (c : RecordClass) : Prop := (c.fields.map (·.name)).Nodup

theorem ClassField.checkNames_eq_ok {names : List String} : ∀ {seen : List String},
    ClassField.checkNames seen names = .ok () → names.Nodup ∧ ∀ name ∈ names, name ∉ seen := by
  induction names with
  | nil => exact fun _ => ⟨List.nodup_nil, nofun⟩
  | cons name rest ih =>
    intro seen h
    rw [checkNames] at h
    split_ifs at h with _ _ hseen
    obtain ⟨hnodup, hfresh⟩ := ih h
    refine ⟨List.nodup_cons.mpr ⟨fun hmem => hfresh name hmem List.mem_cons_self, hnodup⟩, ?_⟩
    intro other hother
    rcases List.mem_cons.mp hother with rfl | hother
    · simpa using hseen
    · exact fun hmem => hfresh other hother (List.mem_cons_of_mem _ hmem)

theorem ClassField.name_within (id : ClassId) (f : ClassField) : (f.within id).name = f.name := by
  unfold ClassField.within
  split <;> rfl

/-- Every class that can be made is such. -/
theorem RecordClass.distinct_of_make {id : ClassId} {fields : List ClassField} {isFrozen : Bool}
    {c : RecordClass} (h : RecordClass.make id fields isFrozen = .ok c) : c.Distinct := by
  obtain ⟨_, hnames, h⟩ := bind_eq_ok.mp h
  -- the other checks leave the names as they are
  iterate 10 obtain ⟨_, -, h⟩ := bind_eq_ok.mp h
  have hc : c = ⟨id, fields.map (ClassField.within id), isFrozen⟩ := by
    dsimp only at h
    split at h
    · obtain ⟨_, -, h⟩ := bind_eq_ok.mp h
      cases h
      rfl
    · cases h
      rfl
  subst hc
  rw [Distinct, List.map_map, Function.comp_def]
  simp only [ClassField.name_within]
  exact (ClassField.checkNames_eq_ok hnames).1

/-- The classes that there are, by their identities. -/
structure Classes where
  ofId : ClassId → RecordClass
  id_eq : ∀ id, (ofId id).id = id
  distinct : ∀ id, (ofId id).Distinct

/-! ## Records of classes -/

/-- The record is what the class of that identity is reflected as, in some registry. -/
def Classes.Reflects (classes : Classes) (id : ClassId) (r : Record) : Prop :=
  ∃ registry attr, (classes.ofId id).record registry attr = .ok r

namespace Classes.Reflects

variable {classes : Classes} {id : ClassId}

theorem reflected (h : classes.Reflects id r) : (classes.ofId id).Reflected r := by
  obtain ⟨_, _, h⟩ := h
  exact RecordClass.reflected_of_record h

theorem nodup_fields (h : classes.Reflects id r) : (r.fields.map (·.name)).Nodup := by
  have hnames : (classes.ofId id).fields.map (·.name) = r.fields.map (·.name) := by
    rw [← List.forall₂_eq_eq_eq, List.forall₂_map_left_iff, List.forall₂_map_right_iff]
    exact h.reflected.fields.imp fun _ _ hfield => hfield.name_eq.symm
  rw [← hnames]
  exact classes.distinct id

/-- A field of the record that is a column group is known by the class that it holds. -/
theorem groupClass_eq (h : classes.Reflects id r) {f : ClassField}
    (hf : f ∈ (classes.ofId id).fields) {field : Field} (hfield : field ∈ r.fields)
    (hname : field.name = f.name)
    (hgroup : (Attribute.named? "Columns" field.attributes).isSome = true) :
    field.groupClass = f.hint.unwrap.base.class? := by
  obtain ⟨field', hfield', hreflected⟩ := exists_right_of_mem h.reflected.fields hf
  obtain rfl := List.inj_on_of_nodup_map h.nodup_fields hfield hfield'
    (hname.trans hreflected.name_eq.symm)
  exact hreflected.groupClass_eq hgroup

end Classes.Reflects

/-! ## Groups by their classes -/

/-- Where fields have different names, a group with a class is looked up by that class. -/
theorem groupReference_of_class (hnodup : (r.fields.map (·.name)).Nodup) {field : Field}
    (hfield : field ∈ r.fields) {id : ClassId} (hid : field.groupClass = some id)
    {spec : ColumnSpec} (hspec : spec.name = field.name) (name : String) :
    groupReference r spec name = .reflected id := by
  have hfound : (((r.fields.filter (·.groupClass.isSome)).reverse).find?
      (·.name == spec.name)) = some field := by
    cases hfind : ((r.fields.filter (·.groupClass.isSome)).reverse).find?
        (·.name == spec.name) with
    | none =>
      have hmem : field ∈ (r.fields.filter (·.groupClass.isSome)).reverse :=
        List.mem_reverse.mpr (List.mem_filter.mpr ⟨hfield, by rw [hid]; rfl⟩)
      exact absurd (List.find?_eq_none.mp hfind field hmem) (by simp [hspec])
    | some other =>
      have hmem := List.mem_reverse.mp (List.mem_of_find?_eq_some hfind)
      have hname : other.name = spec.name := by simpa using List.find?_some hfind
      rw [List.inj_on_of_nodup_map hnodup (List.mem_of_mem_filter hmem) hfield
        (hname.trans hspec)]
  unfold groupReference
  rw [hfound]
  cases field
  cases hid
  rfl

theorem ColumnSpec.ofField_group {role : Role} {f : Field} {spec : ColumnSpec}
    {diagnostics : List Diagnostic} (h : ColumnSpec.ofField role f = .ok (some spec, diagnostics))
    (hgroup : spec.isGroup = true) :
    f.name = spec.name ∧ (Attribute.named? "Columns" f.attributes).isSome = true := by
  unfold ColumnSpec.ofField at h
  dsimp only at h
  split at h
  · cases h
  · split at h
    · cases h
    · split at h
      · cases h
        cases hgroup
      · split at h
        · next group hcolumns =>
          cases h
          exact ⟨rfl, by rw [hcolumns]; rfl⟩
        · obtain ⟨pair, hpair, hspec⟩ := map_eq_ok.mp h
          obtain ⟨found, -, hfound⟩ := bind_eq_ok.mp hpair
          cases hfound
          cases hspec
          cases hgroup

/-- What the catalog of a struct has of its record: the way in which values are made, and a field
for each column group. -/
structure Derived.OfStruct (x : Derived) (c : Catalog) : Prop where
  catalog_eq : x.catalog = .record c
  maker_eq : c.maker = x.record.maker
  group_field : ∀ e ∈ c.entries, e.isGroup = true → ∃ field ∈ x.record.fields,
    field.name = e.column.field ∧ (Attribute.named? "Columns" field.attributes).isSome = true

theorem Composes.ofStruct {G : Record → Derived → Prop} {x : Derived}
    (h : Composes registry settings G r x) (hkind : x.record.kind = .struct) :
    ∃ c, x.OfStruct c := by
  have hcomposes := h
  cases h with
  | enum annotated kind =>
    rw [hkind] at kind
    cases kind
  | @struct outline members catalog draft diagnostics draftDiagnostics annotated kind outlined
      resolved built clean drafted draftClean =>
    refine ⟨catalog, rfl, ?_, fun e he hgroup => ?_⟩
    · have hcat : (outline.catalog r (members.map .ok)).1 = catalog := congrArg Prod.fst built
      rw [← hcat]
      rfl
    · obtain ⟨_, spec, members, rfl, hmembers, outline, houtline, hspec⟩ :=
        hcomposes.mem_entries rfl he
      cases members with
      | none => cases hgroup
      | some g =>
        obtain ⟨name, hname, -⟩ := hmembers
        obtain ⟨-, field, hfield, diagnostics, hof⟩ :=
          (RecordOutline.mem_specs houtline).mp hspec
        obtain ⟨hfieldName, hcolumns⟩ :=
          ColumnSpec.ofField_group hof (RecordOutline.groupName_eq.mp hname).1
        refine ⟨field, hfield, ?_, hcolumns⟩
        rw [RecordOutline.entry_field, hfieldName]

/-! ## Instances -/

/-- A value of a class's group is an instance of the class. -/
theorem Derived.OfStruct.exists_given {classes : Classes} {id : ClassId} {x : Derived} {c : Catalog}
    (h : x.OfStruct c) (hx : classes.Reflects id x.record) {converters : Converters}
    {policy : DecodePolicy} {cursor : Cursor} {value : Value}
    (hvalue : (x.catalog.asGroup.decode converters policy cursor).1 = .ok value) :
    ∃ given, value = (classes.ofId id).maker.record given := by
  rw [h.catalog_eq, Group.asGroup, Group.decode] at hvalue
  obtain ⟨pairs, -, rfl⟩ := Catalog.decode_fields hvalue
  refine ⟨Dictionary.ofList pairs, ?_⟩
  rw [Catalog.make, show c.asGroup.maker = c.maker from rfl, h.maker_eq, hx.reflected.maker_eq]

/-- A group with an instance contributes it to its field. -/
theorem Entry.decode_instance {e : Entry} {g : Group} (hg : e.members = some g)
    {converters : Converters} {policy : DecodePolicy} {cursor : Cursor} {c : RecordClass}
    {given : Dictionary String Value}
    (hvalue : (g.decode converters policy cursor).1 = .ok (c.maker.record given)) :
    (e.decode converters policy cursor).1 = .ok (.field e.column.field (c.maker.record given)) := by
  obtain ⟨column, members⟩ := e
  cases hg
  rw [Entry.decode]
  rcases hd : g.decode converters policy cursor with ⟨outcome, c'⟩
  rw [hd] at hvalue
  cases hvalue
  rfl

/-- The entries of a class's result are those of different fields. -/
theorem Derived.OfStruct.notMem_later {classes : Classes} {id : ClassId} {x : Derived} {c : Catalog}
    (h : x.OfStruct c) (hx : classes.Reflects id x.record) (hcomplete : x.Complete) {i : Nat}
    {e : Entry} (he : c.entries[i]? = some e) :
    e.column.field ∉ (c.entries.drop (i + 1)).map (·.column.field) := by
  obtain ⟨-, -, hfields⟩ := hcomplete.struct c h.catalog_eq
  have hnodup : (c.entries.map (·.column.field)).Nodup := by
    rw [hfields]
    exact (List.filter_sublist.map _).nodup hx.nodup_fields
  obtain ⟨hi, rfl⟩ := List.getElem?_eq_some_iff.mp he
  have hrest := hnodup.sublist ((List.drop_sublist i _).map _)
  rw [List.drop_eq_getElem_cons hi, List.map_cons, List.nodup_cons] at hrest
  exact hrest.1

section Instances

variable {classes : Classes} {id member : ClassId} {x y : Derived} {c c' : Catalog} {i : Nat}
  {e : Entry} {converters : Converters} {policy : DecodePolicy} {cursor : Cursor}
  {decoded : Except DecodeError Value} {value : Value}

/-- Where a group with a class is present, it is an instance of its class. It does not keep the
record from being decoded, and the decoded record has it in the field of the group. -/
theorem Derived.OfStruct.decodes_instance (h : x.OfStruct c) (hx : classes.Reflects id x.record)
    (hcomplete : x.Complete) (hy : y.OfStruct c') (hmember : classes.Reflects member y.record)
    (he : x.catalog.entries[i]? = some e) (hg : e.members = some y.catalog.asGroup)
    (hdecoded : x.catalog.Decodes converters policy cursor decoded)
    (hvalue : (y.catalog.asGroup.decode converters policy
      (Entry.turn converters policy x.catalog.entries cursor i)).1 = .ok value) :
    (∃ given, value = (classes.ofId member).maker.record given) ∧
    ((∃ v, decoded = .ok v) ↔ ∀ j ≠ i, ∀ outcome,
      Entry.inTurn converters policy x.catalog.entries cursor j = some outcome →
        ∃ name value, outcome = .ok (.field name value)) ∧
    ∀ v, decoded = .ok v → ∃ fields : Dictionary String Value,
      v = (classes.ofId id).maker.record fields ∧ fields.get? e.column.field = some value := by
  have hlater : ∀ {e}, c.entries[i]? = some e → _ := h.notMem_later hx hcomplete
  obtain ⟨given, rfl⟩ := hy.exists_given hmember hvalue
  have hmaker (fields : Dictionary String Value) :
      c.make fields = (classes.ofId id).maker.record fields := by
    rw [Catalog.make, h.maker_eq, hx.reflected.maker_eq]
  have hi : Entry.inTurn converters policy x.catalog.entries cursor i =
      some (.ok (.field e.column.field ((classes.ofId member).maker.record given))) := by
    rw [Entry.inTurn, he, Option.map_some, Entry.decode_instance hg hvalue]
  rw [h.catalog_eq] at he hi hdecoded ⊢
  have hmade := Catalog.madeOf_of_decodes hdecoded
  refine ⟨⟨given, rfl⟩, hmade.exists_iff_others hi, fun v hv => ?_⟩
  obtain ⟨fields, rfl, hget⟩ := hmade.field hi hv
  exact ⟨fields, hmaker fields, hget (hlater he)⟩

end Instances

/-! ## Schemas -/

namespace Schema

variable {s : Schema} {classes : Classes}

/-- Whatever the call registers under a class is what the class is reflected as. -/
def Call.Of (classes : Classes) : Call → Prop
  | .register r => ∀ id, r.reflected = some id → classes.Reflects id r
  | .decorate _ (.record c) => c = classes.ofId c.id
  | _ => True

theorem Call.Of.reflects {call : Call} (h : call.Of classes) (hr : call.Registers s r)
    {id : ClassId} (hid : r.reflected = some id) : classes.Reflects id r := by
  cases call with
  | parse source =>
    obtain ⟨records, hread, hmem⟩ := hr
    rw [Record.reflected_of_readAll hread hmem] at hid
    cases hid
  | register r' =>
    obtain rfl := hr
    exact h id hid
  | decorate attr c =>
    obtain ⟨t, hc⟩ := hr
    obtain ⟨-, c, rfl, hrecord⟩ := registerClass_eq_ok hc
    cases (RecordClass.reflected_of_record hrecord).reflected_eq.symm.trans hid
    rw [show c = classes.ofId c.id from h] at hrecord
    exact ⟨_, _, hrecord⟩
  | derive reference => cases hr
  | deriveAll => cases hr

/-- What is under a class is what the class is reflected as. -/
theorem reflects_of_get? {settings : Options} {calls : List Call}
    (hcalls : ∀ call ∈ calls, call.Of classes) {id : ClassId}
    (hr : (Schema.run { settings } calls).registry.records.get? (.reflected id) = some r) :
    classes.Reflects id r := by
  have hkey := ((Intact.empty settings).run calls).keyed.key_eq _ r hr
  have hid : r.reflected = some id := by
    unfold Record.key at hkey
    split at hkey <;> cases hkey
    assumption
  exact run_records (P := fun r => r.reflected = some id → classes.Reflects id r)
    (fun call hcall _ _ hregisters => (hcalls call hcall).reflects hregisters) hr hid

/-- What is known of a class is what the class yields, and goes on to yield. -/
theorem Intact.yields_of_known (h : s.Intact) {id : ClassId} {d : Derivation Derived} {x : Derived}
    (hd : s.progress.cache.get? (.reflected id) = some d) (hx : d.result = some x)
    (more : List Call) : (s.run more).Yields (.reflected id) x := by
  have hlater := h.run more
  have hkept := h.grows_run more _ d hd
  obtain ⟨r, hr⟩ := hlater.stored _ d hkept
  have hrecord : (s.run more).registry.record? (.reflected id) = some r := by
    rw [Registry.record?, Registry.key?, Dictionary.has, hr]
    exact hr
  rw [← hlater.keyed.key_eq _ r hr] at hkept
  exact ⟨d, _, by rw [derive?, hrecord, Option.map_some, deriveRecord_of_known hkept], hx⟩

theorem get?_of_record? {id : ClassId}
    (hr : s.registry.record? (.reflected id) = some r) :
    s.registry.records.get? (.reflected id) = some r := by
  rw [Registry.record?, Registry.key?] at hr
  split at hr
  · exact hr
  · cases hr

/-- What a class yields is known once the class has been derived. -/
theorem Intact.known_of_yields (h : s.Intact) {id : ClassId} {x : Derived}
    (hx : s.Yields (.reflected id) x) : ∃ d, d.result = some x ∧
      (s.after (.derive (.reflected id))).progress.cache.get? (.reflected id) = some d := by
  obtain ⟨d, t, hd, hx⟩ := hx
  obtain ⟨r, hr, hrun⟩ := Option.map_eq_some_iff.mp hd
  have hkey := h.keyed.key_eq _ r (get?_of_record? hr)
  have hknown := ((Extends.refl s).deriveRecord h.keyed (h.keyed.get?_of_record? hr)).2 d
    (congrArg Prod.fst hrun)
  refine ⟨d, hx, ?_⟩
  rw [Schema.after, hd]
  rw [hrun, hkey] at hknown
  exact hknown

section Runs

variable {settings : Options} {calls : List Call} (hcalls : ∀ call ∈ calls, call.Of classes)

include hcalls

/-- What is known of a class was derived from the record of the class. -/
theorem reflects_of_known {id : ClassId} {d : Derivation Derived} {x : Derived}
    (hd : (Schema.run { settings } calls).progress.cache.get? (.reflected id) = some d)
    (hx : d.result = some x) : classes.Reflects id x.record := by
  obtain ⟨earlier, call, later, rfl, hr, -⟩ := (Intact.empty settings).spliced rfl hd hx
  exact reflects_of_get? (fun call hcall => hcalls call (List.mem_append_left _ hcall)) hr

/-- A group of what is known of a class, for a field that holds a class itself. That class is known
as well, and the group has its catalog. -/
theorem group_of_known {id member : ClassId} {d : Derivation Derived} {x : Derived}
    (hd : (Schema.run { settings } calls).progress.cache.get? (.reflected id) = some d)
    (hx : d.result = some x) {c : Catalog} (hc : x.OfStruct c) {f : ClassField}
    (hf : f ∈ (classes.ofId id).fields) (hmember : f.hint.unwrap.base.class? = some member)
    {e : Entry} (he : e ∈ x.catalog.entries) (hfield : e.column.field = f.name) {g : Group}
    (hg : e.members = some g) : ∃ known y, known.result = some y ∧ g = y.catalog.asGroup ∧
      (Schema.run { settings } calls).progress.cache.get? (.reflected member) = some known := by
  have hreflects := reflects_of_known hcalls hd hx
  obtain ⟨earlier, call, later, rfl, hr, -, -, hmembers⟩ :=
    (Intact.empty settings).spliced rfl hd hx
  obtain ⟨m, known, y, hm, hy, hgy, hkept⟩ := hmembers e he g hg
  obtain ⟨t, -, hm⟩ := Option.bind_eq_some_iff.mp hm
  have hgroup : e.isGroup = true := by
    rw [Entry.isGroup, hg]
    rfl
  rw [hc.catalog_eq] at he
  obtain ⟨field, hmem, hname, hcolumns⟩ := hc.group_field e he hgroup
  have hclass := hreflects.groupClass_eq hf hmem (hname.trans hfield) hcolumns
  rw [groupReference_of_class hreflects.nodup_fields hmem (hclass.trans hmember) hname.symm] at hm
  have hearlier := ((Intact.empty settings).run earlier).keyed
  have hknown := hkept []
  rw [List.append_nil, hearlier.key_eq _ m (get?_of_record? hm)] at hknown
  exact ⟨known, y, hy, hgy, hknown⟩

end Runs

/-- A class that yields a result, after any calls, and a field of it that holds a class and is a
column group. The group is what the derivation of that class yields, made a group, now and after all
further calls, whatever else has its name. Where the group is present in a row, it is an instance of
that class, whether the row is one of the first class itself or of a record that has it as a group
in turn; the other entries decide whether there is an instance of the first class, and in this the
field has that value. -/
theorem run_class_group (settings : Options) {calls : List Call}
    (hcalls : ∀ call ∈ calls, call.Of classes) {id member : ClassId} {x : Derived}
    (hx : (Schema.run { settings } calls).Yields (.reflected id) x) {f : ClassField}
    (hf : f ∈ (classes.ofId id).fields) (hmember : f.hint.unwrap.base.class? = some member)
    {i : Nat} {e : Entry} {g : Group} (he : x.catalog.entries[i]? = some e)
    (hfield : e.column.field = f.name) (hg : e.members = some g) :
    ∃ y, classes.Reflects member y.record ∧ g = y.catalog.asGroup ∧
      (∀ more, let t := Schema.run { settings } (calls ++ .derive (.reflected id) :: more)
        t.Yields (.reflected id) x ∧ t.Yields (.reflected member) y) ∧
      ∀ converters policy cursor decoded, x.catalog.Decodes converters policy cursor decoded →
        ∀ value, (g.decode converters policy
          (Entry.turn converters policy x.catalog.entries cursor i)).1 = .ok value →
        (∃ given, value = (classes.ofId member).maker.record given) ∧
        ((∃ v, decoded = .ok v) ↔ ∀ j ≠ i, ∀ outcome,
          Entry.inTurn converters policy x.catalog.entries cursor j = some outcome →
            ∃ name value, outcome = .ok (.field name value)) ∧
        ∀ v, decoded = .ok v → ∃ fields : Dictionary String Value,
          v = (classes.ofId id).maker.record fields ∧ fields.get? f.name = some value := by
  obtain ⟨d, hd, hknown⟩ := ((Intact.empty settings).run calls).known_of_yields hx
  -- from here on, the calls end with the derivation of the class
  have hof : ∀ call ∈ calls ++ [.derive (.reflected id)], call.Of classes := by
    intro call hcall
    rcases List.mem_append.mp hcall with hcall | hcall
    · exact hcalls call hcall
    · obtain rfl := List.mem_singleton.mp hcall
      trivial
  have hrun : Schema.run { settings } (calls ++ [.derive (.reflected id)]) =
      (Schema.run { settings } calls).after (.derive (.reflected id)) := run_append _ _ _
  rw [← hrun] at hknown
  have hintact := (Intact.empty settings).run (calls ++ [.derive (.reflected id)])
  have hreachable := (Reachable.empty settings).run (calls ++ [.derive (.reflected id)])
  have hstruct := (hreachable.results
    (P := fun x => x.record.kind = .struct → ∃ c, x.OfStruct c) fun _ _ _ _ hx => hx.ofStruct).1
  have hreflects := reflects_of_known hof hknown hd
  obtain ⟨c, hc⟩ := hstruct _ d hknown x hd hreflects.reflected.kind_eq
  obtain ⟨known, y, hy, rfl, hmembers⟩ :=
    group_of_known hof hknown hd hc hf hmember (List.mem_of_getElem? he) hfield hg
  have hreflected := reflects_of_known hof hmembers hy
  obtain ⟨c', hc'⟩ := hstruct _ known hmembers y hy hreflected.reflected.kind_eq
  refine ⟨y, hreflected, rfl, fun more => ?_, fun _ _ _ _ hdecoded value hvalue => ?_⟩
  · rw [List.append_cons, run_append]
    exact ⟨hintact.yields_of_known hknown hd more, hintact.yields_of_known hmembers hy more⟩
  · have hcomplete := (hreachable.results fun _ _ _ _ hx => hx.complete).1 _ d hknown x hd
    rw [← hfield]
    exact hc.decodes_instance hreflects hcomplete hc' hreflected he hg hdecoded hvalue

/-! ### Two classes of one name -/

/-- An address in a street. -/
def streetClass : RecordClass where
  id := .ofRecord 1 "Address"
  fields := [{ name := "street", hint := .builtin .string }]

/-- An address for letters. -/
def postalClass : RecordClass where
  id := .ofRecord 2 "Address"
  fields := [
    { name := "zip", hint := .builtin .string },
    { name := "country", hint := .builtin .string }]

/-- A class that may have an address in a street. -/
def homeClass : RecordClass where
  id := .ofRecord 3 "Home"
  fields := [
    { name := "id", hint := .builtin .integer },
    { name := "address", hint := .optionalOf (.record streetClass.id) }]

/-- These three classes; any other one has no fields. -/
def homeClasses : Classes where
  ofId id :=
    if id = streetClass.id then streetClass
    else if id = postalClass.id then postalClass
    else if id = homeClass.id then homeClass
    else { id, fields := [] }
  id_eq id := by
    split_ifs with hstreet hpostal hhome
    · exact hstreet.symm
    · exact hpostal.symm
    · exact hhome.symm
    · rfl
  distinct id := by
    split_ifs <;> simp [RecordClass.Distinct, streetClass, postalClass, homeClass]

/-- The name of both classes of addresses stands for the second one when the home is reflected. -/
def homeCalls : List Call :=
  [.decorate .selection (.record streetClass), .decorate .selection (.record postalClass),
    .decorate (.table none none) (.record homeClass)]

/-- A row of the home's table, in which the address is present. -/
def homeRow : List (Option Value) := [some (.int 1), some (.text "Main St")]

/-- What its address is: an instance of the first of the two classes. -/
def homeStreet : Value := .object "Address" [("street", some (.text "Main St"))]

/-- The address of a home is one in a street. -/
theorem run_class_group_home : ∃ x y v e,
    (Schema.run {} homeCalls).Yields (.reflected homeClass.id) x ∧
    (Schema.run {} (homeCalls ++ [.derive (.reflected homeClass.id), .deriveAll])).Yields
      (.reflected streetClass.id) y ∧
    e ∈ x.catalog.entries ∧ e.members = some y.catalog.asGroup ∧
    x.catalog.decodeRow unconverted .failFast homeRow = .ok v ∧
    ∃ fields : Dictionary String Value, v = homeClass.maker.record fields ∧
      fields.get? "address" = some homeStreet := by
  have hcalls : ∀ call ∈ homeCalls, call.Of homeClasses := by
    simp only [homeCalls, List.forall_mem_cons, List.not_mem_nil, false_implies, implies_true,
      and_true]
    exact ⟨rfl, rfl, rfl⟩
  obtain ⟨x, hx, hi, hrow, hv⟩ : ∃ x, (Schema.run {} homeCalls).Yields (.reflected homeClass.id) x ∧
      (∃ e g, x.catalog.entries[1]? = some e ∧ e.column.field = "address" ∧ e.members = some g ∧
        (g.decode unconverted .failFast
          (Entry.turn unconverted .failFast x.catalog.entries (.ofRow homeRow) 1)).1 =
          .ok homeStreet) ∧
      (homeRow.length : Int) = x.catalog.width ∧
      ∃ v, x.catalog.decodeRow unconverted .failFast homeRow = .ok v :=
    ⟨_, ⟨_, _, rfl, rfl⟩, ⟨_, _, rfl, rfl, rfl, rfl⟩, rfl, _, rfl⟩
  obtain ⟨e, g, he, hfield, hg, hvalue⟩ := hi
  obtain ⟨v, hv⟩ := hv
  obtain ⟨y, -, rfl, hyields, hdecode⟩ :=
    run_class_group {} hcalls hx (List.mem_cons_of_mem _ List.mem_cons_self) rfl he hfield hg
  obtain ⟨-, -, hbuilt⟩ := hdecode unconverted .failFast _ _ (.row hrow) _ hvalue
  exact ⟨x, y, v, e, hx, (hyields [.deriveAll]).2, List.mem_of_getElem? he, hg, hv, hbuilt v hv⟩

end Schema

end RowSchema
