import RowSchema.Proofs.Schema.Classes

/-! # Constructors of classes

A field of a class may be passed over at several places: one that the constructor does not take, one
that is not stored, one whose column is refused. What is left of them in the plan of the class is
just what its constructor has to be given. So no row makes a plan call the constructor with an
argument that it does not expect, or without one that it needs. -/

namespace RowSchema

/-! ## Keyword arguments -/

def Marker.isEphemeral : Marker → Bool
  | .ephemeral => true
  | _ => false

/-- Whether the field is marked as one that is not stored. -/
def ClassField.isEphemeral (f : ClassField) : Bool :=
  f.hint.unwrap.markers.any (·.isEphemeral)

namespace RecordClass

/-- The names of the stored fields that the constructor takes. -/
def keywords (c : RecordClass) : List String :=
  (c.fields.filter fun f => f.isInit && !f.isEphemeral).map (·.name)

/-- What the constructor makes of keyword arguments, if it expects all of them and no argument
without a default is missing. -/
def construct? (c : RecordClass) (given : Dictionary String Value) : Option Value :=
  if (given.keys.all fun name => c.fields.any fun f => f.isInit && f.name == name) &&
      c.fields.all fun f => !f.isInit || given.has f.name || f.default.isSome
  then some (c.maker.record given)
  else none

/-- The plan of a class gives its constructor what that takes. -/
structure Constructs (cls : RecordClass) (c : Catalog) : Prop where
  fields : c.entries.map (·.column.field) = cls.keywords
  defaults : ∀ f ∈ cls.fields, f.isInit = true → f.name ∉ cls.keywords → f.default.isSome = true
  instances : ∀ converters policy cursor v, (c.decode converters policy cursor).1 = .ok v →
    ∃ given : Dictionary String Value, given.keys = cls.keywords ∧
      cls.construct? given = some v ∧
      ∃ slots, v = .object cls.id.name slots ∧
        ∀ f ∈ cls.fields, f.isEphemeral = true → ∃ default, f.default = some default ∧
          Dictionary.get? slots f.name = some (some default.value)

end RecordClass

/-! ## Fields of records -/

section Fields

variable {registry : Registry} {attr : Attribute} {cls : RecordClass} {r : Record}
  {f : ClassField} {field : Field}

theorem ClassField.named?_ephemeral (registry : Registry) (hint : TypeHint.Unwrapped) :
    (Attribute.named? "Ephemeral" (ClassField.attributes registry hint)).isSome =
      hint.markers.any (·.isEphemeral) := by
  have hmarkers (markers : List Marker) :
      (Attribute.named? "Ephemeral" (markers.filterMap Marker.attribute?)).isSome =
        markers.any (·.isEphemeral) := by
    induction markers with
    | nil => rfl
    | cons marker rest ih =>
      cases marker with
      | remark => exact ih
      | column => simpa [Attribute.named?, Marker.attribute?, Marker.isEphemeral] using ih
      | columns => simpa [Attribute.named?, Marker.attribute?, Marker.isEphemeral] using ih
      | ephemeral => simp [Attribute.named?, Marker.attribute?, Marker.isEphemeral]
  rw [← hmarkers, ClassField.attributes]
  split
  · next hempty _ =>
    rw [hempty]
    split <;> rfl
  · rfl

/-- A field of a class is stored if the constructor takes it and it is not marked otherwise. With
the mark, it has a default. -/
theorem ClassField.isStored_field (h : f.field registry cls = .ok field) :
    field.name = f.name ∧ field.isStored = (f.isInit && !f.isEphemeral) ∧
      (f.isEphemeral = true → f.default.isSome = true) := by
  have hmarked := ClassField.named?_ephemeral registry f.hint.unwrap
  rw [← ClassField.isEphemeral] at hmarked
  unfold ClassField.field at h
  dsimp only at h
  rw [hmarked] at h
  split at h
  · cases h
  · next hdefault =>
    cases h
    refine ⟨rfl, ?_, fun hephemeral => ?_⟩
    · simp [Field.isStored, ← hmarked]
    · simpa [hephemeral, ← Option.isSome_iff_ne_none] using hdefault

theorem ClassField.map_name_stored {classFields : List ClassField} {fields : List Field}
    (h : List.Forall₂ (fun f field => f.field registry cls = .ok field) classFields fields) :
    (fields.filter Field.isStored).map (·.name) =
      (classFields.filter fun f => f.isInit && !f.isEphemeral).map (·.name) := by
  induction h with
  | nil => rfl
  | @cons f field _ _ hfield _ ih =>
    obtain ⟨hname, hstored, -⟩ := ClassField.isStored_field hfield
    cases hkept : f.isInit && !f.isEphemeral with
    | false => simpa [hstored, hkept] using ih
    | true => simpa [hstored, hkept, hname] using ih

/-- The stored fields of its record are those that the constructor is given. -/
theorem RecordClass.stored_fields (h : cls.record registry attr = .ok r) :
    (r.fields.filter Field.isStored).map (·.name) = cls.keywords := by
  obtain ⟨fields, hfields, h⟩ := bind_eq_ok.mp h
  cases h
  exact ClassField.map_name_stored (mapM_eq_ok.mp hfields)

theorem RecordClass.default_of_ephemeral (h : cls.record registry attr = .ok r)
    (hf : f ∈ cls.fields) (hephemeral : f.isEphemeral = true) : f.default.isSome = true := by
  obtain ⟨fields, hfields, -⟩ := bind_eq_ok.mp h
  obtain ⟨field, -, hfield⟩ := exists_right_of_mem (mapM_eq_ok.mp hfields) hf
  exact (ClassField.isStored_field hfield).2.2 hephemeral

end Fields

/-! ## Instances -/

namespace RecordClass

variable {cls : RecordClass} {f : ClassField} {given : Dictionary String Value}

theorem mem_keywords {name : String} : name ∈ cls.keywords ↔
    ∃ f ∈ cls.fields, f.isInit = true ∧ f.isEphemeral = false ∧ f.name = name := by
  simp only [keywords, List.mem_map, List.mem_filter, Bool.and_eq_true, Bool.not_eq_true',
    and_assoc]

theorem Distinct.nodup_keywords (hd : cls.Distinct) : cls.keywords.Nodup :=
  hd.sublist (List.filter_sublist.map _)

theorem Distinct.notMem_keywords (hd : cls.Distinct) (hf : f ∈ cls.fields)
    (hephemeral : f.isEphemeral = true) : f.name ∉ cls.keywords := by
  intro hmem
  obtain ⟨f', hf', -, hstored, hname⟩ := mem_keywords.mp hmem
  rw [List.inj_on_of_nodup_map hd hf' hf hname, hephemeral] at hstored
  cases hstored

/-- The constructor takes the keywords if the fields that they leave out have defaults. -/
theorem construct?_eq (hkeys : given.keys = cls.keywords)
    (hdefaults : ∀ f ∈ cls.fields, f.isInit = true → f.name ∉ cls.keywords →
      f.default.isSome = true) : cls.construct? given = some (cls.maker.record given) := by
  rw [construct?, if_pos]
  rw [Bool.and_eq_true, List.all_eq_true, List.all_eq_true]
  constructor
  · intro name hname
    rw [hkeys] at hname
    obtain ⟨f, hf, hinit, -, rfl⟩ := mem_keywords.mp hname
    exact List.any_eq_true.mpr ⟨f, hf, by simp [hinit]⟩
  · intro f hf
    by_cases hgiven : f.name ∈ cls.keywords
    · have hhas : given.has f.name = true := Dictionary.has_iff_mem_keys.mpr (hkeys ▸ hgiven)
      simp [hhas]
    · cases hinit : f.isInit with
      | false => simp
      | true => simp [hdefaults f hf hinit hgiven]

/-- A field that is not given has its default. -/
theorem Distinct.slot_of_default (hd : cls.Distinct) (hf : f ∈ cls.fields)
    (hleft : f.name ∉ given.keys) :
    Dictionary.get? (cls.fields.map fun f =>
        (f.name, (Dictionary.get? given f.name).or (f.default.map FieldDefault.value))) f.name =
      some (f.default.map FieldDefault.value) := by
  refine Dictionary.get?_of_mem ?_ (List.mem_map.mpr ⟨f, hf, ?_⟩)
  · rw [Dictionary.keys, List.map_map]
    exact hd
  · rw [Dictionary.get?_eq_none_iff.mpr hleft, Option.none_or]

/-- A plan with the stored fields of the class's record gives them to the constructor. -/
theorem Distinct.constructs (hd : cls.Distinct) {registry : Registry} {attr : Attribute}
    {r : Record} (h : cls.record registry attr = .ok r) {c : Catalog}
    (hmaker : c.maker = some cls.maker)
    (hfields : c.entries.map (·.column.field) = (r.fields.filter Field.isStored).map (·.name)) :
    cls.Constructs c := by
  rw [stored_fields h] at hfields
  have hdefaults : ∀ f ∈ cls.fields, f.isInit = true → f.name ∉ cls.keywords →
      f.default.isSome = true := by
    intro f hf hinit hleft
    refine default_of_ephemeral h hf (by_contra fun hstored => hleft ?_)
    exact mem_keywords.mpr ⟨f, hf, hinit, by simpa using hstored, rfl⟩
  refine ⟨hfields, hdefaults, fun converters policy cursor v hv => ?_⟩
  obtain ⟨pairs, hpairs, rfl⟩ := Catalog.decode_fields hv
  rw [hfields] at hpairs
  have hgiven : Dictionary.ofList pairs = pairs :=
    Dictionary.ofList_of_nodup (hpairs ▸ hd.nodup_keywords)
  have hmake : c.make pairs = cls.maker.record pairs := by
    rw [Catalog.make, hmaker]
  rw [hgiven, hmake]
  refine ⟨pairs, hpairs, construct?_eq hpairs hdefaults, _, rfl, fun f hf hephemeral => ?_⟩
  obtain ⟨default, hdefault⟩ := Option.isSome_iff_exists.mp (default_of_ephemeral h hf hephemeral)
  have hleft : f.name ∉ Dictionary.keys pairs := by
    rw [Dictionary.keys, hpairs]
    exact hd.notMem_keywords hf hephemeral
  refine ⟨default, hdefault, ?_⟩
  rw [hd.slot_of_default hf hleft, hdefault]
  rfl

end RecordClass

/-! ## Nested classes -/

/-- The column groups of nested classes, beginning with the plan of one: the fields of a class that
hold classes themselves, at any depth. -/
inductive Classes.Nests (classes : Classes) (id : ClassId) (g : Group) : ClassId → Group → Prop
  | self : Nests classes id g id g
  | field {owner member : ClassId} {part members : Group} {f : ClassField} {e : Entry}
      (h : Nests classes id g owner part) (hf : f ∈ (classes.ofId owner).fields)
      (hmember : f.hint.unwrap.base.class? = some member) (he : e ∈ part.entries)
      (hfield : e.column.field = f.name) (hm : e.members = some members) :
      Nests classes id g member members

theorem Catalog.fields_asGroup (c : Catalog) :
    c.asGroup.entries.map (·.column.field) = c.entries.map (·.column.field) := by
  rw [asGroup, List.map_map]
  rfl

theorem Catalog.mem_entries_asGroup {c : Catalog} {e : Entry} (he : e ∈ c.asGroup.entries) :
    ∃ e' ∈ c.entries, e'.column.field = e.column.field ∧ e'.members = e.members := by
  obtain ⟨e', he', rfl⟩ := List.mem_map.mp he
  exact ⟨e', he', rfl, rfl⟩

namespace Schema

variable {classes : Classes} {settings : Options} {calls : List Call}

/-- What is known of a class gives its constructor what that takes, also as a group. -/
theorem constructs_of_known (hcalls : ∀ call ∈ calls, call.Of classes) {id : ClassId}
    {d : Derivation Derived} {x : Derived}
    (hd : (Schema.run { settings } calls).progress.cache.get? (.reflected id) = some d)
    (hx : d.result = some x) : ∃ c, x.OfStruct c ∧ (classes.ofId id).Constructs c ∧
      (classes.ofId id).Constructs c.asGroup := by
  have hreachable := (Reachable.empty settings).run calls
  have hreflects := reflects_of_known hcalls hd hx
  have hkind := hreflects.reflected.kind_eq
  obtain ⟨c, hc⟩ := (hreachable.results (P := fun x => x.record.kind = .struct → ∃ c, x.OfStruct c)
    fun _ _ _ _ hx => hx.ofStruct).1 _ d hd x hx hkind
  have hcomplete := (hreachable.results fun _ _ _ _ hx => hx.complete).1 _ d hd x hx
  obtain ⟨-, -, hfields⟩ := hcomplete.struct c hc.catalog_eq
  have hmaker : c.maker = some (classes.ofId id).maker :=
    hc.maker_eq.trans hreflects.reflected.maker_eq
  have hdistinct := classes.distinct id
  obtain ⟨registry, attr, hrecord⟩ := hreflects
  refine ⟨c, hc, hdistinct.constructs hrecord hmaker hfields, ?_⟩
  exact hdistinct.constructs hrecord hmaker (c.fields_asGroup.trans hfields)

/-- The plans of nested classes are those of what is known of them. -/
theorem known_of_nests (hcalls : ∀ call ∈ calls, call.Of classes) {id : ClassId}
    {d : Derivation Derived} {x : Derived}
    (hd : (Schema.run { settings } calls).progress.cache.get? (.reflected id) = some d)
    (hx : d.result = some x) {member : ClassId} {part : Group}
    (h : classes.Nests id x.catalog member part) : ∃ known y, known.result = some y ∧
      (Schema.run { settings } calls).progress.cache.get? (.reflected member) = some known ∧
      (part = y.catalog ∨ part = y.catalog.asGroup) := by
  induction h with
  | self => exact ⟨d, x, hx, hd, .inl rfl⟩
  | @field owner member part members f e _ hf hmember he hfield hm ih =>
    obtain ⟨known, y, hy, hknown, hpart⟩ := ih
    obtain ⟨c, hc, -, -⟩ := constructs_of_known hcalls hknown hy
    obtain ⟨e', he', hfield', hm'⟩ : ∃ e' ∈ y.catalog.entries,
        e'.column.field = f.name ∧ e'.members = some members := by
      cases hpart with
      | inl hsame => exact ⟨e, hsame ▸ he, hfield, hm⟩
      | inr hgroup =>
        rw [hgroup, hc.catalog_eq] at he
        obtain ⟨e', he', hname, hmembers⟩ := Catalog.mem_entries_asGroup he
        exact ⟨e', hc.catalog_eq ▸ he', hname.trans hfield, hmembers.trans hm⟩
    obtain ⟨known', z, hz, hgroup, hknown'⟩ :=
      group_of_known hcalls hknown hy hc hf hmember he' hfield' hm'
    exact ⟨known', z, hz, hknown', .inr hgroup⟩

/-- A class that yields a result, after any calls. Its plan, and those of the classes nested in it at
any depth, have an entry for every stored field that the constructor takes and for no other; every
other field that it takes has a default. So whatever row is decoded, the constructor is called with
just these arguments and takes them, and a field that is not stored has its default in the
instance. -/
theorem run_nested_constructs (settings : Options) {calls : List Call}
    (hcalls : ∀ call ∈ calls, call.Of classes) {id : ClassId} {x : Derived}
    (hx : (Schema.run { settings } calls).Yields (.reflected id) x) {member : ClassId}
    {part : Group} (h : classes.Nests id x.catalog member part) :
    ∃ c, part = .record c ∧ (classes.ofId member).Constructs c := by
  obtain ⟨d, hd, hknown⟩ := ((Intact.empty settings).run calls).known_of_yields hx
  have hof : ∀ call ∈ calls ++ [.derive (.reflected id)], call.Of classes := by
    intro call hcall
    rcases List.mem_append.mp hcall with hcall | hcall
    · exact hcalls call hcall
    · obtain rfl := List.mem_singleton.mp hcall
      trivial
  have hrun : Schema.run { settings } (calls ++ [.derive (.reflected id)]) =
      (Schema.run { settings } calls).after (.derive (.reflected id)) := run_append _ _ _
  rw [← hrun] at hknown
  obtain ⟨known, y, hy, hmember, hpart⟩ := known_of_nests hof hknown hd h
  obtain ⟨c, hc, hconstructs, hgroup⟩ := constructs_of_known hof hmember hy
  cases hpart with
  | inl hsame => exact ⟨c, hsame.trans hc.catalog_eq, hconstructs⟩
  | inr hsame =>
    refine ⟨c.asGroup, ?_, hgroup⟩
    rw [hsame, hc.catalog_eq]
    rfl

/-! ### A class in a class -/

/-- A place with a remark that is not stored. -/
def placeClass : RecordClass where
  id := .ofRecord 1 "Place"
  fields := [
    { name := "street", hint := .builtin .string },
    { name := "remark", hint := .annotated (.builtin .string) [.ephemeral]
      default := some (.constant (.text "")) }]

/-- A parcel to a place. It counts its stops itself. -/
def parcelClass : RecordClass where
  id := .ofRecord 2 "Parcel"
  fields := [
    { name := "number", hint := .builtin .integer },
    { name := "to", hint := .record placeClass.id },
    { name := "stops", hint := .builtin .integer, isInit := false },
    { name := "events", hint := .annotated (.builtin .list) [.ephemeral]
      default := some (.supplied .list) }]

/-- These two classes; any other one has no fields. -/
def parcelClasses : Classes where
  ofId id :=
    if id = placeClass.id then placeClass
    else if id = parcelClass.id then parcelClass
    else { id, fields := [] }
  id_eq id := by
    split_ifs with hplace hparcel
    · exact hplace.symm
    · exact hparcel.symm
    · rfl
  distinct id := by
    split_ifs <;> simp [RecordClass.Distinct, placeClass, parcelClass]

def parcelCalls : List Call :=
  [.decorate .selection (.record placeClass), .decorate (.table none none) (.record parcelClass)]

/-- A parcel and its place are made of what their constructors take. -/
theorem constructs_parcel : ∃ x c, ∃ e ∈ c.entries, ∃ place : Catalog,
    (Schema.run {} parcelCalls).Yields (.reflected parcelClass.id) x ∧
    x.catalog = .record c ∧ parcelClass.Constructs c ∧
    e.members = some (.record place) ∧ placeClass.Constructs place := by
  have hcalls : ∀ call ∈ parcelCalls, call.Of parcelClasses := by
    simp only [parcelCalls, List.forall_mem_cons, List.not_mem_nil, false_implies, implies_true,
      and_true]
    exact ⟨rfl, rfl⟩
  obtain ⟨x, hx, e, members, he, hfield, hmembers⟩ : ∃ x,
      (Schema.run {} parcelCalls).Yields (.reflected parcelClass.id) x ∧
      ∃ e members, e ∈ x.catalog.entries ∧ e.column.field = "to" ∧ e.members = some members :=
    ⟨_, ⟨_, _, rfl, rfl⟩, _, _, List.mem_cons_of_mem _ List.mem_cons_self, rfl, rfl⟩
  have hself : parcelClasses.Nests parcelClass.id x.catalog parcelClass.id x.catalog := .self
  have hplace : parcelClasses.Nests parcelClass.id x.catalog placeClass.id members :=
    .field hself (List.mem_cons_of_mem _ List.mem_cons_self) rfl he hfield hmembers
  obtain ⟨c, hc, hconstructs⟩ := run_nested_constructs {} hcalls hx hself
  obtain ⟨place, rfl, hnested⟩ := run_nested_constructs {} hcalls hx hplace
  rw [hc] at he
  exact ⟨x, c, e, he, place, hx, hc, hconstructs, hmembers, hnested⟩

end Schema

end RowSchema
