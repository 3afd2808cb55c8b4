import RowSchema.Proofs.Schema.Complete

/-! # What a result says of its declaration

Whatever an attribute says that cannot be used is reported. So where nothing is reported, the last
argument of a kind holds, and the entries of a result are the stored fields or the cases of its
record, one for each and in order. -/

namespace RowSchema

variable {registry : Registry} {settings : Options} {r : Record}

/-! ## What attributes say -/

/-- The text of an argument without a label. -/
def Argument.text? (a : Argument) : Option String :=
  match a.label, a.value with
  | none, .string s => some s
  | _, _ => none

/-- The truth value of an argument with that label. -/
def Argument.flag? (label : String) (a : Argument) : Option Bool :=
  match a.value with
  | .boolean b => if a.label = some label then some b else none
  | _ => none

/-- The type that an argument asks values to be stored as. -/
def Argument.representation? (a : Argument) : Option TypeRef :=
  match a.value with
  | .type t => if a.label = some "as" then some t else none
  | _ => none

/-- What the last argument of a kind says in the first column attribute. -/
def inColumn? {β : Type} (read : Argument → Option β) (attributes : List Attribute) : Option β :=
  (Attribute.named? "Column" attributes).bind fun a => (a.arguments.filterMap read).getLast?

/-- Where nothing is reported, the last setting of a kind is what the last argument says. -/
theorem lastSetting?_eq {α : Type} {attr : Option Attribute}
    {find : Attribute → Nat → Argument → Except RangeError Finding} {found : List Finding}
    (pick : Setting → Option α) (read : Argument → Option α)
    (h : findings attr find = .ok found)
    (clean : Diagnostic.hasErrors (found.flatMap (·.diagnostics)) = false)
    (hfind : ∀ a i argument finding, find a i argument = .ok finding →
      Diagnostic.hasErrors finding.diagnostics = false →
      finding.setting.bind pick = read argument) :
    lastSetting? found pick = attr.bind fun a => (a.arguments.filterMap read).getLast? := by
  cases attr with
  | none =>
    cases h
    rfl
  | some a =>
    have hfound := mapM_eq_ok.mp h
    have hread : (found.filterMap fun f => f.setting.bind pick) = a.arguments.filterMap read := by
      rw [← List.zipIdx_map_fst 0 a.arguments, List.filterMap_map]
      clear h
      generalize a.arguments.zipIdx = numbered at hfound ⊢
      induction hfound with
      | nil => rfl
      | @cons first finding rest more hfirst _ ih =>
        rw [List.flatMap_cons, Diagnostic.hasErrors_append, Bool.or_eq_false_iff] at clean
        rw [List.filterMap_cons, List.filterMap_cons, ih clean.2,
          hfind a first.2 first.1 finding hfirst clean.1]
        rfl
    exact congrArg List.getLast? hread

/-- What an argument that is not reported settles. -/
inductive Argument.Settles (isMutable : Bool) (argument : Argument) : Option Setting → Prop
  | name {s : String} (label : argument.label = none) (value : argument.value = .string s) :
      Settles isMutable argument (some (.columnName s))
  | representation {t : TypeRef} (label : argument.label = some "as")
      (value : argument.value = .type t) : Settles isMutable argument (some (.representation t))
  | key {b : Bool} {claim : KeyClaim} (label : argument.label = some "primaryKey")
      (value : argument.value = .boolean b) (explicit : claim.explicit? = some b) :
      Settles isMutable argument (some (.key claim))
  | generated {g : Generated} (label : argument.label = some "generated")
      (value : generatedKind? argument.value = some g) (immutable : isMutable = false) :
      Settles isMutable argument (some (.generated g))
  | ignored (label : argument.label = some "generated")
      (value : generatedKind? argument.value = none) : Settles isMutable argument none

section

variable {argument : Argument} {isMutable : Bool}

theorem nameFinding_settles {name : String} (hlabel : argument.label = none)
    (clean : Diagnostic.hasErrors (nameFinding argument name).diagnostics = false) :
    argument.Settles isMutable (nameFinding argument name).setting := by
  unfold nameFinding nonEmptyString at clean ⊢
  cases hvalue : argument.value with
  | string s =>
    cases hempty : s.isEmpty with
    | true =>
      simp only [hvalue, hempty, if_true] at clean
      cases clean
    | false =>
      simp only [hempty]
      exact .name hlabel hvalue
  | _ =>
    simp only [hvalue] at clean
    cases clean

theorem representationFinding_settles {name : String} (hlabel : argument.label = some "as")
    (clean : Diagnostic.hasErrors (representationFinding argument name).diagnostics = false) :
    argument.Settles isMutable (representationFinding argument name).setting := by
  unfold representationFinding at clean ⊢
  cases hvalue : argument.value with
  | type t => exact .representation hlabel hvalue
  | _ =>
    simp only [hvalue] at clean
    cases clean

theorem keyFinding_settles {name : String} {attr : Attribute} {i : Nat}
    (hlabel : argument.label = some "primaryKey")
    (clean : Diagnostic.hasErrors (keyFinding name attr i argument).diagnostics = false) :
    argument.Settles isMutable (keyFinding name attr i argument).setting := by
  unfold keyFinding at clean ⊢
  cases hvalue : argument.value with
  | boolean b =>
    cases b with
    | true => exact .key hlabel hvalue rfl
    | false => exact .key hlabel hvalue rfl
  | _ =>
    simp only [hvalue] at clean
    cases clean

theorem generatedFinding_settles {f : Field} {finding : Finding}
    (hlabel : argument.label = some "generated") (h : generatedFinding f argument = .ok finding)
    (clean : Diagnostic.hasErrors finding.diagnostics = false) :
    argument.Settles f.isMutable finding.setting := by
  unfold generatedFinding at h
  split at h
  · next hvalue =>
    cases h
    exact .ignored hlabel hvalue
  · next g hvalue =>
    split at h
    · obtain ⟨span, -, h⟩ := bind_eq_ok.mp h
      cases h
      cases clean
    · next himmutable =>
      cases h
      exact .generated hlabel hvalue (by simpa using himmutable)

theorem fieldFinding_settles {role : Role} {f : Field} {attr : Attribute} {i : Nat}
    {finding : Finding} (h : fieldFinding role f attr i argument = .ok finding)
    (clean : Diagnostic.hasErrors finding.diagnostics = false) :
    argument.Settles f.isMutable finding.setting := by
  -- a selection refuses what a table allows
  unfold fieldFinding at h
  dsimp only at h
  split at h
  · next hlabel =>
    split at h
    · cases h
      cases clean
    · cases h
      exact nameFinding_settles hlabel clean
  · next hlabel =>
    cases h
    exact representationFinding_settles hlabel clean
  · next hlabel =>
    split at h
    · cases h
      cases clean
    · cases h
      exact keyFinding_settles hlabel clean
  · next hlabel =>
    split at h
    · cases h
      cases clean
    · exact generatedFinding_settles hlabel h clean
  · cases h
    cases clean

theorem caseFinding_settles {name : String} {attr : Attribute} {i : Nat} {finding : Finding}
    (h : caseFinding name attr i argument = finding)
    (clean : Diagnostic.hasErrors finding.diagnostics = false) :
    argument.Settles isMutable finding.setting := by
  unfold caseFinding at h
  split at h
  · next hlabel =>
    cases h
    exact nameFinding_settles hlabel clean
  · next hlabel =>
    cases h
    exact representationFinding_settles hlabel clean
  · split at h
    · cases h
      cases clean
    · cases h
      cases clean

end

/-! ## Fields -/

def Setting.columnName? : Setting → Option String
  | .columnName name => some name
  | _ => none

def Setting.representation? : Setting → Option TypeRef
  | .representation t => some t
  | _ => none

def Setting.key? : Setting → Option KeyClaim
  | .key claim => some claim
  | _ => none

def Setting.generated? : Setting → Option Generated
  | .generated g => some g
  | _ => none

namespace Argument.Settles

variable {isMutable : Bool} {argument : Argument} {setting : Option Setting}
  (h : argument.Settles isMutable setting)

include h

theorem text : setting.bind Setting.columnName? = argument.text? := by
  cases h with
  | name label value => simp [Setting.columnName?, Argument.text?, label, value]
  | representation label => simp [Setting.columnName?, Argument.text?, label]
  | key label => simp [Setting.columnName?, Argument.text?, label]
  | generated label => simp [Setting.columnName?, Argument.text?, label]
  | ignored label => simp [Argument.text?, label]

theorem stored : setting.bind Setting.representation? = argument.representation? := by
  cases h with
  | name label value => simp [Setting.representation?, Argument.representation?, value]
  | representation label value =>
    simp [Setting.representation?, Argument.representation?, label, value]
  | key label value => simp [Setting.representation?, Argument.representation?, value]
  | generated label =>
    cases hvalue : argument.value <;>
      simp [Setting.representation?, Argument.representation?, label, hvalue]
  | ignored label =>
    cases hvalue : argument.value <;> simp [Argument.representation?, label, hvalue]

theorem flag : (setting.bind Setting.key?).map KeyClaim.explicit? =
    (argument.flag? "primaryKey").map some := by
  cases h with
  | name label value => simp [Setting.key?, Argument.flag?, value]
  | representation label value => simp [Setting.key?, Argument.flag?, value]
  | key label value explicit => simp [Setting.key?, Argument.flag?, label, value, explicit]
  | generated label =>
    cases hvalue : argument.value <;> simp [Setting.key?, Argument.flag?, label, hvalue]
  | ignored label =>
    cases hvalue : argument.value <;> simp [Argument.flag?, label, hvalue]

theorem notGenerated (hmutable : isMutable = true) : setting.bind Setting.generated? = none := by
  cases h with
  | generated label value immutable =>
    rw [hmutable] at immutable
    cases immutable
  | _ => rfl

end Argument.Settles

/-- What a field that is not reported asks for. -/
structure ColumnSpec.OfField (f : Field) (s : ColumnSpec) : Prop where
  name : s.name = f.name
  type : s.type = ColumnSpec.fieldType f
  default : s.default = f.default
  isGroup : s.isGroup = (Attribute.named? "Columns" f.attributes).isSome
  columnName : s.columnName = inColumn? Argument.text? f.attributes
  representation : s.representation = inColumn? Argument.representation? f.attributes
  key : s.key.explicit? = inColumn? (Argument.flag? "primaryKey") f.attributes
  generated : f.isMutable = true → s.generated = .none

theorem KeyClaim.explicit?_getD (claim : Option KeyClaim) :
    (claim.getD .unclaimed).explicit? = (claim.map KeyClaim.explicit?).join := by
  cases claim <;> rfl

theorem lastSetting?_map {α β : Type} (found : List Finding) (pick : Setting → Option α)
    (f : α → β) :
    (lastSetting? found pick).map f = lastSetting? found fun s => (pick s).map f := by
  rw [lastSetting?, ← List.getLast?_map, List.map_filterMap]
  simp only [Option.map_bind]
  rfl

section

variable {role : Role} {f : Field} {attr : Option Attribute} {found : List Finding}
  (h : findings attr (fieldFinding role f) = .ok found)
  (clean : Diagnostic.hasErrors (found.flatMap (·.diagnostics)) = false)

include h clean

theorem lastSetting?_columnName : lastSetting? found Setting.columnName? =
    attr.bind fun a => (a.arguments.filterMap Argument.text?).getLast? :=
  lastSetting?_eq _ _ h clean fun _ _ _ _ hfinding hclean =>
    (fieldFinding_settles hfinding hclean).text

theorem lastSetting?_representation : lastSetting? found Setting.representation? =
    attr.bind fun a => (a.arguments.filterMap Argument.representation?).getLast? :=
  lastSetting?_eq _ _ h clean fun _ _ _ _ hfinding hclean =>
    (fieldFinding_settles hfinding hclean).stored

theorem lastSetting?_key : ((lastSetting? found Setting.key?).getD .unclaimed).explicit? =
    attr.bind fun a => (a.arguments.filterMap (Argument.flag? "primaryKey")).getLast? := by
  have hflag := lastSetting?_eq (fun s => s.key?.map KeyClaim.explicit?)
    (fun a => (a.flag? "primaryKey").map some) h clean
    fun a i argument finding hfinding hclean => by
      rw [← (fieldFinding_settles hfinding hclean).flag, Option.map_bind]
      rfl
  rw [KeyClaim.explicit?_getD, lastSetting?_map, hflag]
  cases attr with
  | none => rfl
  | some a =>
    rw [Option.bind_some, Option.bind_some, ← List.map_filterMap, List.getLast?_map]
    cases (a.arguments.filterMap (Argument.flag? "primaryKey")).getLast? <;> rfl

theorem lastSetting?_generated (hmutable : f.isMutable = true) :
    lastSetting? found Setting.generated? = none := by
  rw [lastSetting?_eq _ (fun _ => none) h clean fun _ _ _ _ hfinding hclean =>
    (fieldFinding_settles hfinding hclean).notGenerated hmutable]
  cases attr with
  | none => rfl
  | some a => simp

end

theorem ColumnSpec.ofOptions_clean {role : Role} {f : Field} {spec : ColumnSpec}
    {diagnostics : List Diagnostic}
    (h : ColumnSpec.ofOptions role f (Attribute.named? "Column" f.attributes) =
      .ok (spec, diagnostics))
    (clean : Diagnostic.hasErrors diagnostics = false)
    (hplain : Attribute.named? "Columns" f.attributes = none) : ColumnSpec.OfField f spec := by
  obtain ⟨found, hfound, h⟩ := bind_eq_ok.mp h
  cases h
  refine ⟨rfl, rfl, rfl, ?_, ?_, ?_, ?_, fun hmutable => ?_⟩
  · rw [hplain]
    rfl
  · exact lastSetting?_columnName hfound clean
  · exact lastSetting?_representation hfound clean
  · exact lastSetting?_key hfound clean
  · exact congrArg (Option.getD · Generated.none) (lastSetting?_generated hfound clean hmutable)

/-- The specification of a stored field. -/
def Resolved.stored? (resolved : Resolved) : Option ColumnSpec :=
  resolved.1.filter (!·.isEphemeral)

/-- A field that is not reported is resolved just if it is stored. -/
theorem ColumnSpec.ofField_clean {role : Role} {f : Field} {resolved : Resolved}
    (h : ColumnSpec.ofField role f = .ok resolved)
    (clean : Diagnostic.hasErrors resolved.2 = false) :
    (resolved.stored? = none ∧ f.isStored = false) ∨
      ∃ spec, resolved.stored? = some spec ∧ f.isStored = true ∧ ColumnSpec.OfField f spec := by
  unfold ColumnSpec.ofField at h
  dsimp only at h
  split at h
  · next hskipped =>
    cases h
    refine .inl ⟨rfl, ?_⟩
    rcases Bool.or_eq_true_iff.mp hskipped with h | h <;> simp [Field.isStored, h]
  · next hkept =>
    have hkept : f.isStatic = false ∧ f.isComputed = false := by simpa using hkept
    split at h
    · next fault hfault =>
      cases h
      unfold structuralFault? at hfault
      dsimp only at hfault
      split_ifs at hfault <;> (cases hfault; cases clean)
    · split at h
      · next hephemeral =>
        cases h
        refine .inl ⟨rfl, ?_⟩
        rw [Field.isStored, Option.isNone_eq_false_iff.mpr hephemeral, Bool.and_false]
      · next hlasting =>
        have hstored : f.isStored = true := by simpa [Field.isStored, hkept] using hlasting
        split at h
        · next group hgroup =>
          cases h
          rw [groupDiagnostics, Diagnostic.hasErrors_append, Bool.or_eq_false_iff] at clean
          -- a column group has no column attribute
          have hcolumn : Attribute.named? "Column" f.attributes = none := by
            cases hnamed : Attribute.named? "Column" f.attributes with
            | none => rfl
            | some a =>
              rw [hnamed] at clean
              cases clean.2
          refine .inr ⟨_, rfl, hstored, ⟨rfl, rfl, rfl, ?_, ?_, ?_, ?_, fun _ => rfl⟩⟩
          · rw [hgroup]
            rfl
          · rw [inColumn?, hcolumn]
            rfl
          · rw [inColumn?, hcolumn]
            rfl
          · rw [inColumn?, hcolumn]
            rfl
        · next hplain =>
          obtain ⟨⟨spec, diagnostics⟩, hoptions, rfl⟩ := map_eq_ok.mp h
          have hspec := ColumnSpec.ofOptions_clean hoptions clean hplain
          have hlasting : spec.isEphemeral = false := by
            obtain ⟨found, -, hfound⟩ := bind_eq_ok.mp hoptions
            cases hfound
            rfl
          exact .inr ⟨spec, by simp [Resolved.stored?, hlasting], hstored, hspec⟩

/-- Where nothing is reported, the specifications are those of the stored fields. -/
theorem RecordOutline.specs_clean {outline : RecordOutline}
    (h : RecordOutline.ofRecord settings r = .ok outline)
    (clean : Diagnostic.hasErrors outline.diagnostics = false) :
    List.Forall₂ ColumnSpec.OfField (r.fields.filter Field.isStored) outline.specs := by
  obtain ⟨resolved, hresolved, hspecs, -, -, hfields⟩ := RecordOutline.ofRecord_eq_ok h
  have hclean := Diagnostic.clean_of_subset clean hfields
  have hstored : outline.specs = resolved.filterMap Resolved.stored? := by
    rw [hspecs, List.filter_filterMap]
    rfl
  rw [hstored]
  clear h hspecs hfields hstored
  generalize r.fields = fields at hresolved ⊢
  induction hresolved with
  | nil => exact .nil
  | @cons f answer fields resolved hanswer _ ih =>
    rw [List.flatMap_cons, Diagnostic.hasErrors_append, Bool.or_eq_false_iff] at hclean
    have hrest := ih hclean.2
    rcases ColumnSpec.ofField_clean hanswer hclean.1 with ⟨hnone, hskipped⟩ |
      ⟨spec, hspec, hstored, hof⟩
    · rw [List.filter_cons_of_neg (by simp [hskipped]), List.filterMap_cons_none hnone]
      exact hrest
    · rw [List.filter_cons_of_pos hstored, List.filterMap_cons_some hspec]
      exact .cons hof hrest

/-! ## Entries of structs -/

/-- The entry is that of the stored field: its column is named by the last string of its column
attribute or else by the field, and a generated one is declared with `let`. -/
structure Entry.Stores (f : Field) (e : Entry) : Prop where
  field : e.column.field = f.name
  name : e.column.name = (inColumn? Argument.text? f.attributes).getD f.name
  members : e.members.isSome = (Attribute.named? "Columns" f.attributes).isSome
  width : e.column.width = match e.members with
    | none => 1
    | some g => g.width
  generated : e.column.generated.isGenerated = true → f.isMutable = false

/-- There are members just for a column group. -/
def ColumnSpec.HasMembers (spec : ColumnSpec) (members : Option Group) : Prop :=
  members.isSome = spec.isGroup

theorem FieldResolves.hasMembers {G : Record → Derived → Prop} {spec : ColumnSpec}
    {members : Option Group} (h : FieldResolves registry G r spec members) :
    spec.HasMembers members := by
  rw [ColumnSpec.HasMembers]
  cases members with
  | none =>
    cases hgroup : spec.isGroup with
    | false => rfl
    | true =>
      rw [FieldResolves, RecordOutline.groupName, hgroup] at h
      cases htype : spec.type <;> (rw [htype] at h; cases h)
  | some g =>
    obtain ⟨name, hname, -⟩ := h
    exact (RecordOutline.groupName_eq.mp hname).1.symm

theorem RecordOutline.entry_stores {f : Field} {spec : ColumnSpec} {members : Option Group}
    (hspec : ColumnSpec.OfField f spec) (hmembers : spec.HasMembers members)
    (isPrimaryKey : Bool) :
    Entry.Stores f (RecordOutline.entry isPrimaryKey spec members) := by
  have hname : spec.resolvedName = (inColumn? Argument.text? f.attributes).getD f.name := by
    rw [ColumnSpec.resolvedName, hspec.columnName, hspec.name]
  have hsome := Eq.trans hmembers hspec.isGroup
  cases members with
  | none =>
    refine ⟨hspec.name, hname, hsome, rfl, fun hgenerated => ?_⟩
    cases hmutable : f.isMutable with
    | false => rfl
    | true =>
      rw [RecordOutline.entry, hspec.generated hmutable] at hgenerated
      cases hgenerated
  | some g => exact ⟨hspec.name, hname, hsome, rfl, fun h => absurd h Bool.false_ne_true⟩

section Structs

variable {outline : RecordOutline} {members : List (Option Group)} {catalog : Catalog}
  {diagnostics : List Diagnostic} (outlined : RecordOutline.ofRecord settings r = .ok outline)
  (resolved : List.Forall₂ ColumnSpec.HasMembers outline.specs members)
  (built : outline.catalog r (members.map .ok) = (catalog, diagnostics))
  (clean : Diagnostic.hasErrors diagnostics = false)

include resolved built clean

/-- Every specification makes the entry at its place. -/
theorem RecordOutline.entries_eq : catalog.entries = (outline.specs.zip members).mapIdx
    fun i p => RecordOutline.entry (outline.primary == some i) p.1 p.2 := by
  obtain ⟨-, -, hsteps⟩ := RecordOutline.catalog_clean built clean
  have hlength := resolved.length_eq
  have hentries := hsteps.length_eq
  simp only [RecordOutline.steps, List.length_zip, List.length_range, List.length_map, hlength,
    Nat.min_self] at hentries
  refine List.ext_getElem (by simp [hlength, hentries]) fun i hi hi' => ?_
  obtain ⟨m, hm, he⟩ := (List.forall₂_iff_get.mp hsteps).2 i
    (by simpa [RecordOutline.steps, hlength, hentries] using hi) hi
  simp only [RecordOutline.steps, List.get_eq_getElem, List.getElem_zip, List.getElem_range,
    List.getElem_map, Except.ok.injEq] at hm he
  rw [he, ← hm, List.getElem_mapIdx, List.getElem_zip]

include outlined

/-- The entries are those of the stored fields. -/
theorem RecordOutline.entries_stores :
    List.Forall₂ Entry.Stores (r.fields.filter Field.isStored) catalog.entries := by
  obtain ⟨hown, -, -⟩ := RecordOutline.catalog_clean built clean
  have hspecs := RecordOutline.specs_clean outlined hown
  rw [RecordOutline.entries_eq resolved built clean]
  refine List.forall₂_iff_get.mpr ⟨?_, fun i hi hi' => ?_⟩
  · simp [hspecs.length_eq, resolved.length_eq]
  · have hspec := hspecs.length_eq ▸ hi
    have hmembers := resolved.length_eq ▸ hspec
    rw [List.get_eq_getElem, List.get_eq_getElem, List.getElem_mapIdx, List.getElem_zip]
    exact RecordOutline.entry_stores ((List.forall₂_iff_get.mp hspecs).2 i hi hspec)
      ((List.forall₂_iff_get.mp resolved).2 i hspec hmembers) _

end Structs

/-! ## Cases -/

/-- What a case that is not reported asks for. -/
structure ColumnSpec.OfCase (c : Case) (s : ColumnSpec) : Prop where
  name : s.name = c.name
  label : s.label = c.payloads.head?.bind (·.label)
  type : s.type = c.payloads.head?.map (·.type)
  columnName : s.columnName = inColumn? Argument.text? c.attributes
  single : c.payloads.length ≤ 1

/-- A case that is not reported is resolved. -/
theorem ColumnSpec.ofCase_clean {c : Case} {resolved : Resolved}
    (h : ColumnSpec.ofCase c = .ok resolved)
    (clean : Diagnostic.hasErrors resolved.2 = false) :
    ∃ spec, resolved.1 = some spec ∧ ColumnSpec.OfCase c spec := by
  unfold ColumnSpec.ofCase at h
  dsimp only at h
  split at h
  · cases h
    cases clean
  · next hsingle =>
    split at h
    · obtain ⟨span, -, h⟩ := bind_eq_ok.mp h
      cases h
      cases clean
    · obtain ⟨found, hfound, h⟩ := bind_eq_ok.mp h
      cases h
      refine ⟨_, rfl, rfl, rfl, rfl, ?_, Nat.le_of_not_gt hsingle⟩
      refine lastSetting?_eq Setting.columnName? Argument.text? hfound clean
        fun a i argument finding hfinding hclean => ?_
      have hsettles : argument.Settles false finding.setting :=
        caseFinding_settles (Except.ok.inj hfinding) hclean
      exact hsettles.text

/-- Where no case is reported, the specifications are those of the cases. -/
theorem EnumOutline.resolveCases_clean : ∀ {cases : List Case} {seen : List String}
    {resolved : List Resolved},
    List.Forall₂ (fun case answer => case = .ok answer) (EnumOutline.resolveCases r seen cases)
      resolved → (∀ answer ∈ resolved, Diagnostic.hasErrors answer.2 = false) →
    List.Forall₂ (fun c answer => ∃ spec, answer.1 = some spec ∧ ColumnSpec.OfCase c spec) cases
      resolved
  | [], seen, resolved, h, _ => by
    cases h
    exact .nil
  | c :: rest, seen, _, h, hclean => by
    rw [EnumOutline.resolveCases] at h
    cases h with
    | @cons _ answer _ answers hanswer hrest =>
      obtain ⟨hfirst, hmore⟩ := List.forall_mem_cons.mp hclean
      refine .cons ?_ (EnumOutline.resolveCases_clean hrest hmore)
      split at hanswer
      · cases hanswer
        cases hfirst
      · exact ColumnSpec.ofCase_clean hanswer hfirst

/-! ## Entries of enums -/

/-- The entry is that of the case. It has a column if the case has an associated value, which is
named by the last string of its column attribute, else by the label of the value or by the case. -/
structure CaseEntry.Stores (c : Case) (k : CaseEntry) : Prop where
  name : k.name = c.name
  label : k.label = c.payloads.head?.bind (·.label)
  payload : k.payload.toList.length = c.payloads.length
  field : ∀ e ∈ k.payload, e.column.field = c.name
  columnName : ∀ e ∈ k.payload, e.column.name =
    ((inColumn? Argument.text? c.attributes).or (k.label.filter (!·.isEmpty))).getD c.name
  width : ∀ e ∈ k.payload, e.column.width = match e.members with
    | none => 1
    | some g => g.width

/-- The case of a specification. -/
def EnumOutline.caseEntry (spec : ColumnSpec) (members : Option Group) : CaseEntry :=
  ⟨spec.name, spec.label, spec.type.map fun t => EnumOutline.entry spec t members⟩

theorem EnumOutline.caseEntry_stores {c : Case} {spec : ColumnSpec}
    (hspec : ColumnSpec.OfCase c spec) (members : Option Group) :
    CaseEntry.Stores c (EnumOutline.caseEntry spec members) := by
  refine ⟨hspec.name, hspec.label, ?_, ?_, ?_, ?_⟩
  · have hsingle := hspec.single
    rw [EnumOutline.caseEntry, hspec.type]
    cases hpayloads : c.payloads with
    | nil => rfl
    | cons p more =>
      rw [hpayloads, List.length_cons] at hsingle
      obtain rfl : more = [] := List.length_eq_zero_iff.mp (by omega)
      rfl
  all_goals
    intro e he
    obtain ⟨type, -, rfl⟩ := Option.map_eq_some_iff.mp he
  · cases members with
    | none => exact hspec.name
    | some g => exact hspec.name
  · have hname : EnumOutline.columnName spec = ((inColumn? Argument.text? c.attributes).or
        (spec.label.filter (!·.isEmpty))).getD c.name := by
      rw [EnumOutline.columnName, hspec.columnName, hspec.name]
    cases members with
    | none => exact hname
    | some g => exact hname
  · cases members with
    | none => rfl
    | some g => rfl

/-- Where nothing is reported, every specification has its case. -/
theorem EnumOutline.entries_cases {pairs : List (Resolved × Option Group)} :
    ∀ {seen : Dictionary String String},
    Diagnostic.hasErrors (EnumOutline.entries seen (pairs.map (Prod.map id .ok))).2 = false →
    (∀ pair ∈ pairs, ∃ spec, pair.1.1 = some spec) →
    List.Forall₂ (fun pair k => ∃ spec, pair.1.1 = some spec ∧
        k = EnumOutline.caseEntry spec pair.2) pairs
      (EnumOutline.entries seen (pairs.map (Prod.map id .ok))).1 := by
  induction pairs with
  | nil => exact fun _ _ => .nil
  | cons first rest ih =>
    intro seen hclean hspecs
    obtain ⟨⟨resolved, before⟩, members⟩ := first
    obtain ⟨⟨spec, hspec⟩, hmore⟩ := List.forall_mem_cons.mp hspecs
    obtain rfl : resolved = some spec := hspec
    rw [List.map_cons, Prod.map, id] at hclean ⊢
    rw [EnumOutline.entries.eq_def] at hclean ⊢
    dsimp only at hclean ⊢
    cases htype : spec.type with
    | none =>
      simp only [htype, Diagnostic.hasErrors_append, Bool.or_eq_false_iff] at hclean ⊢
      refine .cons ⟨spec, rfl, ?_⟩ (ih hclean.2 hmore)
      rw [EnumOutline.caseEntry, htype, Option.map_none]
    | some type =>
      simp only [htype] at hclean ⊢
      split
      · next hseen =>
        simp only [hseen, Diagnostic.hasErrors_append, Bool.or_eq_false_iff] at hclean
        cases hclean.2
      · next hseen =>
        simp only [hseen, Diagnostic.hasErrors_append, Bool.or_eq_false_iff] at hclean
        refine .cons ⟨spec, rfl, ?_⟩ (ih hclean.2 hmore)
        rw [EnumOutline.caseEntry, htype, Option.map_some]

/-- Of several columns of cases with one name only the first is taken. -/
theorem EnumOutline.nodup_columns (pairs : List (Resolved × Resolution)) :
    ∀ seen : Dictionary String String,
    (((EnumOutline.entries seen pairs).1.filterMap (·.payload)).map (·.column.name)).Nodup ∧
      ∀ e ∈ (EnumOutline.entries seen pairs).1.filterMap (·.payload),
        seen.get? e.column.name = none := by
  induction pairs with
  | nil =>
    intro seen
    exact ⟨List.nodup_nil, fun e he => absurd he List.not_mem_nil⟩
  | cons first rest ih =>
    intro seen
    obtain ⟨⟨resolved, before⟩, resolution⟩ := first
    cases resolved with
    | none =>
      rw [EnumOutline.entries]
      exact ih seen
    | some spec =>
      rw [EnumOutline.entries.eq_def]
      dsimp only
      split
      · exact ih seen
      · exact ih seen
      · next members type htype =>
        split
        · exact ih seen
        · next hfree =>
          obtain ⟨hnodup, hfresh⟩ := ih
            (seen.put (EnumOutline.entry spec type members).column.name spec.name)
          refine ⟨List.nodup_cons.mpr ⟨?_, hnodup⟩, ?_⟩
          · intro hmem
            obtain ⟨e, he, hname⟩ := List.mem_map.mp hmem
            exact (Dictionary.get?_eq_none_of_put (hfresh e he)).1 hname
          · intro e he
            rcases List.mem_cons.mp he with rfl | he
            · exact hfree
            · exact (Dictionary.get?_eq_none_of_put (hfresh e he)).2

/-- The cases of a catalog are those of the enum. -/
theorem EnumOutline.cases_stores {pairs : List (Resolved × Option Group)} {catalog : EnumCatalog}
    {diagnostics : List Diagnostic}
    (resolved : List.Forall₂ (fun case answer => case = .ok answer)
      (EnumOutline.ofRecord settings r).cases (pairs.map (·.1)))
    (built : (EnumOutline.ofRecord settings r).catalog r (pairs.map (Prod.map id .ok)) =
      (catalog, diagnostics))
    (clean : Diagnostic.hasErrors diagnostics = false) :
    List.Forall₂ CaseEntry.Stores r.cases catalog.cases := by
  obtain ⟨rfl, rfl⟩ := Prod.mk.inj built
  simp only [Diagnostic.hasErrors_append, Bool.or_eq_false_iff] at clean
  obtain ⟨⟨-, hentries⟩, -⟩ := clean
  have hbefore : ∀ answer ∈ pairs.map (·.1), Diagnostic.hasErrors answer.2 = false := by
    intro answer hanswer
    obtain ⟨pair, hpair, rfl⟩ := List.mem_map.mp hanswer
    refine Diagnostic.clean_of_subset hentries fun d hd => ?_
    exact EnumOutline.mem_entries_of_before hd (List.mem_map_of_mem hpair)
  have hspecs := EnumOutline.resolveCases_clean resolved hbefore
  rw [List.forall₂_map_right_iff] at hspecs
  have hcases := EnumOutline.entries_cases hentries fun pair hpair => by
    obtain ⟨c, -, spec, hspec, -⟩ := exists_left_of_mem hspecs hpair
    exact ⟨spec, hspec⟩
  refine forall₂_comp hspecs hcases ?_
  rintro c pair k ⟨spec, hspec, hof⟩ ⟨spec', hspec', rfl⟩
  obtain rfl : spec = spec' := Option.some.inj (hspec.symm.trans hspec')
  exact EnumOutline.caseEntry_stores hof pair.2

/-! ## Results -/

/-- The entries of a struct are those of its stored fields and the cases of an enum are its cases,
one for each and in order; no two columns, and no two cases, have one name. -/
def Derived.Stores (x : Derived) : Prop :=
  match x.catalog with
  | .record c => x.record.kind = .struct ∧
      List.Forall₂ Entry.Stores (x.record.fields.filter Field.isStored) c.entries ∧
      (c.entries.map (·.column.name)).Nodup
  | .enum c => x.record.kind = .enum ∧
      List.Forall₂ CaseEntry.Stores x.record.cases c.cases ∧
      (c.cases.map (·.name)).Nodup ∧
      ((c.cases.filterMap (·.payload)).map (·.column.name)).Nodup

theorem Composes.stores {G : Record → Derived → Prop} {x : Derived}
    (h : Composes registry settings G r x) : x.Stores := by
  have hnamed := @h.named
  have hdistinct := @h.distinct
  cases h with
  | struct annotated kind outlined resolved built clean =>
    have hmembers := resolved.imp fun _ _ => FieldResolves.hasMembers
    exact ⟨kind, RecordOutline.entries_stores outlined hmembers built clean, (hnamed rfl).nodup⟩
  | @enum pairs catalog diagnostics annotated kind resolved built clean =>
    have hresolved : List.Forall₂ (fun case answer => case = .ok answer)
        (EnumOutline.ofRecord settings r).cases (pairs.map (·.1)) := by
      rw [List.forall₂_map_right_iff]
      exact resolved.imp fun _ _ h => h.1
    refine ⟨kind, EnumOutline.cases_stores hresolved built clean, hdistinct rfl, ?_⟩
    obtain ⟨rfl, -⟩ := Prod.mk.inj built
    exact (EnumOutline.nodup_columns _ []).1

namespace Schema

/-- Nothing that a record declares is lost, repeated or moved in what is derived from it. -/
theorem Reachable.entries_declared {s : Schema} {reference : Reference} {x : Derived}
    (hs : s.Reachable) (hx : s.Yields reference x) : x.Stores :=
  (hs.results fun _ _ _ _ => Composes.stores).2 reference x hx

/-- The second field of the pair is stored in the column that its attribute names. -/
theorem entries_declared_pair : ∃ f e, pairRecord.fields[1]? = some f ∧
    pairCatalog.entries[1]? = some e ∧ Entry.Stores f e ∧ e.column.name = "y" := by
  obtain ⟨-, hentries, -⟩ :=
    Reachable.entries_declared ((Reachable.empty {}).registerAll [pairRecord]) yields_pair
  exact ⟨_, _, rfl, rfl, (List.forall₂_iff_get.mp hentries).2 1 (by decide) (by decide), rfl⟩

end Schema

end RowSchema
