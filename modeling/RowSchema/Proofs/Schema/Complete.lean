import RowSchema.Proofs.Schema.Names

/-! # What a result leaves out

Whatever a derivation skips it reports as an error: a field or a case that is not resolved, a column
name that is taken, a parameter of a draft without a type. So a result, which there is only where no
error is reported, has an entry for every stored field or every case of its record, and a draft
whenever the record is a table that has a primary key. -/

namespace RowSchema

variable {registry : Registry} {settings : Options} {r : Record}

theorem Diagnostic.clean_of_subset {diagnostics more : List Diagnostic}
    (h : Diagnostic.hasErrors diagnostics = false) (hsub : more ⊆ diagnostics) :
    Diagnostic.hasErrors more = false :=
  List.any_eq_false.mpr fun d hd => List.any_eq_false.mp h d (hsub hd)

/-! ## Fields -/

/-- Whether a field is stored in the rows of its record. -/
def Field.isStored (f : Field) : Bool :=
  !f.isStatic && !f.isComputed && (Attribute.named? "Ephemeral" f.attributes).isNone

/-- A field is passed over, reported or resolved. A column group does not claim to be the key. -/
theorem ColumnSpec.ofField_cases {role : Role} {f : Field} {resolved : Resolved}
    (h : ColumnSpec.ofField role f = .ok resolved) :
    (f.isStatic || f.isComputed) = true ∧ resolved = (none, []) ∨
    (∃ fault, fault.isFatal = true ∧ resolved = (none, [fault])) ∨
    ∃ spec, resolved.1 = some spec ∧ spec.name = f.name ∧ f.isStored = !spec.isEphemeral ∧
      (spec.isGroup = true → spec.key = .unclaimed) := by
  unfold ColumnSpec.ofField at h
  dsimp only at h
  split at h
  · next hskipped =>
    cases h
    exact .inl ⟨hskipped, rfl⟩
  · next hkept =>
    have hkept : f.isStatic = false ∧ f.isComputed = false := by simpa using hkept
    split at h
    · next fault hfault =>
      cases h
      refine .inr (.inl ⟨fault, ?_, rfl⟩)
      unfold structuralFault? at hfault
      dsimp only at hfault
      split_ifs at hfault <;> (cases hfault; rfl)
    · refine .inr (.inr ?_)
      split at h
      · next hephemeral =>
        cases h
        exact ⟨_, rfl, rfl, by simp [Field.isStored, hephemeral], nofun⟩
      · next hlasting =>
        have hstored : f.isStored = true := by
          simpa [Field.isStored, hkept] using hlasting
        split at h
        · cases h
          exact ⟨_, rfl, rfl, hstored, fun _ => rfl⟩
        · obtain ⟨pair, hpair, rfl⟩ := map_eq_ok.mp h
          obtain ⟨found, -, hfound⟩ := bind_eq_ok.mp hpair
          cases hfound
          exact ⟨_, rfl, rfl, hstored, nofun⟩

/-- Where no field is reported, there is a specification for each one that is stored. -/
theorem ColumnSpec.ofField_stored {role : Role} {fields : List Field} {resolved : List Resolved}
    (h : List.Forall₂ (fun f answer => ColumnSpec.ofField role f = .ok answer) fields resolved)
    (hclean : Diagnostic.hasErrors (resolved.flatMap (·.2)) = false) :
    (((resolved.filterMap (·.1)).filter (!·.isEphemeral)).map (·.name)) =
      (fields.filter Field.isStored).map (·.name) := by
  induction h with
  | nil => rfl
  | @cons f answer fields resolved hanswer _ ih =>
    rw [List.flatMap_cons, Diagnostic.hasErrors_append, Bool.or_eq_false_iff] at hclean
    have hrest := ih hclean.2
    rcases ColumnSpec.ofField_cases hanswer with ⟨hskipped, rfl⟩ | ⟨fault, hfatal, rfl⟩ |
      ⟨spec, hspec, hname, hstored, -⟩
    · have hstored : f.isStored = false := by
        rcases Bool.or_eq_true_iff.mp hskipped with h | h <;> simp [Field.isStored, h]
      simpa [hstored] using hrest
    · exact absurd hclean.1 (by simp [Diagnostic.hasErrors, hfatal])
    · cases hephemeral : spec.isEphemeral <;> simp_all

/-! ## Outlines -/

/-- The primary key is the number of a plain column. -/
theorem selectKey_primary {specs : List ColumnSpec} {i : Nat}
    (hkey : ∀ spec ∈ specs, spec.isGroup = true → spec.key = .unclaimed)
    (h : (selectKey settings specs).1 = some i) :
    ∃ spec, specs[i]? = some spec ∧ spec.isGroup = false := by
  have hfound {p : ColumnSpec → Bool} (hp : specs.findIdx? p = some i)
      (hgroup : ∀ spec ∈ specs, p spec = true → spec.isGroup = false) :
      ∃ spec, specs[i]? = some spec ∧ spec.isGroup = false := by
    obtain ⟨hi, hpi, -⟩ := List.findIdx?_eq_some_iff_getElem.mp hp
    exact ⟨specs[i], List.getElem?_eq_getElem hi, hgroup _ (List.getElem_mem hi) hpi⟩
  unfold selectKey at h
  split at h
  · refine hfound h fun spec hspec hclaimed => ?_
    cases hgroup : spec.isGroup with
    | false => rfl
    | true =>
      rw [hkey spec hspec hgroup] at hclaimed
      cases hclaimed
  · dsimp only at h
    split at h
    · refine hfound h fun spec _ hnamed => ?_
      simp only [isKeyByName, Bool.and_eq_true, Bool.not_eq_true'] at hnamed
      exact hnamed.2
    · cases h

/-- The parts of an outline that come of the fields and of stray cases. -/
theorem RecordOutline.ofRecord_eq_ok {outline : RecordOutline}
    (h : RecordOutline.ofRecord settings r = .ok outline) :
    ∃ resolved, List.Forall₂ (fun f answer => ColumnSpec.ofField r.role f = .ok answer) r.fields
        resolved ∧
      outline.specs = (resolved.filterMap (·.1)).filter (!·.isEphemeral) ∧
      (∀ i, outline.primary = some i → (selectKey settings outline.specs).1 = some i) ∧
      r.cases.map (strayCase r) ⊆ outline.diagnostics ∧
      resolved.flatMap (·.2) ⊆ outline.diagnostics := by
  unfold RecordOutline.ofRecord at h
  dsimp only at h
  obtain ⟨resolved, hresolved, h⟩ := bind_eq_ok.mp h
  cases h
  refine ⟨resolved, mapM_eq_ok.mp hresolved, rfl, fun i hi => ?_, ?_, ?_⟩
  · dsimp only at hi ⊢
    split at hi
    · cases hi
    · exact hi
  · intro d hd
    simp only [List.mem_append, hd, true_or]
  · intro d hd
    simp only [List.mem_append, hd, or_true, true_or]

theorem RecordOutline.primary_plain {outline : RecordOutline}
    (h : RecordOutline.ofRecord settings r = .ok outline) {i : Nat}
    (hi : outline.primary = some i) :
    ∃ spec, outline.specs[i]? = some spec ∧ spec.isGroup = false := by
  obtain ⟨resolved, hresolved, hspecs, hprimary, -, -⟩ := RecordOutline.ofRecord_eq_ok h
  refine selectKey_primary (fun spec hspec hgroup => ?_) (hprimary i hi)
  rw [hspecs] at hspec
  obtain ⟨answer, hanswer, hspec⟩ := List.mem_filterMap.mp (List.mem_of_mem_filter hspec)
  obtain ⟨f, -, hf⟩ := exists_left_of_mem hresolved hanswer
  rcases ColumnSpec.ofField_cases hf with ⟨-, rfl⟩ | ⟨_, -, rfl⟩ | ⟨spec', hspec', -, -, hkey⟩
  · cases hspec
  · cases hspec
  · rw [hspec] at hspec'
    cases hspec'
    exact hkey hgroup

/-- Where nothing is reported, there is a specification for each stored field. -/
theorem RecordOutline.specs_stored {outline : RecordOutline}
    (h : RecordOutline.ofRecord settings r = .ok outline)
    (hclean : Diagnostic.hasErrors outline.diagnostics = false) :
    r.cases = [] ∧ outline.specs.map (·.name) = (r.fields.filter Field.isStored).map (·.name) := by
  obtain ⟨resolved, hresolved, hspecs, -, hcases, hfields⟩ := RecordOutline.ofRecord_eq_ok h
  refine ⟨?_, ?_⟩
  · have hstray := Diagnostic.clean_of_subset hclean hcases
    cases hr : r.cases with
    | nil => rfl
    | cons c rest =>
      rw [hr] at hstray
      cases hstray
  · rw [hspecs]
    exact ColumnSpec.ofField_stored hresolved (Diagnostic.clean_of_subset hclean hfields)

/-! ## Entries of structs -/

/-- Where nothing is reported, every field that resolves has its entry. -/
theorem RecordOutline.entries_clean {primary : Option Nat}
    {numbered : List (ColumnSpec × Nat × Resolution)} : ∀ {seen : Dictionary String String},
    Diagnostic.hasErrors (RecordOutline.entries primary seen numbered).2 = false →
    (∀ step ∈ numbered, ∃ members, step.2.2 = .ok members) →
    List.Forall₂ (fun step e => ∃ members, step.2.2 = .ok members ∧
        e = RecordOutline.entry (primary == some step.2.1) step.1 members)
      numbered (RecordOutline.entries primary seen numbered).1 := by
  induction numbered with
  | nil => exact fun _ _ => .nil
  | cons first rest ih =>
    intro seen hclean hok
    obtain ⟨hfirst, hrest⟩ := List.forall_mem_cons.mp hok
    obtain ⟨spec, i, resolution⟩ := first
    obtain ⟨members, rfl⟩ : ∃ members, resolution = .ok members := hfirst
    rw [RecordOutline.entries] at hclean ⊢
    dsimp only at hclean ⊢
    split
    · next hseen =>
      simp only [hseen] at hclean
      cases hclean
    · next hseen =>
      simp only [hseen] at hclean
      exact .cons ⟨members, rfl, rfl⟩ (ih hclean hrest)

/-! ## Drafts -/

theorem Draft.ofEntry_error {specs : List ColumnSpec} {spans : Dictionary String Span} {e : Entry}
    {d : Diagnostic} (h : Draft.ofEntry specs spans e = .error d) : d.isFatal = true := by
  unfold Draft.ofEntry at h
  extract_lets field spec declared at h
  clear_value declared
  cases declared with
  | none =>
    cases h
    rfl
  | some type =>
    dsimp only at h
    split at h <;> cases h

/-- A table with a primary key has a draft unless a parameter is reported. -/
theorem Draft.ofCatalog_clean {catalog : Catalog} {specs : List ColumnSpec}
    {spans : Dictionary String Span} {draft : Option Draft} {diagnostics : List Diagnostic}
    (h : Draft.ofCatalog catalog specs spans = (draft, diagnostics))
    (hclean : Diagnostic.hasErrors diagnostics = false) :
    draft.isSome = catalog.primaryKey?.isSome := by
  unfold Draft.ofCatalog at h
  split at h
  · next hkey =>
    cases h
    rw [hkey]
    rfl
  · next key hkey =>
    dsimp only at h
    split at h
    · cases h
      rw [hkey]
      rfl
    · next hreported =>
      cases h
      obtain ⟨d, hd⟩ := List.exists_mem_of_ne_nil _ (mt List.isEmpty_iff.mpr hreported)
      obtain ⟨result, hresult, hsome⟩ := List.mem_filterMap.mp hd
      obtain ⟨e, -, rfl⟩ := List.mem_map.mp hresult
      split at hsome
      · next fault hfault =>
        cases hsome
        exact absurd hd (Diagnostic.not_mem_of_clean hclean (Draft.ofEntry_error hfault))
      · cases hsome

/-! ## Entries of enums -/

/-- A case is reported or resolved. -/
theorem ColumnSpec.ofCase_cases {c : Case} {resolved : Resolved}
    (h : ColumnSpec.ofCase c = .ok resolved) :
    resolved.name? = some c.name ∨ Diagnostic.hasErrors resolved.2 = true := by
  unfold ColumnSpec.ofCase at h
  dsimp only at h
  split at h
  · cases h
    exact .inr rfl
  · split at h
    · obtain ⟨span, -, h⟩ := bind_eq_ok.mp h
      cases h
      exact .inr rfl
    · obtain ⟨found, -, h⟩ := bind_eq_ok.mp h
      cases h
      exact .inl rfl

/-- Where no case is reported, every case is resolved. -/
theorem EnumOutline.resolveCases_names : ∀ {cases : List Case} {seen : List String}
    {resolved : List Resolved},
    List.Forall₂ (fun case answer => case = .ok answer) (EnumOutline.resolveCases r seen cases)
      resolved → (∀ answer ∈ resolved, Diagnostic.hasErrors answer.2 = false) →
    resolved.map Resolved.name? = cases.map fun c => some c.name
  | [], seen, resolved, h, _ => by
    cases h
    rfl
  | c :: rest, seen, _, h, hclean => by
    rw [EnumOutline.resolveCases] at h
    cases h with
    | @cons _ answer _ answers hanswer hrest =>
      obtain ⟨hfirst, hmore⟩ := List.forall_mem_cons.mp hclean
      rw [List.map_cons, List.map_cons, EnumOutline.resolveCases_names hrest hmore]
      split at hanswer
      · cases hanswer
        cases hfirst
      · rcases ColumnSpec.ofCase_cases hanswer with hname | herror
        · rw [hname]
        · rw [hfirst] at herror
          cases herror

/-- Where nothing is reported, every case that resolves is among the cases of the catalog. -/
theorem EnumOutline.entries_clean {pairs : List (Resolved × Option Group)} :
    ∀ {seen : Dictionary String String},
    Diagnostic.hasErrors (EnumOutline.entries seen (pairs.map (Prod.map id .ok))).2 = false →
    (EnumOutline.entries seen (pairs.map (Prod.map id .ok))).1.map (·.name) =
      (pairs.map (·.1)).filterMap Resolved.name? := by
  induction pairs with
  | nil => exact fun _ => rfl
  | cons first rest ih =>
    intro seen hclean
    obtain ⟨⟨spec, before⟩, members⟩ := first
    rw [List.map_cons, Prod.map, id] at hclean ⊢
    cases spec with
    | none =>
      rw [EnumOutline.entries, Diagnostic.hasErrors_append, Bool.or_eq_false_iff] at hclean
      rw [EnumOutline.entries]
      exact ih hclean.2
    | some spec =>
      have hname : Resolved.name? (some spec, before) = some spec.name := rfl
      rw [List.map_cons, List.filterMap_cons_some hname]
      rw [EnumOutline.entries.eq_def] at hclean ⊢
      dsimp only at hclean ⊢
      cases htype : spec.type with
      | none =>
        simp only [htype, Diagnostic.hasErrors_append, Bool.or_eq_false_iff] at hclean ⊢
        rw [List.map_cons, ih hclean.2]
      | some type =>
        simp only [htype] at hclean ⊢
        split
        · next hseen =>
          simp only [hseen, Diagnostic.hasErrors_append, Bool.or_eq_false_iff] at hclean
          cases hclean.2
        · next hseen =>
          simp only [hseen, Diagnostic.hasErrors_append, Bool.or_eq_false_iff] at hclean
          rw [List.map_cons, ih hclean.2]

/-! ## Results -/

/-- Nothing that the record declares is left out of its result, and every default that has a value
is the default of its parameter in selections. -/
structure Derived.Complete (x : Derived) : Prop where
  struct : ∀ c, x.catalog = .record c → c.entries ≠ [] ∧ x.record.cases = [] ∧
    c.entries.map (·.column.field) = (x.record.fields.filter Field.isStored).map (·.name)
  enum : ∀ c, x.catalog = .enum c → c.cases ≠ [] ∧
    c.cases.map (·.name) = x.record.cases.map (·.name) ∧
    ∀ f ∈ x.record.fields, (f.isStatic || f.isComputed) = true
  draft : x.draft.isSome = true ↔
    x.record.isTable = true ∧ ∃ c, x.catalog = .record c ∧ c.primaryKey?.isSome = true
  defaults : ∀ e ∈ x.catalog.entries, ∀ name, (Parameter.ofEntry name e).default.isSome =
    (!e.isGroup && e.column.default.any Expr.isEvaluable)

mutual

theorem Expr.isSome_evaluate : ∀ e : Expr, e.evaluate.toOption.isSome = e.isEvaluable
  | .string _ | .boolean _ | .integer _ | .float _ | .nil | .constant _ | .supplied _ => rfl
  | .member _ | .type _ | .reference _ | .call _ _ => rfl
  | .array elements => by
    have hall := Expr.isSome_evaluateAll elements
    rw [Expr.evaluate, Expr.isEvaluable, ← hall]
    cases Expr.evaluateAll elements <;> rfl

theorem Expr.isSome_evaluateAll : ∀ es : List Expr,
    (Expr.evaluateAll es).toOption.isSome = Expr.areEvaluable es
  | [] => rfl
  | e :: rest => by
    have hfirst := Expr.isSome_evaluate e
    have hrest := Expr.isSome_evaluateAll rest
    rw [Expr.evaluateAll, Expr.areEvaluable, ← hfirst, ← hrest]
    cases e.evaluate with
    | error part => rfl
    | ok value => cases Expr.evaluateAll rest <;> rfl

end

/-- An expression has a value just if it is evaluable. -/
theorem Expr.isEvaluable_iff {e : Expr} : e.isEvaluable = true ↔ ∃ v, e.evaluate = .ok v := by
  rw [← Expr.isSome_evaluate]
  cases e.evaluate <;> simp [Except.toOption]

theorem Parameter.ofEntry_default (name : String) (e : Entry) :
    (Parameter.ofEntry name e).default.isSome =
      (!e.isGroup && e.column.default.any Expr.isEvaluable) := by
  unfold Parameter.ofEntry
  cases e.isGroup with
  | true => rfl
  | false =>
    cases e.column.default with
    | none => rfl
    | some d => simpa using Expr.isSome_evaluate d

/-- The specifications of an outline, numbered, with what they resolve to. -/
def RecordOutline.steps (o : RecordOutline) (members : List (Option Group)) :
    List (ColumnSpec × Nat × Resolution) :=
  o.specs.zip ((List.range o.specs.length).zip (members.map .ok))

section Structs

variable {G : Record → Derived → Prop} {outline : RecordOutline} {members : List (Option Group)}
  {catalog : Catalog} {diagnostics : List Diagnostic}
  (outlined : RecordOutline.ofRecord settings r = .ok outline)
  (resolved : List.Forall₂ (FieldResolves registry G r) outline.specs members)
  (built : outline.catalog r (members.map .ok) = (catalog, diagnostics))
  (clean : Diagnostic.hasErrors diagnostics = false)

include built clean

/-- Every specification has its entry. -/
theorem RecordOutline.catalog_clean : Diagnostic.hasErrors outline.diagnostics = false ∧
    catalog.entries ≠ [] ∧
    List.Forall₂ (fun step e => ∃ m, step.2.2 = .ok m ∧
        e = RecordOutline.entry (outline.primary == some step.2.1) step.1 m)
      (outline.steps members) catalog.entries := by
  obtain ⟨rfl, rfl⟩ := Prod.mk.inj built
  simp only [Diagnostic.hasErrors_append, Bool.or_eq_false_iff] at clean
  obtain ⟨⟨hown, hentries⟩, hsome⟩ := clean
  refine ⟨hown, fun hnone => ?_, RecordOutline.entries_clean hentries ?_⟩
  · rw [if_pos (List.isEmpty_iff.mpr hnone)] at hsome
    cases hsome
  · rintro ⟨spec, i, resolution⟩ hstep
    obtain ⟨m, -, rfl⟩ := List.mem_map.mp (List.of_mem_zip (List.of_mem_zip hstep).2).2
    exact ⟨m, rfl⟩

include outlined resolved

/-- The column of the primary key is marked, and no other one is. -/
theorem RecordOutline.primaryKey_isSome :
    catalog.primaryKey?.isSome = outline.primary.isSome := by
  obtain ⟨-, -, hsteps⟩ := RecordOutline.catalog_clean built clean
  rw [Bool.eq_iff_iff, Catalog.primaryKey?, List.find?_isSome]
  constructor
  · rintro ⟨e, he, hkey⟩
    obtain ⟨step, -, m, -, rfl⟩ := exists_left_of_mem hsteps he
    cases m with
    | some g => cases hkey
    | none =>
      rw [eq_of_beq hkey]
      rfl
  · intro hprimary
    obtain ⟨i, hi⟩ := Option.isSome_iff_exists.mp hprimary
    obtain ⟨spec, hspec, hplain⟩ := RecordOutline.primary_plain outlined hi
    obtain ⟨hlt, rfl⟩ := List.getElem?_eq_some_iff.mp hspec
    have hlength := resolved.length_eq
    have hstep : (outline.specs[i], i, .ok members[i]) ∈ outline.steps members :=
      List.mem_iff_getElem.mpr ⟨i, by simp [RecordOutline.steps, hlt, ← hlength],
        by simp [RecordOutline.steps]⟩
    have hplainMember : members[i] = none := by
      have hzip : (outline.specs[i], members[i]) ∈ outline.specs.zip members :=
        List.mem_iff_getElem.mpr ⟨i, by simp [hlt, ← hlength], by simp⟩
      refine FieldResolves.of_ok_none ?_ ((List.forall₂_iff_zip.mp resolved).2 hzip)
      rw [RecordOutline.groupName, hplain]
      rfl
    obtain ⟨e, he, m, hm, rfl⟩ := exists_right_of_mem hsteps hstep
    obtain rfl : members[i] = m := Except.ok.inj hm
    refine ⟨_, he, ?_⟩
    rw [hplainMember, hi]
    exact beq_self_eq_true _

/-- Every stored field has an entry. -/
theorem RecordOutline.catalog_stored : r.cases = [] ∧
    catalog.entries.map (·.column.field) = (r.fields.filter Field.isStored).map (·.name) := by
  obtain ⟨hown, -, hsteps⟩ := RecordOutline.catalog_clean built clean
  obtain ⟨hcases, hstored⟩ := RecordOutline.specs_stored outlined hown
  have hfields : (outline.steps members).map (·.1.name) =
      catalog.entries.map (·.column.field) := by
    rw [← List.forall₂_eq_eq_eq, List.forall₂_map_left_iff, List.forall₂_map_right_iff]
    refine hsteps.imp fun step e hentry => ?_
    obtain ⟨m, -, rfl⟩ := hentry
    rw [RecordOutline.entry_field]
  have hspecs : (outline.steps members).map (·.1) = outline.specs :=
    List.map_fst_zip (by simp [resolved.length_eq])
  refine ⟨hcases, ?_⟩
  rw [← hstored, ← hfields, ← hspecs, List.map_map]
  rfl

end Structs

/-- Every case of an enum is among those of its catalog. -/
theorem EnumOutline.catalog_stored {pairs : List (Resolved × Option Group)} {catalog : EnumCatalog}
    {diagnostics : List Diagnostic}
    (resolved : List.Forall₂ (fun case answer => case = .ok answer)
      (EnumOutline.ofRecord settings r).cases (pairs.map (·.1)))
    (built : (EnumOutline.ofRecord settings r).catalog r (pairs.map (Prod.map id .ok)) =
      (catalog, diagnostics))
    (clean : Diagnostic.hasErrors diagnostics = false) :
    catalog.cases ≠ [] ∧ catalog.cases.map (·.name) = r.cases.map (·.name) ∧
      ∀ f ∈ r.fields, (f.isStatic || f.isComputed) = true := by
  obtain ⟨rfl, rfl⟩ := Prod.mk.inj built
  simp only [Diagnostic.hasErrors_append, Bool.or_eq_false_iff] at clean
  obtain ⟨⟨hown, hentries⟩, hsome⟩ := clean
  have hbefore : ∀ answer ∈ pairs.map (·.1), Diagnostic.hasErrors answer.2 = false := by
    intro answer hanswer
    obtain ⟨pair, hpair, rfl⟩ := List.mem_map.mp hanswer
    refine Diagnostic.clean_of_subset hentries fun d hd => ?_
    exact EnumOutline.mem_entries_of_before hd (List.mem_map_of_mem hpair)
  have hnames : (EnumOutline.entries [] (pairs.map (Prod.map id .ok))).1.map (·.name) =
      r.cases.map (·.name) := by
    rw [EnumOutline.entries_clean hentries]
    have hall := congrArg (List.filterMap id) (EnumOutline.resolveCases_names resolved hbefore)
    simpa [List.filterMap_map, Function.comp_def] using hall
  refine ⟨fun hnone => ?_, hnames, fun f hf => ?_⟩
  · have hcases : r.cases = [] := by
      rw [show (EnumOutline.entries [] (pairs.map (Prod.map id .ok))).1 = [] from hnone] at hnames
      exact List.map_eq_nil_iff.mp hnames.symm
    rw [hcases] at hsome
    cases hsome
  · have hstray := Diagnostic.clean_of_subset hown (List.subset_append_left _ _)
    cases hstored : f.isStatic || f.isComputed with
    | true => rfl
    | false =>
      have hmem : strayField r f ∈ (r.fields.filter fun f => !f.isStatic && !f.isComputed).map
          (strayField r) := by
        refine List.mem_map_of_mem (List.mem_filter.mpr ⟨hf, ?_⟩)
        simpa using hstored
      exact absurd hmem (Diagnostic.not_mem_of_clean hstray rfl)

/-- Whatever composes is complete. -/
theorem Composes.complete {G : Record → Derived → Prop} {x : Derived}
    (h : Composes registry settings G r x) : x.Complete := by
  cases h with
  | @struct outline members catalog draft diagnostics draftDiagnostics annotated kind outlined
      resolved built clean drafted draftClean =>
    obtain ⟨-, hsome, -⟩ := RecordOutline.catalog_clean built clean
    have hstored := RecordOutline.catalog_stored outlined resolved built clean
    have hprimary := RecordOutline.primaryKey_isSome outlined resolved built clean
    refine ⟨?_, nofun, ?_, fun e _ name => Parameter.ofEntry_default name e⟩
    · rintro c ⟨⟩
      exact ⟨hsome, hstored⟩
    · unfold draftOf at drafted
      split at drafted
      · next hkey =>
        obtain ⟨htable, hkey⟩ := Bool.and_eq_true_iff.mp hkey
        rw [← hprimary] at hkey
        have hdraft := Draft.ofCatalog_clean drafted draftClean
        exact ⟨fun _ => ⟨htable, catalog, rfl, hkey⟩, fun _ => hdraft.trans hkey⟩
      · next hkey =>
        cases drafted
        refine ⟨nofun, ?_⟩
        rintro ⟨htable, c, ⟨⟩, hc⟩
        rw [hprimary] at hc
        exact absurd (Bool.and_eq_true_iff.mpr ⟨htable, hc⟩) hkey
  | @enum pairs catalog diagnostics annotated kind resolved built clean =>
    have hresolved : List.Forall₂ (fun case answer => case = .ok answer)
        (EnumOutline.ofRecord settings r).cases (pairs.map (·.1)) := by
      rw [List.forall₂_map_right_iff]
      exact resolved.imp fun _ _ h => h.1
    refine ⟨nofun, ?_, ⟨nofun, ?_⟩, fun e _ name => Parameter.ofEntry_default name e⟩
    · rintro c ⟨⟩
      exact EnumOutline.catalog_stored hresolved built clean
    · rintro ⟨-, c, ⟨⟩, -⟩

end RowSchema
