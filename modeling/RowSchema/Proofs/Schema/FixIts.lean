import RowSchema.Proofs.Schema.History

/-! # Fix-its

Each fix-it of a derivation is about the record that is derived: it takes an argument out of one of
its attributes, removes one of its attributes, or has one of its fields declared with `let`. One
more asks for the type of a field, after the name of the field. -/

namespace RowSchema

/-! ## What fix-its are about -/

/-- The fix-its that take an argument out of the attribute. -/
inductive Attribute.Suggests (a : Attribute) : FixIt → Prop
  | argument {i : Nat} {b : Argument} (h : a.arguments[i]? = some b) :
      Suggests a (removeArgument a i b)

/-- The fix-its that change the attributes of the field or its keyword. -/
inductive Field.Suggests (f : Field) : FixIt → Prop
  | argument {a : Attribute} {fix : FixIt} (ha : a ∈ f.attributes) (h : a.Suggests fix) :
      Suggests f fix
  | whole {a : Attribute} (ha : a ∈ f.attributes) :
      Suggests f ⟨"Remove '" ++ a.source ++ "'", "", a.span⟩
  | keyword {span : Span} (hspan : f.bindingSpan = some span) (hmutable : f.isMutable = true) :
      Suggests f ⟨"Replace 'var' with 'let'", "let", some span⟩

/-- The fix-its that change the attributes of the case. -/
inductive Case.Suggests (c : Case) : FixIt → Prop
  | argument {a : Attribute} {fix : FixIt} (ha : a ∈ c.attributes) (h : a.Suggests fix) :
      Suggests c fix

/-- The fix-its that the declarations of the record may be reported with. -/
inductive Record.Suggests (r : Record) : FixIt → Prop
  | argument {a : Attribute} {fix : FixIt} (ha : a ∈ r.attributes) (h : a.Suggests fix) :
      Suggests r fix
  | field {f : Field} {fix : FixIt} (hf : f ∈ r.fields) (h : f.Suggests fix) : Suggests r fix
  | case {c : Case} {fix : FixIt} (hc : c ∈ r.cases) (h : c.Suggests fix) : Suggests r fix
  | type {f : Field} {span : Span} (hf : f ∈ r.fields) (hspan : f.nameSpan = some span) :
      Suggests r ⟨"Insert ': <#Type#>'", ": <#Type#>", some ⟨span.stop, span.stop⟩⟩

/-- Each fix-it of the diagnostics is one of those. -/
def Suggested (S : FixIt → Prop) (diagnostics : List Diagnostic) : Prop :=
  ∀ d ∈ diagnostics, ∀ fix ∈ d.fixIts, S fix

section

variable {S T : FixIt → Prop} {α : Type}

@[simp] theorem suggested_nil : Suggested S [] := fun _ h => nomatch h

@[simp] theorem suggested_append {ds es : List Diagnostic} :
    Suggested S (ds ++ es) ↔ Suggested S ds ∧ Suggested S es := List.forall_mem_append

@[simp] theorem suggested_cons {d : Diagnostic} {ds : List Diagnostic} :
    Suggested S (d :: ds) ↔ (∀ fix ∈ d.fixIts, S fix) ∧ Suggested S ds := List.forall_mem_cons

theorem Suggested.mono {ds : List Diagnostic} (h : Suggested S ds) (hS : ∀ fix, S fix → T fix) :
    Suggested T ds := fun d hd fix hfix => hS fix (h d hd fix hfix)

theorem suggested_map {f : α → Diagnostic} {l : List α}
    (h : ∀ a ∈ l, ∀ fix ∈ (f a).fixIts, S fix) : Suggested S (l.map f) := by
  intro d hd
  obtain ⟨a, ha, rfl⟩ := List.mem_map.mp hd
  exact h a ha

theorem suggested_flatMap {f : α → List Diagnostic} {l : List α}
    (h : ∀ a ∈ l, Suggested S (f a)) : Suggested S (l.flatMap f) := by
  intro d hd
  obtain ⟨a, ha, hd⟩ := List.mem_flatMap.mp hd
  exact h a ha d hd

/-- A diagnostic without fix-its. -/
theorem suggested_bare {d : Diagnostic} (h : d.fixIts = []) : Suggested S [d] := by
  refine suggested_cons.mpr ⟨fun fix hfix => ?_, suggested_nil⟩
  rw [h] at hfix
  cases hfix

theorem suggested_misplaced {a : Attribute} {i : Nat} {b : Argument} {field : Option String}
    {message : String} (hb : a.arguments[i]? = some b) :
    Suggested a.Suggests [misplaced a i b field message] :=
  suggested_cons.mpr ⟨List.forall_mem_singleton.mpr (.argument hb), suggested_nil⟩

end

/-! ## Table options -/

theorem nonEmptyString_bare {argument : Argument} {field : Option String} {d : Diagnostic}
    (h : nonEmptyString argument field = .error d) : d.fixIts = [] := by
  unfold nonEmptyString at h
  split at h
  · split at h <;> cases h
    rfl
  · cases h
    rfl

theorem TableOptions.ofArguments_suggested (attr : Attribute) : ∀ (options : TableOptions)
    (arguments : List (Argument × Nat)), (∀ b i, (b, i) ∈ arguments → attr.arguments[i]? = some b) →
      Suggested attr.Suggests (TableOptions.ofArguments attr options arguments).2
  | options, [], _ => suggested_nil
  | options, (argument, i) :: rest, h => by
    rw [TableOptions.ofArguments]
    dsimp only
    refine suggested_append.mpr ⟨?_, TableOptions.ofArguments_suggested attr _ rest
      fun b i hmem => h b i (List.mem_cons_of_mem _ hmem)⟩
    split
    · split
      · exact suggested_nil
      · next hname => exact suggested_bare (nonEmptyString_bare hname)
    · split
      · exact suggested_nil
      · next hname => exact suggested_bare (nonEmptyString_bare hname)
    · exact suggested_misplaced (h argument i List.mem_cons_self)

/-- The argument of that number. -/
theorem getElem?_of_mem_zipIdx {l : List Argument} {b : Argument} {i : Nat}
    (h : (b, i) ∈ l.zipIdx) : l[i]? = some b := List.mem_zipIdx_iff_getElem?.mp h

theorem TableOptions.withDefault_suggested (settings : Options) (r : Record) :
    Suggested r.Suggests (TableOptions.withDefault settings r).2 := by
  have hrecord : Suggested r.Suggests (TableOptions.ofRecord r).2 := by
    unfold TableOptions.ofRecord
    split
    · next attr hattr =>
      refine (TableOptions.ofArguments_suggested attr _ _
        fun b i => getElem?_of_mem_zipIdx).mono fun fix h => ?_
      exact .argument (List.mem_of_find?_eq_some hattr) h
    · split
      · next attr hattr =>
        refine suggested_map fun pair hpair fix hfix => ?_
        obtain ⟨b, i⟩ := pair
        have hb := getElem?_of_mem_zipIdx hpair
        exact .argument (List.mem_of_find?_eq_some hattr)
          (suggested_misplaced hb _ List.mem_cons_self fix hfix)
      · exact suggested_nil
  unfold TableOptions.withDefault
  dsimp only
  split <;> exact hrecord

/-! ## Column specifications -/

section

variable {a : Attribute} {i : Nat} {argument : Argument} (hi : a.arguments[i]? = some argument)

include hi

theorem unsupported_suggested (field label : String) :
    Suggested a.Suggests (unsupported a i argument field label).diagnostics :=
  suggested_misplaced hi

omit hi in
theorem nameFinding_suggested {S : FixIt → Prop} (argument : Argument) (field : String) :
    Suggested S (nameFinding argument field).diagnostics := by
  unfold nameFinding
  split
  · exact suggested_nil
  · next h => exact suggested_bare (nonEmptyString_bare h)

omit hi in
theorem representationFinding_suggested {S : FixIt → Prop} (argument : Argument) (field : String) :
    Suggested S (representationFinding argument field).diagnostics := by
  unfold representationFinding
  split
  · exact suggested_nil
  · exact suggested_bare rfl

theorem keyFinding_suggested (field : String) :
    Suggested a.Suggests (keyFinding field a i argument).diagnostics := by
  unfold keyFinding
  split
  · exact suggested_nil
  · dsimp only
    split
    · exact suggested_nil
    · refine suggested_cons.mpr ⟨?_, suggested_nil⟩
      exact List.forall_mem_singleton.mpr (.argument hi)
  · exact suggested_bare rfl

omit hi in
theorem generatedFinding_suggested {field : Field} {finding : Finding}
    (h : generatedFinding field argument = .ok finding) :
    Suggested field.Suggests finding.diagnostics := by
  unfold generatedFinding at h
  split at h
  · cases h
    exact suggested_bare rfl
  · split at h
    · next hmutable =>
      obtain ⟨span, -, h⟩ := bind_eq_ok.mp h
      cases h
      refine suggested_cons.mpr ⟨fun fix hfix => ?_, suggested_nil⟩
      obtain ⟨span, hspan, rfl⟩ := List.mem_map.mp hfix
      exact .keyword (Option.mem_toList.mp hspan) hmutable
    · cases h
      exact suggested_nil

theorem fieldFinding_suggested {role : Role} {field : Field} {finding : Finding}
    (ha : a ∈ field.attributes) (h : fieldFinding role field a i argument = .ok finding) :
    Suggested field.Suggests finding.diagnostics := by
  have hown {ds : List Diagnostic} (hds : Suggested a.Suggests ds) :
      Suggested field.Suggests ds := hds.mono fun _ => .argument ha
  unfold fieldFinding at h
  dsimp only at h
  split at h
  · split at h <;> cases h
    · exact hown (suggested_misplaced hi)
    · exact nameFinding_suggested _ _
  · cases h
    exact representationFinding_suggested _ _
  · split at h <;> cases h
    · exact hown (suggested_misplaced hi)
    · exact hown (keyFinding_suggested hi _)
  · split at h
    · cases h
      exact hown (suggested_misplaced hi)
    · exact generatedFinding_suggested h
  · cases h
    exact hown (unsupported_suggested hi _ _)

theorem caseFinding_suggested (name : String) :
    Suggested a.Suggests (caseFinding name a i argument).diagnostics := by
  unfold caseFinding
  split
  · exact nameFinding_suggested _ _
  · exact representationFinding_suggested _ _
  · split
    · exact suggested_misplaced hi
    · exact unsupported_suggested hi _ _

omit hi in
/-- Only an argument `primaryKey: true` claims the key. -/
theorem fieldFinding_claims {role : Role} {field : Field} {finding : Finding} {j : Nat}
    {span : Option Span} (h : fieldFinding role field a i argument = .ok finding)
    (hs : finding.setting = some (.key (.claimed j span))) :
    j = i ∧ argument.label = some "primaryKey" ∧ argument.value = .boolean true := by
  unfold fieldFinding at h
  dsimp only at h
  split at h
  · split at h <;> cases h
    · cases hs
    · unfold nameFinding at hs
      split at hs <;> cases hs
  · cases h
    unfold representationFinding at hs
    split at hs <;> cases hs
  · next hlabel =>
    split at h <;> cases h
    · cases hs
    · unfold keyFinding at hs
      split at hs
      · next hvalue =>
        cases hs
        exact ⟨rfl, hlabel, hvalue⟩
      · cases hs
      · cases hs
  · split at h
    · cases h
      cases hs
    · unfold generatedFinding at h
      split at h
      · cases h
        cases hs
      · split at h
        · obtain ⟨span, -, h⟩ := bind_eq_ok.mp h
          cases h
          cases hs
        · cases h
          cases hs
  · cases h
    cases hs

end

/-- Each finding is that of an argument. -/
theorem exists_of_mem_findings {attr : Option Attribute}
    {find : Attribute → Nat → Argument → Except RangeError Finding} {found : List Finding}
    (h : findings attr find = .ok found) {finding : Finding} (hmem : finding ∈ found) :
    ∃ a i argument, attr = some a ∧ a.arguments[i]? = some argument ∧
      find a i argument = .ok finding := by
  unfold findings at h
  split at h
  · next a =>
    obtain ⟨⟨argument, i⟩, hpair, hok⟩ := exists_left_of_mem (mapM_eq_ok.mp h) hmem
    exact ⟨a, i, argument, rfl, getElem?_of_mem_zipIdx hpair, hok⟩
  · cases h
    cases hmem

theorem mem_of_named? {name : String} {attributes : List Attribute} {a : Attribute}
    (h : Attribute.named? name attributes = some a) : a ∈ attributes := List.mem_of_find?_eq_some h

/-- A claim that counts is what some finding settles. -/
theorem exists_claim {found : List Finding} {i : Nat} {span : Option Span}
    (h : ((lastSetting? found fun | .key claim => some claim | _ => none).getD .unclaimed) =
      .claimed i span) : ∃ finding ∈ found, finding.setting = some (.key (.claimed i span)) := by
  cases hlast : lastSetting? found fun | .key claim => some claim | _ => none with
  | none =>
    rw [hlast] at h
    cases h
  | some claim =>
    rw [hlast, Option.getD_some] at h
    obtain ⟨finding, hmem, hpick⟩ := List.mem_filterMap.mp (List.mem_of_getLast? hlast)
    obtain ⟨setting, hsetting, hclaim⟩ := Option.bind_eq_some_iff.mp hpick
    refine ⟨finding, hmem, ?_⟩
    split at hclaim
    · rw [hsetting, Option.some.inj hclaim, h]
    · cases hclaim

/-- What a specification claims, an argument of its attribute says. -/
def ColumnSpec.ClaimsBy (spec : ColumnSpec) (field : Field) : Prop :=
  ∀ i span, spec.key = .claimed i span → ∃ a b, spec.attr = some a ∧ a ∈ field.attributes ∧
    a.arguments[i]? = some b ∧ b.source = "primaryKey: true"

theorem ColumnSpec.ofOptions_suggested {role : Role} {field : Field} {attr : Option Attribute}
    {spec : ColumnSpec} {diagnostics : List Diagnostic}
    (hattr : ∀ a, attr = some a → a ∈ field.attributes)
    (h : ColumnSpec.ofOptions role field attr = .ok (spec, diagnostics)) :
    Suggested field.Suggests diagnostics ∧ spec.ClaimsBy field := by
  obtain ⟨found, hfound, h⟩ := bind_eq_ok.mp h
  cases h
  constructor
  · refine suggested_flatMap fun finding hmem => ?_
    obtain ⟨a, i, argument, ha, hi, hok⟩ := exists_of_mem_findings hfound hmem
    exact fieldFinding_suggested hi (hattr a ha) hok
  · intro i span hkey
    obtain ⟨finding, hmem, hsetting⟩ := exists_claim hkey
    obtain ⟨a, j, argument, rfl, hj, hok⟩ := exists_of_mem_findings hfound hmem
    obtain ⟨rfl, hlabel, hvalue⟩ := fieldFinding_claims hok hsetting
    refine ⟨a, argument, rfl, hattr a rfl, hj, ?_⟩
    obtain ⟨label, value, _⟩ := argument
    cases hlabel
    cases hvalue
    rfl

theorem ColumnSpec.ofField_suggested {role : Role} {field : Field} {resolved : Resolved}
    (h : ColumnSpec.ofField role field = .ok resolved) :
    Suggested field.Suggests resolved.2 ∧ ∀ spec, resolved.1 = some spec → spec.ClaimsBy field := by
  unfold ColumnSpec.ofField at h
  split at h
  · cases h
    exact ⟨suggested_nil, fun _ hspec => nomatch hspec⟩
  · split at h
    · next fault hfault =>
      cases h
      refine ⟨suggested_bare ?_, fun _ hspec => nomatch hspec⟩
      unfold ColumnSpec.structuralFault? at hfault
      dsimp only at hfault
      split at hfault
      · cases hfault
        rfl
      · split at hfault <;> cases hfault
        rfl
    · dsimp only at h
      split at h
      · cases h
        refine ⟨suggested_nil, ?_⟩
        intro spec hspec i span hkey
        obtain rfl := Option.some.inj hspec
        cases hkey
      · split at h
        · next group hgroup =>
          cases h
          refine ⟨suggested_append.mpr ⟨?_, ?_⟩, ?_⟩
          · refine suggested_map fun pair hpair fix hfix => ?_
            obtain ⟨b, i⟩ := pair
            have hb := getElem?_of_mem_zipIdx hpair
            exact .argument (mem_of_named? hgroup)
              (suggested_misplaced hb _ List.mem_cons_self fix hfix)
          · refine suggested_map fun a ha => List.forall_mem_singleton.mpr ?_
            exact .whole (mem_of_named? (Option.mem_toList.mp ha))
          · intro spec hspec i span hkey
            obtain rfl := Option.some.inj hspec
            cases hkey
        · obtain ⟨⟨spec, diagnostics⟩, hoptions, rfl⟩ := map_eq_ok.mp h
          obtain ⟨hsuggested, hclaims⟩ :=
            ColumnSpec.ofOptions_suggested (fun a => mem_of_named?) hoptions
          refine ⟨hsuggested, ?_⟩
          intro spec' hspec
          obtain rfl := Option.some.inj hspec
          exact hclaims

theorem ColumnSpec.ofCase_suggested {c : Case} {resolved : Resolved}
    (h : ColumnSpec.ofCase c = .ok resolved) : Suggested c.Suggests resolved.2 := by
  unfold ColumnSpec.ofCase at h
  dsimp only at h
  split at h
  · cases h
    exact suggested_bare rfl
  · split at h
    · obtain ⟨span, -, h⟩ := bind_eq_ok.mp h
      cases h
      exact suggested_bare rfl
    · obtain ⟨found, hfound, h⟩ := bind_eq_ok.mp h
      cases h
      refine suggested_flatMap fun finding hmem => ?_
      obtain ⟨a, i, argument, ha, hi, hok⟩ := exists_of_mem_findings hfound hmem
      cases hok
      exact (caseFinding_suggested hi _).mono fun _ => .argument (mem_of_named? ha)

/-! ## Outlines and drafts -/

/-- A second claim to the key is taken out of the attribute that makes it. -/
theorem duplicateKey_suggested {field : Field} {role : Role} {first spec : ColumnSpec}
    (hclaimed : spec.key.isClaimed = true) (hclaims : spec.ClaimsBy field) :
    ∀ fix ∈ (duplicateKey role first spec).fixIts, field.Suggests fix := by
  intro fix hfix
  cases hkey : spec.key with
  | unclaimed | disclaimed =>
    rw [hkey] at hclaimed
    cases hclaimed
  | claimed i span =>
    obtain ⟨a, b, hattr, ha, hb, hsource⟩ := hclaims i span hkey
    have hfix : fix = removeArgument a i b := by
      simp only [duplicateKey, hkey, hattr, Option.toList_some, List.map_singleton,
        List.mem_singleton] at hfix
      rw [hfix, removeArgument, hsource]
      rfl
    rw [hfix]
    exact .argument ha (.argument hb)

theorem rejected_isClaimed {settings : Options} {specs : List ColumnSpec} {spec : ColumnSpec}
    (h : spec ∈ (selectKey settings specs).2) : spec ∈ specs ∧ spec.key.isClaimed = true := by
  unfold selectKey at h
  split at h
  · next first rejected heq =>
    have hmem : spec ∈ specs.filter (·.key.isClaimed) := heq ▸ List.mem_cons_of_mem _ h
    exact List.mem_filter.mp hmem
  · cases h

theorem RecordOutline.ofRecord_suggested {settings : Options} {r : Record}
    {outline : RecordOutline} (h : RecordOutline.ofRecord settings r = .ok outline) :
    Suggested r.Suggests outline.diagnostics := by
  unfold RecordOutline.ofRecord at h
  dsimp only at h
  obtain ⟨resolved, hresolved, h⟩ := bind_eq_ok.mp h
  cases h
  have hfield {pair : Resolved} (hmem : pair ∈ resolved) :
      ∃ f ∈ r.fields, ColumnSpec.ofField r.role f = .ok pair :=
    exists_left_of_mem (mapM_eq_ok.mp hresolved) hmem
  refine suggested_append.mpr ⟨suggested_append.mpr ⟨suggested_append.mpr ⟨?_, ?_⟩, ?_⟩, ?_⟩
  · exact suggested_map fun c _ fix hfix => nomatch hfix
  · exact TableOptions.withDefault_suggested settings r
  · refine suggested_flatMap fun pair hmem => ?_
    obtain ⟨f, hf, hok⟩ := hfield hmem
    exact (ColumnSpec.ofField_suggested hok).1.mono fun _ => .field hf
  · split
    · refine suggested_map fun spec hspec fix hfix => ?_
      split at hspec
      · cases hspec
      · obtain ⟨hmem, hclaimed⟩ := rejected_isClaimed hspec
        obtain ⟨pair, hpair, hsome⟩ := List.mem_filterMap.mp (List.mem_filter.mp hmem).1
        obtain ⟨f, hf, hok⟩ := hfield hpair
        exact .field hf (duplicateKey_suggested hclaimed
          ((ColumnSpec.ofField_suggested hok).2 spec hsome) fix hfix)
    · exact suggested_nil

theorem EnumOutline.ofRecord_suggested (settings : Options) (r : Record) :
    Suggested r.Suggests (EnumOutline.ofRecord settings r).diagnostics :=
  suggested_append.mpr ⟨suggested_map fun _ _ _ hfix => (nomatch hfix),
    TableOptions.withDefault_suggested settings r⟩

theorem EnumOutline.resolveCases_suggested {r : Record} {resolved : Resolved} :
    ∀ {seen : List String} {cases : List Case}, cases ⊆ r.cases →
      .ok resolved ∈ EnumOutline.resolveCases r seen cases → Suggested r.Suggests resolved.2
  | seen, c :: rest, hcases, h => by
    rw [EnumOutline.resolveCases] at h
    rcases List.mem_cons.mp h with h | h
    · split at h
      · cases h
        exact suggested_bare rfl
      · exact (ColumnSpec.ofCase_suggested h.symm).mono
          fun _ => .case (hcases List.mem_cons_self)
    · exact EnumOutline.resolveCases_suggested
        (fun c' hc' => hcases (List.mem_cons_of_mem _ hc')) h

/-- Each span of a name is that of the name of a field. -/
theorem exists_of_nameSpans {r : Record} {name : String} {span : Span}
    (h : (nameSpans r).get? name = some span) : ∃ f ∈ r.fields, f.nameSpan = some span := by
  have hmem := Dictionary.mem_of_mem_ofList (Dictionary.mem_of_get? h)
  obtain ⟨f, hf, hname⟩ := List.mem_filterMap.mp hmem
  obtain ⟨span', hspan, heq⟩ := Option.map_eq_some_iff.mp hname
  obtain ⟨-, rfl⟩ := Prod.mk.inj heq
  exact ⟨f, hf, hspan⟩

theorem Draft.ofEntry_suggested {r : Record} {specs : List ColumnSpec} {e : Entry} {d : Diagnostic}
    (h : Draft.ofEntry specs (nameSpans r) e = .error d) : ∀ fix ∈ d.fixIts, r.Suggests fix := by
  unfold Draft.ofEntry at h
  extract_lets field spec declared at h
  clear_value declared
  cases declared with
  | none =>
    cases h
    intro fix hfix
    obtain ⟨span, hspan, rfl⟩ := List.mem_map.mp hfix
    obtain ⟨f, hf, hname⟩ := exists_of_nameSpans (Option.mem_toList.mp hspan)
    exact .type hf hname
  | some type =>
    dsimp only at h
    split at h <;> cases h

theorem draftOf_suggested (r : Record) (outline : RecordOutline) (catalog : Catalog) :
    Suggested r.Suggests (draftOf r outline catalog).2 := by
  unfold draftOf
  split
  · unfold Draft.ofCatalog
    split
    · exact suggested_nil
    · dsimp only
      split
      · exact suggested_nil
      · intro d hd
        obtain ⟨result, hresult, hd⟩ := List.mem_filterMap.mp hd
        obtain ⟨e, -, rfl⟩ := List.mem_map.mp hresult
        split at hd
        · next he =>
          cases hd
          exact Draft.ofEntry_suggested he
        · cases hd
  · exact suggested_nil

/-! ## Catalogs and outcomes -/

section

variable {S : FixIt → Prop}

theorem RecordOutline.entries_suggested {primary : Option Nat}
    {numbered : List (ColumnSpec × Nat × Resolution)}
    (h : ∀ spec i d, (spec, i, .error d) ∈ numbered → d.fixIts = []) :
    ∀ {seen : Dictionary String String},
      Suggested S (RecordOutline.entries primary seen numbered).2 := by
  induction numbered with
  | nil => exact suggested_nil
  | cons first rest ih =>
    intro seen
    obtain ⟨spec, i, resolution⟩ := first
    obtain ⟨seen', front, own, heq, -, hown, -⟩ :=
      RecordOutline.entries_cons primary seen spec i resolution rest
    rw [heq]
    refine suggested_append.mpr ⟨fun d hd => ?_,
      ih fun spec i d hmem => h spec i d (List.mem_cons_of_mem _ hmem)⟩
    rcases hown d hd with rfl | ⟨name, owner, rfl⟩
    · exact suggested_bare (h spec i d List.mem_cons_self) d List.mem_cons_self
    · exact nofun

theorem EnumOutline.entries_suggested {pairs : List (Resolved × Resolution)}
    (hresolved : ∀ pair ∈ pairs, Suggested S pair.1.2)
    (h : ∀ resolved d, (resolved, .error d) ∈ pairs → d.fixIts = []) :
    ∀ {seen : Dictionary String String}, Suggested S (EnumOutline.entries seen pairs).2 := by
  induction pairs with
  | nil => exact suggested_nil
  | cons first rest ih =>
    intro seen
    obtain ⟨resolved, resolution⟩ := first
    obtain ⟨seen', front, own, heq, -, hown, -⟩ :=
      EnumOutline.entries_cons seen resolved resolution rest
    rw [heq]
    refine suggested_append.mpr ⟨suggested_append.mpr ⟨hresolved _ List.mem_cons_self,
      fun d hd => ?_⟩, ih (fun pair hmem => hresolved pair (List.mem_cons_of_mem _ hmem))
        fun resolved d hmem => h resolved d (List.mem_cons_of_mem _ hmem)⟩
    rcases hown d hd with rfl | ⟨spec, name, owner, -, rfl⟩
    · exact suggested_bare (h resolved d List.mem_cons_self) d List.mem_cons_self
    · exact nofun

end

/-- Each fix-it of an outcome is about the record. -/
theorem RecordOutcome.suggested {settings : Options} {F : ColumnSpec → Resolution → Prop}
    {C : Resolved → Resolution → Prop} {r : Record} {outcome : Option Derived × List Diagnostic}
    (hF : ∀ spec d, F spec (.error d) → d.fixIts = [])
    (hC : ∀ resolved d, C resolved (.error d) → d.fixIts = [])
    (h : RecordOutcome settings F C r outcome) : Suggested r.Suggests outcome.2 := by
  cases h with
  | unannotated => exact suggested_bare rfl
  | notStruct => exact suggested_bare rfl
  | @struct outline resolutions annotated kind outlined resolved =>
    have hcatalog : Suggested r.Suggests (outline.catalog r resolutions).2 := by
      refine suggested_append.mpr ⟨suggested_append.mpr
        ⟨RecordOutline.ofRecord_suggested outlined, RecordOutline.entries_suggested ?_⟩, ?_⟩
      · intro spec i d hmem
        obtain ⟨spec', -, hspec⟩ := exists_left_of_mem resolved
          (List.of_mem_zip (List.of_mem_zip hmem).2).2
        exact hF spec' d hspec
      · split
        · exact suggested_bare rfl
        · exact suggested_nil
    intro d hd
    rcases RecordOutline.mem_finish hd with hd | hd
    · exact hcatalog d hd
    · exact draftOf_suggested r outline _ d hd
  | @enum pairs annotated kind cases =>
    intro d hd
    have hcatalog : Suggested r.Suggests ((EnumOutline.ofRecord settings r).catalog r pairs).2 := by
      refine suggested_append.mpr ⟨suggested_append.mpr
        ⟨EnumOutline.ofRecord_suggested settings r, EnumOutline.entries_suggested ?_ ?_⟩, ?_⟩
      · intro pair hpair
        obtain ⟨case, hcase, rfl, -⟩ := exists_left_of_mem cases hpair
        exact EnumOutline.resolveCases_suggested (List.Subset.refl _) hcase
      · intro resolved d hmem
        obtain ⟨case, -, -, hcase⟩ := exists_left_of_mem cases hmem
        exact hC resolved d hcase
      · split
        · exact suggested_bare rfl
        · exact suggested_nil
    exact hcatalog d (EnumOutline.mem_finish hd)

/-! ## Derivations -/

open Deriving

variable {registry : Registry} {settings : Options}

section

variable {r : Record} {nested : Nested} {K : Cache → Prop}
  (hn : ∀ reference member, registry.record? reference = some member →
    Meets K True (fun _ => True) (nested member))

include hn

/-- The report of a group that does not resolve has no fix-its. -/
theorem resolveGroup_bare (spec : ColumnSpec) (name : String) :
    Meets K True (fun resolution => ∀ d, resolution = .error d → d.fixIts = [])
      (resolveGroup registry nested r spec name) := by
  unfold resolveGroup
  split
  · refine Meets.pure fun d h => ?_
    cases h
    rfl
  · next record hfound =>
    refine (hn _ record hfound).bind fun answer _ => ?_
    split
    · refine Meets.pure fun d h => ?_
      cases h
      rfl
    · split
      · refine Meets.pure fun d h => ?_
        cases h
      · refine Meets.pure fun d h => ?_
        cases h
        rfl

theorem resolveField_bare (spec : ColumnSpec) :
    Meets K True (fun resolution => ∀ d, resolution = .error d → d.fixIts = [])
      (resolveField registry nested r spec) := by
  unfold resolveField
  split
  · next d hname =>
    refine Meets.pure fun d' h => ?_
    cases h
    unfold RecordOutline.groupName at hname
    split at hname
    · split at hname <;> cases hname
      rfl
    · cases hname
  · refine Meets.pure fun d h => ?_
    cases h
  · refine (resolveGroup_bare hn spec _).bind fun resolution hbare => Meets.pure fun d h => ?_
    cases resolution with
    | error d' =>
      cases h
      exact hbare d rfl
    | ok g => cases h

theorem resolveCase_bare (case : Except RangeError Resolved) :
    Meets K True (fun pair => case = .ok pair.1 ∧ ∀ d, pair.2 = .error d → d.fixIts = [])
      (resolveCase registry nested r case) := by
  have hcase : Meets K True (fun resolved => case = .ok resolved)
      (MonadExcept.ofExcept case : Deriving Resolved) :=
    Meets.iff_takes.mpr (Takes.ofExcept (fun _ h _ hc => ⟨hc, h⟩) fun _ _ _ hc => ⟨hc, trivial⟩)
  unfold resolveCase
  refine hcase.bind fun resolved hresolved => ?_
  dsimp only
  split
  · exact Meets.pure ⟨hresolved, fun d h => nomatch h⟩
  · refine (resolveGroup_bare hn _ _).bind fun resolution hbare => ?_
    split
    · next d => exact Meets.pure ⟨hresolved, fun d' h => hbare d' (congrArg _ (Except.error.inj h))⟩
    · next members =>
      have hnote : Meets K True (fun _ => True) (note members.asGroup.planEvents) :=
        Meets.iff_takes.mpr ((Takes.noting _).mono (fun _ hc => hc) (fun _ _ hc => ⟨hc, trivial⟩)
          fun _ hc => hc)
      exact hnote.bind fun _ _ => Meets.pure ⟨hresolved, fun d h => nomatch h⟩

/-- Each fix-it of a derivation is about the record. -/
theorem deriveNew_suggested :
    Meets K True (fun d => Suggested r.Suggests d.diagnostics)
      (deriveNew registry settings nested r) := by
  refine Meets.iff_takes.mpr ((deriveNew_takes (I := K)
    (F := fun _ _ resolution => ∀ d, resolution = .error d → d.fixIts = [])
    (C := fun _ _ resolution => ∀ d, resolution = .error d → d.fixIts = [])
    ?_ ?_ ?_ ?_ ?_).mono (fun _ hc => hc) ?_ fun _ hc => hc)
  · exact fun _ _ _ _ _ h => h
  · exact fun _ _ _ _ _ h => h
  · exact fun _ _ _ _ c hc => ⟨hc, trivial⟩
  · exact fun outline _ _ _ spec _ => Meets.iff_takes.mp (resolveField_bare hn spec)
  · exact fun _ _ case _ => Meets.iff_takes.mp (resolveCase_bare hn case)
  · rintro c d ⟨hc, outcome, houtcome, rfl⟩
    refine ⟨hc, ?_⟩
    have hall := houtcome.suggested (fun _ d h => h d rfl) fun _ d h => h d rfl
    intro report hreport fix hfix
    obtain ⟨report, hmem, rfl⟩ := List.mem_map.mp hreport
    exact hall report hmem fix hfix

end

/-- What is kept under a key has fix-its about the record of the key. -/
def About (registry : Registry) (k : Key) (d : Derivation Derived) : Prop :=
  ∀ r, registry.records.get? k = some r → Suggested r.Suggests d.diagnostics

theorem deriveWithin_suggested (hkeyed : registry.Keyed) : ∀ (depth : Nat) (closed : List Key)
    (r : Record), registry.records.get? r.key = some r →
    Meets (Known (About registry)) True (About registry r.key)
      (deriveWithin registry settings depth closed r)
  | 0, closed, r, hr => by
    rw [deriveWithin]
    refine deriveCached_meets ((deriveNew_suggested fun _ _ _ => Meets.pure trivial).mono id ?_)
    intro d hd r' hr'
    rw [hr] at hr'
    cases hr'
    exact hd
  | depth + 1, closed, r, hr => by
    rw [deriveWithin]
    refine deriveCached_meets ((deriveNew_suggested fun reference member hmember => ?_).mono id ?_)
    · split
      · exact Meets.pure trivial
      · exact (deriveWithin_suggested hkeyed depth _ member
          (hkeyed.get?_of_record? hmember)).bind fun d _ => Meets.pure trivial
    · intro d hd r' hr'
      rw [hr] at hr'
      cases hr'
      exact hd

namespace Schema

variable {s t u : Schema} {r : Record} {reference : Reference}

/-- The derivation of one more record. -/
theorem deriveRecord_suggested (hkeyed : t.registry.Keyed)
    (hknown : Known (About t.registry) t.progress.cache)
    (hr : t.registry.records.get? r.key = some r) :
    Known (About t.registry) (t.deriveRecord r).2.progress.cache ∧
      ∀ d, (t.deriveRecord r).1 = .ok d → Suggested r.Suggests d.diagnostics := by
  have hmeets : Meets (Known (About t.registry)) True (About t.registry r.key)
      (deriveWithin t.registry t.settings t.registry.records.length [] r) :=
    deriveWithin_suggested hkeyed _ _ r hr
  obtain ⟨hkeep, hok, -⟩ := hmeets t.progress hknown
  exact ⟨hkeep, fun d hd => hok d hd r hr⟩

/-- What has been derived wherever derivations lead has fix-its about the records. -/
theorem Explored.known_about (h : s.Explored t) (hs : s.Filled) :
    t.registry.Keyed ∧ Known (About t.registry) t.progress.cache := by
  refine h.keeps (P := fun t => t.registry.Keyed ∧ Known (About t.registry) t.progress.cache)
    ?_ (fun _ hu => hu.1) ⟨hs.keyed, ?_⟩
  · exact fun t r ht hr => ⟨ht.1, (deriveRecord_suggested ht.1 ht.2 hr).1⟩
  · rw [hs.cache_eq]
    intro k d hk
    cases hk

/-- Each fix-it of the derivation of a record is about the record. -/
theorem Explored.suggested (h : s.Explored t) (hs : s.Filled)
    (hr : t.registry.record? reference = some r) {d : Derivation Derived}
    (hd : t.derive? reference = some (.ok d, u)) : Suggested r.Suggests d.diagnostics := by
  obtain ⟨hkeyed, hknown⟩ := h.known_about hs
  obtain ⟨-, hok⟩ := deriveRecord_suggested hkeyed hknown (hkeyed.get?_of_record? hr)
  rw [derive?, hr, Option.map_some, Option.some.injEq] at hd
  exact hok d (congrArg Prod.fst hd)

end Schema

end RowSchema
