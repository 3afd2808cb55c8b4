import RowSchema.Proofs.Schema.Bounds

/-! # Reports of recursive groups

Of all diagnostics of a derivation only those of its column groups say that a group is recursive. -/

namespace RowSchema

/-- Whether the message says that a column group is recursive. -/
def Diagnostic.isRecursive (d : Diagnostic) : Bool :=
  "Recursive column group".toList.isPrefixOf d.message.toList

/-- None of the diagnostics says that a column group is recursive. -/
def Diagnostic.Plain (diagnostics : List Diagnostic) : Prop :=
  ∀ d ∈ diagnostics, d.isRecursive = false

open Diagnostic

@[simp] theorem plain_nil : Plain [] := by
  intro d h
  cases h

@[simp] theorem plain_append {ds es : List Diagnostic} :
    Plain (ds ++ es) ↔ Plain ds ∧ Plain es := by
  simp only [Plain, List.forall_mem_append]

@[simp] theorem plain_cons {d : Diagnostic} {ds : List Diagnostic} :
    Plain (d :: ds) ↔ d.isRecursive = false ∧ Plain ds := by
  simp only [Plain, List.forall_mem_cons]

theorem plain_map {α : Type} {f : α → Diagnostic} (h : ∀ a, (f a).isRecursive = false)
    (l : List α) : Plain (l.map f) := by
  intro d hd
  obtain ⟨a, -, rfl⟩ := List.mem_map.mp hd
  exact h a

theorem plain_flatMap {α : Type} {f : α → List Diagnostic} {l : List α}
    (h : ∀ a ∈ l, Plain (f a)) : Plain (l.flatMap f) := by
  intro d hd
  obtain ⟨a, ha, hd⟩ := List.mem_flatMap.mp hd
  exact h a ha d hd

/-- A message is told from one about recursion by its first letter. -/
theorem isRecursive_of_head {d : Diagnostic} (h : d.message.toList.head? ≠ some 'R') :
    d.isRecursive = false := by
  rw [isRecursive]
  cases hm : d.message.toList with
  | nil => rfl
  | cons c rest =>
    rw [hm] at h
    have hc : ('R' == c) = false := by
      rw [beq_eq_false_iff_ne]
      intro hc
      exact h (by rw [hc]; rfl)
    simp [List.isPrefixOf, hc]

@[simp] theorem isRecursive_within (typeName : Option String) (d : Diagnostic) :
    (d.within typeName).isRecursive = d.isRecursive := rfl

theorem recursive_isRecursive (owner : Record) (spec : ColumnSpec) (name : String) :
    (recursive owner spec name).isRecursive = true := by
  simp [recursive, groupFault, isRecursive, List.isPrefixOf]

/-! ## Table options -/

theorem nonEmptyString_plain {argument : Argument} {field : Option String} {d : Diagnostic}
    (h : nonEmptyString argument field = .error d) : d.isRecursive = false := by
  have hd : d = unfit argument field "Argument must be a non-empty string literal" := by
    unfold nonEmptyString at h
    split at h
    · split at h <;> cases h
      rfl
    · cases h
      rfl
  rw [hd]
  exact isRecursive_of_head (by simp [unfit])

theorem TableOptions.ofArguments_plain (attr : Attribute) : ∀ (options : TableOptions)
    (arguments : List (Argument × Nat)),
    Plain (TableOptions.ofArguments attr options arguments).2
  | options, [] => by
    rw [TableOptions.ofArguments]
    exact plain_nil
  | options, (argument, i) :: rest => by
    rw [TableOptions.ofArguments]
    dsimp only
    refine plain_append.mpr ⟨?_, TableOptions.ofArguments_plain attr _ rest⟩
    split
    · split
      · exact plain_nil
      · rename_i h
        exact plain_cons.mpr ⟨nonEmptyString_plain h, plain_nil⟩
    · split
      · exact plain_nil
      · rename_i h
        exact plain_cons.mpr ⟨nonEmptyString_plain h, plain_nil⟩
    · exact plain_cons.mpr ⟨isRecursive_of_head (by simp [misplaced]), plain_nil⟩

theorem TableOptions.withDefault_plain (settings : Options) (r : Record) :
    Plain (TableOptions.withDefault settings r).2 := by
  have hrecord : Plain (TableOptions.ofRecord r).2 := by
    unfold TableOptions.ofRecord
    split
    · exact TableOptions.ofArguments_plain _ _ _
    · split
      · exact plain_map (fun _ => isRecursive_of_head (by simp [misplaced])) _
      · exact plain_nil
  unfold TableOptions.withDefault
  dsimp only
  split <;> exact hrecord

/-! ## Column specifications -/

/-- What an argument settles is not about recursion. -/
def Finding.Plain (finding : Finding) : Prop := Diagnostic.Plain finding.diagnostics

theorem unsupported_plain (attr : Attribute) (i : Nat) (argument : Argument)
    (field label : String) : (unsupported attr i argument field label).Plain := by
  refine plain_cons.mpr ⟨isRecursive_of_head ?_, plain_nil⟩
  simp [misplaced]

theorem nameFinding_plain (argument : Argument) (field : String) :
    (nameFinding argument field).Plain := by
  unfold nameFinding
  split
  · exact plain_nil
  · rename_i h
    exact plain_cons.mpr ⟨nonEmptyString_plain h, plain_nil⟩

theorem representationFinding_plain (argument : Argument) (field : String) :
    (representationFinding argument field).Plain := by
  unfold representationFinding
  split
  · exact plain_nil
  · exact plain_cons.mpr ⟨isRecursive_of_head (by simp [unfit]), plain_nil⟩

theorem keyFinding_plain (field : String) (attr : Attribute) (i : Nat) (argument : Argument) :
    (keyFinding field attr i argument).Plain := by
  unfold keyFinding
  split
  · exact plain_nil
  · unfold Finding.Plain
    dsimp only
    split
    · exact plain_nil
    · exact plain_cons.mpr ⟨isRecursive_of_head (by simp [misplaced]), plain_nil⟩
  · exact plain_cons.mpr ⟨isRecursive_of_head (by simp [unfit]), plain_nil⟩

theorem generatedFinding_plain {field : Field} {argument : Argument} {finding : Finding}
    (h : generatedFinding field argument = .ok finding) : finding.Plain := by
  unfold generatedFinding at h
  split at h
  · cases h
    exact plain_cons.mpr ⟨isRecursive_of_head (by simp [unfit]), plain_nil⟩
  · split at h
    · obtain ⟨span, -, h⟩ := bind_eq_ok.mp h
      cases h
      exact plain_cons.mpr ⟨isRecursive_of_head (by simp), plain_nil⟩
    · cases h
      exact plain_nil

theorem fieldFinding_plain {role : Role} {field : Field} {attr : Attribute} {i : Nat}
    {argument : Argument} {finding : Finding}
    (h : fieldFinding role field attr i argument = .ok finding) : finding.Plain := by
  unfold fieldFinding at h
  dsimp only at h
  have hselection : ∀ message, (Finding.refuses (misplaced attr i argument (some field.name)
      ("'@Selection' " ++ message ++ " are not supported"))).Plain := by
    intro message
    exact plain_cons.mpr ⟨isRecursive_of_head (by simp [misplaced]), plain_nil⟩
  split at h
  · split at h <;> cases h
    · exact hselection _
    · exact nameFinding_plain _ _
  · cases h
    exact representationFinding_plain _ _
  · split at h <;> cases h
    · exact hselection _
    · exact keyFinding_plain _ _ _ _
  · split at h
    · cases h
      exact hselection _
    · exact generatedFinding_plain h
  · cases h
    exact unsupported_plain _ _ _ _ _

theorem caseFinding_plain (name : String) (attr : Attribute) (i : Nat) (argument : Argument) :
    (caseFinding name attr i argument).Plain := by
  unfold caseFinding
  split
  · exact nameFinding_plain _ _
  · exact representationFinding_plain _ _
  · split
    · exact plain_cons.mpr ⟨isRecursive_of_head (by simp [misplaced]), plain_nil⟩
    · exact unsupported_plain _ _ _ _ _

theorem findings_plain {attr : Option Attribute}
    {find : Attribute → Nat → Argument → Except RangeError Finding} {found : List Finding}
    (hfind : ∀ attr i argument finding, find attr i argument = .ok finding → finding.Plain)
    (h : findings attr find = .ok found) : Plain (found.flatMap (·.diagnostics)) := by
  refine plain_flatMap fun finding hmem => ?_
  unfold findings at h
  split at h
  · obtain ⟨argument, -, hok⟩ := exists_left_of_mem (mapM_eq_ok.mp h) hmem
    exact hfind _ _ _ _ hok
  · cases h
    cases hmem

/-- What a field's own declaration is reported for. -/
theorem ColumnSpec.ofField_plain {role : Role} {field : Field} {resolved : Resolved}
    (h : ColumnSpec.ofField role field = .ok resolved) : Plain resolved.2 := by
  unfold ColumnSpec.ofField at h
  split at h
  · cases h
    exact plain_nil
  · split at h
    · rename_i fault hfault
      cases h
      refine plain_cons.mpr ⟨isRecursive_of_head ?_, plain_nil⟩
      unfold ColumnSpec.structuralFault? at hfault
      dsimp only at hfault
      split at hfault
      · cases hfault
        simp
      · split at hfault <;> cases hfault
        simp
    · dsimp only at h
      split at h
      · cases h
        exact plain_nil
      · split at h
        · cases h
          refine plain_append.mpr ⟨?_, ?_⟩
          · exact plain_map (fun _ => isRecursive_of_head (by simp [misplaced])) _
          · exact plain_map (fun _ => isRecursive_of_head (by simp)) _
        · obtain ⟨⟨spec, diagnostics⟩, hoptions, rfl⟩ := map_eq_ok.mp h
          obtain ⟨found, hfound, hoptions⟩ := bind_eq_ok.mp hoptions
          cases hoptions
          exact findings_plain (fun _ _ _ _ => fieldFinding_plain) hfound

/-- What a case's own declaration is reported for. -/
theorem ColumnSpec.ofCase_plain {c : Case} {resolved : Resolved}
    (h : ColumnSpec.ofCase c = .ok resolved) : Plain resolved.2 := by
  unfold ColumnSpec.ofCase at h
  dsimp only at h
  split at h
  · cases h
    exact plain_cons.mpr ⟨isRecursive_of_head (by simp), plain_nil⟩
  · split at h
    · obtain ⟨span, -, h⟩ := bind_eq_ok.mp h
      cases h
      exact plain_cons.mpr ⟨isRecursive_of_head (by simp), plain_nil⟩
    · obtain ⟨found, hfound, h⟩ := bind_eq_ok.mp h
      cases h
      refine findings_plain ?_ hfound
      intro attr i argument finding h
      cases h
      exact caseFinding_plain _ _ _ _

/-! ## Outlines and drafts -/

theorem nameTaken_plain (spec : ColumnSpec) (name owner : String) :
    (nameTaken spec name owner).isRecursive = false :=
  isRecursive_of_head (by simp [nameTaken])

theorem RecordOutline.ofRecord_plain {settings : Options} {r : Record} {outline : RecordOutline}
    (h : RecordOutline.ofRecord settings r = .ok outline) : Plain outline.diagnostics := by
  unfold RecordOutline.ofRecord at h
  dsimp only at h
  obtain ⟨resolved, hresolved, h⟩ := bind_eq_ok.mp h
  cases h
  refine plain_append.mpr ⟨plain_append.mpr ⟨plain_append.mpr ⟨?_, ?_⟩, ?_⟩, ?_⟩
  · exact plain_map (fun _ => isRecursive_of_head (by simp [strayCase])) _
  · exact TableOptions.withDefault_plain settings r
  · refine plain_flatMap fun pair hmem => ?_
    obtain ⟨field, -, hok⟩ := exists_left_of_mem (mapM_eq_ok.mp hresolved) hmem
    exact ColumnSpec.ofField_plain hok
  · split
    · exact plain_map (fun _ => isRecursive_of_head (by simp [duplicateKey])) _
    · exact plain_nil

theorem EnumOutline.ofRecord_plain (settings : Options) (r : Record) :
    Plain (EnumOutline.ofRecord settings r).diagnostics := by
  refine plain_append.mpr ⟨?_, TableOptions.withDefault_plain settings r⟩
  exact plain_map (fun _ => isRecursive_of_head (by simp [strayField])) _

theorem EnumOutline.resolveCases_plain {r : Record} {resolved : Resolved} :
    ∀ {seen : List String} {cases : List Case},
    .ok resolved ∈ EnumOutline.resolveCases r seen cases → Plain resolved.2
  | seen, c :: rest, h => by
    rw [EnumOutline.resolveCases] at h
    rcases List.mem_cons.mp h with h | h
    · split at h
      · cases h
        exact plain_cons.mpr ⟨isRecursive_of_head (by simp [repeatedCase]), plain_nil⟩
      · exact ColumnSpec.ofCase_plain h.symm
    · exact EnumOutline.resolveCases_plain h

theorem Draft.ofEntry_plain {specs : List ColumnSpec} {spans : Dictionary String Span} {e : Entry}
    {d : Diagnostic} (h : Draft.ofEntry specs spans e = .error d) : d.isRecursive = false := by
  unfold Draft.ofEntry at h
  extract_lets field spec declared at h
  clear_value declared
  cases declared with
  | none =>
    cases h
    exact isRecursive_of_head (by simp [Draft.missingType])
  | some type =>
    dsimp only at h
    split at h <;> cases h

theorem draftOf_plain (r : Record) (outline : RecordOutline) (catalog : Catalog) :
    Plain (draftOf r outline catalog).2 := by
  unfold draftOf
  split
  · unfold Draft.ofCatalog
    split
    · exact plain_nil
    · dsimp only
      split
      · exact plain_nil
      · intro d hd
        obtain ⟨result, hresult, hd⟩ := List.mem_filterMap.mp hd
        obtain ⟨e, -, rfl⟩ := List.mem_map.mp hresult
        split at hd
        · rename_i d' he
          cases hd
          exact Draft.ofEntry_plain he
        · cases hd
  · exact plain_nil

/-! ## Catalogs and outcomes -/

/-- A report of a recursive group in a record's entries is that of one of its groups. -/
theorem RecordOutline.entries_recursive {primary : Option Nat} {d : Diagnostic}
    (hd : d.isRecursive = true) {numbered : List (ColumnSpec × Nat × Resolution)} :
    ∀ {seen : Dictionary String String}, d ∈ (RecordOutline.entries primary seen numbered).2 →
    ∃ spec i, (spec, i, .error d) ∈ numbered := by
  induction numbered with
  | nil =>
    intro seen h
    cases h
  | cons first rest ih =>
    intro seen h
    obtain ⟨spec, i, resolution⟩ := first
    obtain ⟨seen', front, own, heq, -, hown, -⟩ :=
      RecordOutline.entries_cons primary seen spec i resolution rest
    rw [heq] at h
    rcases List.mem_append.mp h with h | h
    · rcases hown d h with rfl | ⟨name, owner, rfl⟩
      · exact ⟨spec, i, List.mem_cons_self⟩
      · rw [nameTaken_plain] at hd
        cases hd
    · obtain ⟨spec', i', hmem⟩ := ih h
      exact ⟨spec', i', List.mem_cons_of_mem _ hmem⟩

/-- A report of a recursive group in an enum's entries is that of one of its groups, unless it was
there before. -/
theorem EnumOutline.entries_recursive {d : Diagnostic} (hd : d.isRecursive = true)
    {pairs : List (Resolved × Resolution)} (hplain : ∀ pair ∈ pairs, Plain pair.1.2) :
    ∀ {seen : Dictionary String String}, d ∈ (EnumOutline.entries seen pairs).2 →
    ∃ resolved, (resolved, .error d) ∈ pairs := by
  induction pairs with
  | nil =>
    intro seen h
    cases h
  | cons first rest ih =>
    intro seen h
    obtain ⟨resolved, resolution⟩ := first
    obtain ⟨seen', front, own, heq, -, hown, -⟩ :=
      EnumOutline.entries_cons seen resolved resolution rest
    rw [heq] at h
    rcases List.mem_append.mp h with h | h
    · rcases List.mem_append.mp h with h | h
      · rw [hplain _ List.mem_cons_self d h] at hd
        cases hd
      · rcases hown d h with rfl | ⟨spec, name, owner, -, rfl⟩
        · exact ⟨resolved, List.mem_cons_self⟩
        · rw [nameTaken_plain] at hd
          cases hd
    · obtain ⟨resolved', hmem⟩ :=
        ih (fun pair hpair => hplain pair (List.mem_cons_of_mem _ hpair)) h
      exact ⟨resolved', List.mem_cons_of_mem _ hmem⟩

theorem RecordOutline.catalog_recursive {outline : RecordOutline} {r : Record}
    {resolutions : List Resolution} {F : ColumnSpec → Resolution → Prop} {d : Diagnostic}
    (hd : d.isRecursive = true) (hplain : Plain outline.diagnostics)
    (resolved : List.Forall₂ F outline.specs resolutions)
    (h : d ∈ (outline.catalog r resolutions).2) : ∃ spec, F spec (.error d) := by
  rcases List.mem_append.mp h with h | h
  · rcases List.mem_append.mp h with h | h
    · rw [hplain d h] at hd
      cases hd
    · obtain ⟨spec, i, herror⟩ := RecordOutline.entries_recursive hd h
      obtain ⟨k, hk, hget⟩ := List.mem_iff_getElem.mp herror
      simp only [List.getElem_zip, List.getElem_range, Prod.mk.injEq] at hget
      obtain ⟨rfl, rfl, hget⟩ := hget
      simp only [List.length_zip, List.length_range] at hk
      refine ⟨outline.specs[k], ?_⟩
      rw [← hget]
      exact resolved.get (by omega) (by omega)
  · split at h
    · rw [List.mem_singleton.mp h, isRecursive_of_head (by simp)] at hd
      cases hd
    · cases h

theorem EnumOutline.catalog_recursive {outline : EnumOutline} {r : Record}
    {pairs : List (Resolved × Resolution)} {d : Diagnostic} (hd : d.isRecursive = true)
    (hplain : Plain outline.diagnostics) (hpairs : ∀ pair ∈ pairs, Plain pair.1.2)
    (h : d ∈ (outline.catalog r pairs).2) : ∃ resolved, (resolved, .error d) ∈ pairs := by
  rcases List.mem_append.mp h with h | h
  · rcases List.mem_append.mp h with h | h
    · rw [hplain d h] at hd
      cases hd
    · exact EnumOutline.entries_recursive hd hpairs h
  · split at h
    · rw [List.mem_singleton.mp h, isRecursive_of_head (by simp)] at hd
      cases hd
    · cases h

/-- The diagnostics of a struct are those of its catalog and those of its draft. -/
theorem RecordOutline.mem_finish {outline : RecordOutline} {settings : Options} {r : Record}
    {resolutions : List Resolution} {d : Diagnostic}
    (h : d ∈ (outline.finish settings r resolutions).2) :
    d ∈ (outline.catalog r resolutions).2 ∨
      d ∈ (draftOf r outline (outline.catalog r resolutions).1).2 := by
  unfold RecordOutline.finish at h
  dsimp only at h
  split at h
  · exact .inl h
  · exact List.mem_append.mp h

theorem EnumOutline.mem_finish {outline : EnumOutline} {settings : Options} {r : Record}
    {pairs : List (Resolved × Resolution)} {d : Diagnostic}
    (h : d ∈ (outline.finish settings r pairs).2) : d ∈ (outline.catalog r pairs).2 := by
  unfold EnumOutline.finish at h
  dsimp only at h
  split at h <;> exact h

/-- A report of a recursive group in the derivation of a record is that of one of its groups. -/
theorem RecordOutcome.recursive {settings : Options} {F : ColumnSpec → Resolution → Prop}
    {C : Resolved → Resolution → Prop} {r : Record} {outcome : Option Derived × List Diagnostic}
    {d : Diagnostic} (h : RecordOutcome settings F C r outcome)
    (hmem : d ∈ (derivationOf r outcome).diagnostics) (hd : d.isRecursive = true) :
    ∃ d', d'.isRecursive = true ∧
      ((∃ spec, F spec (.error d')) ∨ ∃ resolved, C resolved (.error d')) := by
  obtain ⟨d, hreport, rfl⟩ := List.mem_map.mp hmem
  rw [isRecursive_within] at hd
  have hplain : ∀ {ds : List Diagnostic}, Plain ds → d ∉ ds := by
    intro ds hds hmem
    rw [hds d hmem] at hd
    cases hd
  refine ⟨d, hd, ?_⟩
  cases h with
  | unannotated =>
    refine absurd hreport (hplain (plain_cons.mpr ⟨isRecursive_of_head ?_, plain_nil⟩))
    simp [RowSchema.unannotated]
  | notStruct =>
    refine absurd hreport (hplain (plain_cons.mpr ⟨isRecursive_of_head ?_, plain_nil⟩))
    simp [RecordOutline.notStruct]
  | struct annotated kind outlined resolved =>
    left
    rcases RecordOutline.mem_finish hreport with h | h
    · exact RecordOutline.catalog_recursive hd (RecordOutline.ofRecord_plain outlined) resolved h
    · exact absurd h (hplain (draftOf_plain _ _ _))
  | @enum pairs annotated kind cases =>
    right
    have hpairs : ∀ pair ∈ pairs, Plain pair.1.2 := by
      intro pair hpair
      obtain ⟨case, hcase, rfl, -⟩ := exists_left_of_mem cases hpair
      exact EnumOutline.resolveCases_plain hcase
    obtain ⟨resolved, hpair⟩ := EnumOutline.catalog_recursive hd
      (EnumOutline.ofRecord_plain settings r) hpairs (EnumOutline.mem_finish hreport)
    obtain ⟨case, -, -, hcase⟩ := exists_left_of_mem cases hpair
    exact ⟨resolved, hcase⟩

end RowSchema
