import Mathlib.Data.Set.List
import RowSchema.Proofs.Basic
import RowSchema.Proofs.Schema.Composition

/-! # Derivations between bounds

If the answers for the groups of a record lie between `H` and `G`, its derivation gives no result
but one that the record composes from `G`, and gives every result that it composes from `H`. -/

namespace RowSchema

/-- What resolves lies in `U`, everything in `L` is what resolves, and every error is fatal. -/
structure Bounds {α : Type} (L U : α → Prop) (resolution : Except Diagnostic α) : Prop where
  sound : ∀ a, resolution = .ok a → U a
  complete : ∀ a, L a → resolution = .ok a
  fatal : ∀ d, resolution = .error d → d.isFatal = true

variable {registry : Registry} {settings : Options} {r : Record} {G H : Record → Derived → Prop}

/-! ## Results of clean outcomes -/

theorem Diagnostic.hasErrors_within (typeName : Option String) (diagnostics : List Diagnostic) :
    Diagnostic.hasErrors (diagnostics.map (Diagnostic.within typeName)) =
      Diagnostic.hasErrors diagnostics := by
  simp only [Diagnostic.hasErrors, List.any_map]
  rfl

theorem Diagnostic.hasErrors_append (ds es : List Diagnostic) :
    Diagnostic.hasErrors (ds ++ es) = (Diagnostic.hasErrors ds || Diagnostic.hasErrors es) :=
  List.any_append

theorem Diagnostic.not_mem_of_clean {diagnostics : List Diagnostic} {d : Diagnostic}
    (hclean : Diagnostic.hasErrors diagnostics = false) (hd : d.isFatal = true) :
    d ∉ diagnostics := by
  intro h
  have := List.any_eq_false.mp hclean d h
  exact this hd

theorem derivationOf_result {outcome : Option Derived × List Diagnostic} {x : Derived} :
    (derivationOf r outcome).result = some x ↔
      outcome.1 = some x ∧ Diagnostic.hasErrors outcome.2 = false := by
  simp only [derivationOf, Derivation.ofDiagnostics, Diagnostic.hasErrors_within]
  cases Diagnostic.hasErrors outcome.2 <;> simp

theorem RecordOutline.finish_result {outline : RecordOutline} {resolutions : List Resolution}
    {x : Derived} :
    (derivationOf r (outline.finish settings r resolutions)).result = some x ↔
      ∃ catalog diagnostics draft draftDiagnostics,
        outline.catalog r resolutions = (catalog, diagnostics) ∧
        Diagnostic.hasErrors diagnostics = false ∧
        draftOf r outline catalog = (draft, draftDiagnostics) ∧
        Diagnostic.hasErrors draftDiagnostics = false ∧
        x = { record := r, catalog := .record catalog, draft, policy := settings.policy } := by
  rw [derivationOf_result, RecordOutline.finish]
  rcases hcat : outline.catalog r resolutions with ⟨catalog, diagnostics⟩
  rcases hdraft : draftOf r outline catalog with ⟨draft, draftDiagnostics⟩
  cases hclean : Diagnostic.hasErrors diagnostics with
  | true =>
    simp only [hclean, if_true]
    constructor
    · rintro ⟨h, -⟩
      cases h
    · rintro ⟨_, _, _, _, h, hfalse, -⟩
      cases h
      rw [hclean] at hfalse
      cases hfalse
  | false =>
    simp only [hclean, hdraft, Bool.false_eq_true, if_false, Diagnostic.hasErrors_append,
      Bool.false_or]
    constructor
    · rintro ⟨h, hdclean⟩
      exact ⟨_, _, _, _, rfl, hclean, hdraft, hdclean, (Option.some.inj h).symm⟩
    · rintro ⟨_, _, _, _, h, -, h', hdclean, rfl⟩
      cases h
      rw [hdraft] at h'
      cases h'
      exact ⟨rfl, hdclean⟩

theorem EnumOutline.finish_result {outline : EnumOutline} {resolved : List (Resolved × Resolution)}
    {x : Derived} :
    (derivationOf r (outline.finish settings r resolved)).result = some x ↔
      ∃ catalog diagnostics, outline.catalog r resolved = (catalog, diagnostics) ∧
        Diagnostic.hasErrors diagnostics = false ∧
        x = { record := r, catalog := .enum catalog, policy := settings.policy } := by
  rw [derivationOf_result, EnumOutline.finish]
  rcases hcat : outline.catalog r resolved with ⟨catalog, diagnostics⟩
  cases hclean : Diagnostic.hasErrors diagnostics with
  | true =>
    simp only [hclean, if_true]
    constructor
    · rintro ⟨h, -⟩
      cases h
    · rintro ⟨_, _, h, hfalse, -⟩
      cases h
      rw [hclean] at hfalse
      cases hfalse
  | false =>
    simp only [hclean, Bool.false_eq_true, if_false]
    constructor
    · rintro ⟨h, -⟩
      exact ⟨_, _, rfl, hclean, (Option.some.inj h).symm⟩
    · rintro ⟨_, _, h, -, rfl⟩
      cases h
      exact ⟨rfl, trivial⟩

/-! ## Errors of the groups -/

theorem RecordOutline.mem_entries_of_error {primary : Option Nat} {spec : ColumnSpec} {i : Nat}
    {d : Diagnostic} {numbered : List (ColumnSpec × Nat × Resolution)} :
    ∀ {seen : Dictionary String String}, (spec, i, .error d) ∈ numbered →
    d ∈ (RecordOutline.entries primary seen numbered).2 := by
  induction numbered with
  | nil =>
    intro seen h
    cases h
  | cons first rest ih =>
    intro seen h
    obtain ⟨spec', i', resolution⟩ := first
    obtain ⟨seen', front, own, heq, hown, -, -⟩ :=
      RecordOutline.entries_cons primary seen spec' i' resolution rest
    rw [heq]
    rcases List.mem_cons.mp h with h | h
    · cases h
      exact List.mem_append_left _ (hown d rfl)
    · exact List.mem_append_right _ (ih h)

/-- The error of a field's group is an error of the record. -/
theorem RecordOutline.mem_catalog_of_error {outline : RecordOutline} {d : Diagnostic}
    {resolutions : List Resolution} (hlength : outline.specs.length = resolutions.length)
    (h : .error d ∈ resolutions) : d ∈ (outline.catalog r resolutions).2 := by
  obtain ⟨i, hi, hd⟩ := List.mem_iff_getElem.mp h
  refine List.mem_append_left _ (List.mem_append_right _ ?_)
  refine RecordOutline.mem_entries_of_error (?_ : (outline.specs[i], i, Except.error d) ∈ _)
  refine List.mem_iff_getElem.mpr ⟨i, ?_, ?_⟩
  · simp only [List.length_zip, List.length_range]
    omega
  · simp [hd]

theorem EnumOutline.mem_entries_of_error {spec : ColumnSpec} {before : List Diagnostic}
    {d : Diagnostic} {pairs : List (Resolved × Resolution)} :
    ∀ {seen : Dictionary String String}, ((some spec, before), .error d) ∈ pairs →
    d ∈ (EnumOutline.entries seen pairs).2 := by
  induction pairs with
  | nil =>
    intro seen h
    cases h
  | cons first rest ih =>
    intro seen h
    obtain ⟨resolved, resolution⟩ := first
    obtain ⟨seen', front, own, heq, hown, -, -⟩ :=
      EnumOutline.entries_cons seen resolved resolution rest
    rw [heq]
    rcases List.mem_cons.mp h with h | h
    · cases h
      exact List.mem_append_left _ (List.mem_append_right _ (hown spec d rfl rfl))
    · exact List.mem_append_right _ (ih h)

/-- What a case's own declaration is reported for is an error of the enum. -/
theorem EnumOutline.mem_entries_of_before {pair : Resolved × Resolution} {d : Diagnostic}
    (hd : d ∈ pair.1.2) {pairs : List (Resolved × Resolution)} :
    ∀ {seen : Dictionary String String}, pair ∈ pairs →
    d ∈ (EnumOutline.entries seen pairs).2 := by
  induction pairs with
  | nil =>
    intro seen h
    cases h
  | cons first rest ih =>
    intro seen h
    obtain ⟨resolved, resolution⟩ := first
    obtain ⟨seen', front, own, heq, -, -, -⟩ :=
      EnumOutline.entries_cons seen resolved resolution rest
    rw [heq]
    rcases List.mem_cons.mp h with rfl | h
    · exact List.mem_append_left _ (List.mem_append_left _ hd)
    · exact List.mem_append_right _ (ih h)

/-- The error of a case's group is an error of the enum. A case without a group has none. -/
theorem EnumOutline.mem_catalog_of_error {outline : EnumOutline} {resolved : Resolved}
    {d : Diagnostic} {pairs : List (Resolved × Resolution)} {U : Option Group → Prop}
    (hbounds : Bounds (CaseResolves registry H r resolved) U (.error d))
    (h : (resolved, .error d) ∈ pairs) : d ∈ (outline.catalog r pairs).2 := by
  obtain ⟨spec, before⟩ := resolved
  cases spec with
  | none =>
    have := hbounds.complete none rfl
    cases this
  | some spec =>
    exact List.mem_append_left _ (List.mem_append_right _ (EnumOutline.mem_entries_of_error h))

/-! ## Outcomes between bounds -/

section Outcomes

variable {F : ColumnSpec → Resolution → Prop} {C : Resolved → Resolution → Prop}
  {outcome : Option Derived × List Diagnostic}

/-- A record comes to no result but one that it composes from `G`. -/
theorem RecordOutcome.composes (h : RecordOutcome settings F C r outcome)
    (hF : ∀ spec resolution, F spec resolution →
      Bounds (FieldResolves registry H r spec) (FieldResolves registry G r spec) resolution)
    (hC : ∀ resolved resolution, C resolved resolution →
      Bounds (CaseResolves registry H r resolved) (CaseResolves registry G r resolved) resolution)
    {x : Derived} (hx : (derivationOf r outcome).result = some x) :
    Composes registry settings G r x := by
  cases h with
  | unannotated | notStruct =>
    rw [derivationOf_result] at hx
    cases hx.1
  | @struct outline resolutions annotated kind outlined resolved =>
    obtain ⟨catalog, diagnostics, draft, draftDiagnostics, hcat, hclean, hdraft, hdclean, rfl⟩ :=
      RecordOutline.finish_result.mp hx
    obtain ⟨members, rfl⟩ : resolutions ∈ Set.range (List.map Except.ok) := by
      rw [Set.range_list_map]
      intro resolution hmem
      obtain ⟨spec, -, hfield⟩ := exists_left_of_mem resolved hmem
      cases resolution with
      | ok members => exact ⟨members, rfl⟩
      | error d =>
        have hd := RecordOutline.mem_catalog_of_error (r := r) resolved.length_eq hmem
        rw [hcat] at hd
        exact absurd hd (Diagnostic.not_mem_of_clean hclean ((hF spec _ hfield).fatal d rfl))
    refine .struct annotated kind outlined ?_ hcat hclean hdraft hdclean
    rw [List.forall₂_map_right_iff] at resolved
    exact resolved.imp fun spec members h => (hF spec _ h).sound members rfl
  | @enum answers annotated kind resolved =>
    obtain ⟨catalog, diagnostics, hcat, hclean, rfl⟩ := EnumOutline.finish_result.mp hx
    obtain ⟨pairs, rfl⟩ : answers ∈ Set.range (List.map (Prod.map id Except.ok)) := by
      rw [Set.range_list_map]
      rintro ⟨spec, resolution⟩ hmem
      obtain ⟨case, -, -, hcase⟩ := exists_left_of_mem resolved hmem
      cases resolution with
      | ok members => exact ⟨(spec, members), rfl⟩
      | error d =>
        have hd : d ∈ ((EnumOutline.ofRecord settings r).catalog r answers).2 :=
          EnumOutline.mem_catalog_of_error (hC spec _ hcase) hmem
        rw [hcat] at hd
        exact absurd hd (Diagnostic.not_mem_of_clean hclean ((hC spec _ hcase).fatal d rfl))
    refine .enum annotated kind ?_ hcat hclean
    rw [List.forall₂_map_right_iff] at resolved
    exact resolved.imp fun case pair h => ⟨h.1, (hC _ _ h.2).sound pair.2 rfl⟩

/-- A record comes to every result that it composes from `H`. -/
theorem RecordOutcome.result_of_composes (h : RecordOutcome settings F C r outcome)
    (hF : ∀ spec resolution, F spec resolution →
      Bounds (FieldResolves registry H r spec) (FieldResolves registry G r spec) resolution)
    (hC : ∀ resolved resolution, C resolved resolution →
      Bounds (CaseResolves registry H r resolved) (CaseResolves registry G r resolved) resolution)
    {x : Derived} (hx : Composes registry settings H r x) :
    (derivationOf r outcome).result = some x := by
  cases hx with
  | @struct outline members catalog draft diagnostics draftDiagnostics annotated kind outlined
      resolved built clean drafted draftClean =>
    cases h with
    | unannotated h =>
      rw [annotated] at h
      cases h
    | notStruct _ h => exact absurd kind h
    | enum _ kind' =>
      rw [kind] at kind'
      cases kind'
    | @struct outline' resolutions _ _ outlined' resolved' =>
      rw [outlined] at outlined'
      cases outlined'
      obtain rfl := eq_map_of_forall₂ resolved' resolved fun spec resolution members hanswer h =>
        (hF spec _ hanswer).complete members h
      exact RecordOutline.finish_result.mpr ⟨_, _, _, _, built, clean, drafted, draftClean, rfl⟩
  | @enum pairs catalog diagnostics annotated kind resolved built clean =>
    cases h with
    | unannotated h =>
      rw [annotated] at h
      cases h
    | notStruct h _ => exact absurd kind h
    | struct _ kind' =>
      rw [kind] at kind'
      cases kind'
    | @enum answers _ _ resolved' =>
      have hanswers : answers = pairs.map (Prod.map id .ok) := by
        refine eq_map_of_forall₂ resolved' resolved fun case answer pair hanswer h => ?_
        obtain ⟨spec, resolution⟩ := answer
        obtain ⟨rfl, hanswer⟩ := hanswer
        obtain ⟨hspec, h⟩ := h
        cases hspec
        exact Prod.ext rfl ((hC _ _ hanswer).complete _ h)
      rw [hanswers]
      exact EnumOutline.finish_result.mpr ⟨_, _, built, clean, rfl⟩

end Outcomes

end RowSchema
