import RowSchema.Proofs.Schema.Deriving

/-! # Outcomes of derivations

What the derivation of a record comes to, given what its column groups resolve to. Everything that
a derivation can give is a `RecordOutcome`, so that a property of results or diagnostics is shown
by cases on the outcome and not by running the derivation. -/

namespace RowSchema

/-- A member of the group graph: a record whose columns are spliced into those of `r`, for a stored
field annotated as a group or for an associated value without another representation. -/
inductive Registry.Refers (registry : Registry) (r : Record) : Record → Prop
  | field {f : Field} {spec : ColumnSpec} {diagnostics : List Diagnostic} {t : TypeRef}
      {member : Record} (kind : r.kind ≠ .enum) (mem : f ∈ r.fields)
      (resolved : ColumnSpec.ofField r.role f = .ok (some spec, diagnostics))
      (stored : spec.isEphemeral = false) (group : spec.isGroup = true) (type : spec.type = some t)
      (found : registry.record? (groupReference r spec t.name) = some member) :
      Refers registry r member
  | payload {c : Case} {spec : ColumnSpec} {diagnostics : List Diagnostic} {t : TypeRef}
      {member : Record} (kind : r.kind = .enum) (mem : c ∈ r.cases)
      (resolved : ColumnSpec.ofCase c = .ok (some spec, diagnostics))
      (type : spec.type = some t) (plain : spec.representation = none)
      (registered : registry.contains (.name t.name) = true)
      (found : registry.record? (groupReference r spec t.name) = some member) :
      Refers registry r member

/-- The result of a struct, unless something in it is wrong. -/
def RecordOutline.finish (outline : RecordOutline) (settings : Options) (r : Record)
    (resolutions : List Resolution) : Option Derived × List Diagnostic :=
  let (catalog, diagnostics) := outline.catalog r resolutions
  if Diagnostic.hasErrors diagnostics then (none, diagnostics)
  else
    let (draft, draftDiagnostics) := draftOf r outline catalog
    (some { record := r, catalog := .record catalog, draft, policy := settings.policy },
      diagnostics ++ draftDiagnostics)

/-- The result of an enum, unless something in it is wrong. -/
def EnumOutline.finish (outline : EnumOutline) (settings : Options) (r : Record)
    (resolved : List (Resolved × Resolution)) : Option Derived × List Diagnostic :=
  let (catalog, diagnostics) := outline.catalog r resolved
  if Diagnostic.hasErrors diagnostics then (none, diagnostics)
  else (some { record := r, catalog := .enum catalog, policy := settings.policy }, diagnostics)

/-- The results and diagnostics that a record may come to, where `F` says what a field may resolve
to and `C` what a case may. -/
inductive RecordOutcome (settings : Options) (F : ColumnSpec → Resolution → Prop)
    (C : Resolved → Resolution → Prop) (r : Record) : Option Derived × List Diagnostic → Prop
  | unannotated (h : (r.isTable || r.isSelection) = false) :
      RecordOutcome settings F C r (none, [unannotated r])
  | notStruct (h : r.kind ≠ .enum) (h' : r.kind ≠ .struct) :
      RecordOutcome settings F C r (none, [RecordOutline.notStruct r])
  | struct {outline : RecordOutline} {resolutions : List Resolution}
      (annotated : (r.isTable || r.isSelection) = true) (kind : r.kind = .struct)
      (outlined : RecordOutline.ofRecord settings r = .ok outline)
      (resolved : List.Forall₂ F outline.specs resolutions) :
      RecordOutcome settings F C r (outline.finish settings r resolutions)
  | enum {resolved : List (Resolved × Resolution)}
      (annotated : (r.isTable || r.isSelection) = true) (kind : r.kind = .enum)
      (cases : List.Forall₂ (fun case pair => case = .ok pair.1 ∧ C pair.1 pair.2)
        (EnumOutline.ofRecord settings r).cases resolved) :
      RecordOutcome settings F C r ((EnumOutline.ofRecord settings r).finish settings r resolved)

/-- The derivation that an outcome is reported as. -/
def derivationOf (r : Record) (outcome : Option Derived × List Diagnostic) : Derivation Derived :=
  .ofDiagnostics r.name outcome.1 (outcome.2.map (Diagnostic.within (some r.name)))

open Deriving

section Steps

variable {registry : Registry} {settings : Options} {nested : Nested} {r : Record}
  {I E : Cache → Prop} {Δ : Cache → Cache → Prop} [IsPreorder Cache Δ]
  {F : Cache → ColumnSpec → Resolution → Prop} {C : Cache → Resolved → Resolution → Prop}

theorem deriveRecord_takes
    (hF : ∀ spec resolution c c', Δ c c' → F c spec resolution → F c' spec resolution)
    (hstop : r.kind = .struct → ∀ e, RecordOutline.ofRecord settings r = .error e →
      ∀ c, I c → E c)
    (hfield : ∀ outline, r.kind = .struct → RecordOutline.ofRecord settings r = .ok outline →
      ∀ spec ∈ outline.specs,
        Takes Δ I (fun c resolution => I c ∧ F c spec resolution) E
          (resolveField registry nested r spec))
    (annotated : (r.isTable || r.isSelection) = true) (hkind : r.kind ≠ .enum) :
    Takes Δ I (fun c outcome => I c ∧ RecordOutcome settings (F c) (C c) r outcome) E
      (deriveRecord registry settings nested r) := by
  unfold deriveRecord
  by_cases hk : r.kind = .struct
  · have hk' : (r.kind != .struct) = false := by simp [hk]
    simp only [hk', Bool.false_eq_true, if_false]
    refine (Takes.ofExcept (Q := fun c outline => I c ∧
      RecordOutline.ofRecord settings r = .ok outline) (fun outline h c hc => ⟨hc, h⟩)
      (hstop hk)).bind fun outline => ?_
    refine (Takes.noting _).bind fun _ => ?_
    refine Takes.of_fact fun houtline => ?_
    refine (Takes.mapM hF (hfield outline hk houtline)).bind fun resolutions => ?_
    have outcome (c : Cache) (hc : I c ∧ List.Forall₂ (F c) outline.specs resolutions) :=
      And.intro hc.1 (RecordOutcome.struct (C := C c) annotated hk houtline hc.2)
    simp only [RecordOutline.finish] at outcome
    rcases hcat : outline.catalog r resolutions with ⟨catalog, diagnostics⟩
    simp only [hcat] at outcome ⊢
    refine (Takes.noting _).bind fun _ => ?_
    split
    · rename_i herr
      simp only [if_pos herr] at outcome
      exact Takes.pure outcome
    · rename_i herr
      simp only [if_neg herr] at outcome
      exact (Takes.noting _).bind fun _ => Takes.pure outcome
  · have hk' : (r.kind != .struct) = true := by simp [hk]
    simp only [hk', if_true]
    exact Takes.pure fun c hc => ⟨hc, .notStruct hkind hk⟩

theorem deriveEnum_takes
    (hC : ∀ resolved resolution c c', Δ c c' → C c resolved resolution →
      C c' resolved resolution)
    (hcase : ∀ case ∈ (EnumOutline.ofRecord settings r).cases,
      Takes Δ I (fun c pair => I c ∧ case = .ok pair.1 ∧ C c pair.1 pair.2) E
        (resolveCase registry nested r case))
    (annotated : (r.isTable || r.isSelection) = true) (hkind : r.kind = .enum) :
    Takes Δ I (fun c outcome => I c ∧ RecordOutcome settings (F c) (C c) r outcome) E
      (deriveEnum registry settings nested r) := by
  unfold deriveEnum
  have hstable : ∀ (case : Except RangeError Resolved) (pair : Resolved × Resolution)
      (c c' : Cache), Δ c c' → (case = .ok pair.1 ∧ C c pair.1 pair.2) →
      case = .ok pair.1 ∧ C c' pair.1 pair.2 :=
    fun _ pair c c' hΔ h => ⟨h.1, hC pair.1 pair.2 c c' hΔ h.2⟩
  refine (Takes.mapM hstable hcase).bind fun resolved => ?_
  have outcome (c : Cache) (hc : I c ∧ List.Forall₂ (fun case pair =>
      case = .ok pair.1 ∧ C c pair.1 pair.2) (EnumOutline.ofRecord settings r).cases resolved) :=
    And.intro hc.1 (RecordOutcome.enum (F := F c) annotated hkind hc.2)
  simp only [EnumOutline.finish] at outcome
  rcases hcat : (EnumOutline.ofRecord settings r).catalog r resolved with ⟨catalog, diagnostics⟩
  simp only [hcat] at outcome ⊢
  refine (Takes.noting _).bind fun _ => ?_
  split
  · rename_i herr
    simp only [if_pos herr] at outcome
    exact Takes.pure outcome
  · rename_i herr
    simp only [if_neg herr] at outcome
    exact (Takes.noting _).bind fun _ => Takes.pure outcome

/-- Whatever a derivation gives is an outcome. -/
theorem deriveNew_takes
    (hF : ∀ spec resolution c c', Δ c c' → F c spec resolution → F c' spec resolution)
    (hC : ∀ resolved resolution c c', Δ c c' → C c resolved resolution →
      C c' resolved resolution)
    (hstop : (r.isTable || r.isSelection) = true → r.kind = .struct →
      ∀ e, RecordOutline.ofRecord settings r = .error e → ∀ c, I c → E c)
    (hfield : ∀ outline, (r.isTable || r.isSelection) = true → r.kind = .struct →
      RecordOutline.ofRecord settings r = .ok outline → ∀ spec ∈ outline.specs,
        Takes Δ I (fun c resolution => I c ∧ F c spec resolution) E
          (resolveField registry nested r spec))
    (hcase : (r.isTable || r.isSelection) = true → r.kind = .enum →
      ∀ case ∈ (EnumOutline.ofRecord settings r).cases,
        Takes Δ I (fun c pair => I c ∧ case = .ok pair.1 ∧ C c pair.1 pair.2) E
          (resolveCase registry nested r case)) :
    Takes Δ I (fun c d => I c ∧
        ∃ outcome, RecordOutcome settings (F c) (C c) r outcome ∧ d = derivationOf r outcome) E
      (deriveNew registry settings nested r) := by
  unfold deriveNew
  split
  · rename_i annotated
    split
    · rename_i hkind
      have hkind : r.kind = .enum := by simpa using hkind
      refine (deriveEnum_takes (F := F) hC (hcase annotated hkind) annotated hkind).bind
        fun outcome => ?_
      exact (Takes.noting _).bind fun _ => Takes.pure fun c hc => ⟨hc.1, outcome, hc.2, rfl⟩
    · rename_i hkind
      have hkind : r.kind ≠ .enum := by simpa using hkind
      refine (deriveRecord_takes (C := C) hF (hstop annotated)
        (fun outline => hfield outline annotated) annotated hkind).bind fun outcome => ?_
      exact (Takes.noting _).bind fun _ => Takes.pure fun c hc => ⟨hc.1, outcome, hc.2, rfl⟩
  · rename_i h
    exact Takes.pure fun c hc => ⟨hc, _, .unannotated (by simpa using h), rfl⟩

end Steps

end RowSchema
