import Mathlib.Data.List.InsertIdx
import RowSchema.Proofs.Basic
import RowSchema.Proofs.Catalog.Respan

/-! # Outlines with other spans

An outline takes spans over from the declaration into its diagnostics and, inside of defaults, into
its catalog. It looks at a span only where one of two is chosen, and asks then whether the first one
is missing or empty. So what comes of a declaration does not depend on where its spans are. -/

namespace RowSchema

section

variable (f : Option Span → Option Span)

/-! ## Diagnostics and specifications -/

def Note.respan (n : Note) : Note := { n with span := f n.span }

def FixIt.respan (x : FixIt) : FixIt := { x with span := f x.span }

/-- The diagnostic with each span `s` in it changed to `f s`. -/
def Diagnostic.respan (d : Diagnostic) : Diagnostic :=
  { d with
    span := f d.span
    notes := d.notes.map (Note.respan f)
    fixIts := d.fixIts.map (FixIt.respan f) }

def KeyClaim.respan : KeyClaim → KeyClaim
  | .unclaimed => .unclaimed
  | .disclaimed => .disclaimed
  | .claimed argument span => .claimed argument (f span)

def ColumnSpec.respan (spec : ColumnSpec) : ColumnSpec :=
  { spec with
    key := spec.key.respan f
    default := spec.default.map (Expr.respan f)
    attr := spec.attr.map (Attribute.respan f)
    span := f spec.span }

def Setting.respan : Setting → Setting
  | .key claim => .key (claim.respan f)
  | s => s

def Finding.respan (x : Finding) : Finding where
  setting := x.setting.map (Setting.respan f)
  diagnostics := x.diagnostics.map (Diagnostic.respan f)

def Resolved.respan (x : Resolved) : Resolved :=
  (x.1.map (ColumnSpec.respan f), x.2.map (Diagnostic.respan f))

def Resolution.respan : Resolution → Resolution
  | .error d => .error (d.respan f)
  | .ok members => .ok (members.map (Group.respan f))

def RecordOutline.respan (o : RecordOutline) : RecordOutline :=
  { o with
    specs := o.specs.map (ColumnSpec.respan f)
    rejected := o.rejected.map (ColumnSpec.respan f)
    diagnostics := o.diagnostics.map (Diagnostic.respan f) }

def EnumOutline.respan (o : EnumOutline) : EnumOutline :=
  { o with
    cases := o.cases.map (Except.map (Resolved.respan f))
    diagnostics := o.diagnostics.map (Diagnostic.respan f) }

/-! ## Diagnostics -/

@[simp] theorem Diagnostic.hasErrors_respan (ds : List Diagnostic) :
    hasErrors (ds.map (respan f)) = hasErrors ds := by
  rw [hasErrors, hasErrors, List.any_map]
  rfl

theorem Diagnostic.errors_respan (ds : List Diagnostic) :
    errors (ds.map (respan f)) = (errors ds).map (respan f) := by
  rw [errors, errors, List.filter_map]
  rfl

theorem Diagnostic.map_within_respan (name : Option String) (ds : List Diagnostic) :
    (ds.map (respan f)).map (within name) = (ds.map (within name)).map (respan f) := by
  simp only [List.map_map]
  rfl

/-! ## Attributes -/

theorem Attribute.named?_respan (name : String) (attributes : List Attribute) :
    named? name (attributes.map (respan f)) = (named? name attributes).map (respan f) := by
  rw [named?, named?, List.find?_map]
  rfl

theorem Attribute.source_respan (a : Attribute) : (a.respan f).source = a.source := by
  have hempty : (Argument.respanAll f a.arguments).isEmpty = a.arguments.isEmpty := by
    rw [Argument.respanAll_eq_map, List.isEmpty_map]
  simp only [source, render, respan, hempty, Argument.sources_respan]

theorem Attribute.sourceWithout_respan (a : Attribute) (i : Nat) :
    (a.respan f).sourceWithout i = a.sourceWithout i := by
  have hrest : (Argument.respanAll f a.arguments).eraseIdx i =
      Argument.respanAll f (a.arguments.eraseIdx i) := by
    rw [Argument.respanAll_eq_map, Argument.respanAll_eq_map, List.eraseIdx_map]
  have h := Attribute.source_respan f { a with arguments := a.arguments.eraseIdx i }
  rw [sourceWithout, respan, hrest]
  exact h

theorem zipIdx_respan (arguments : List Argument) :
    (Argument.respanAll f arguments).zipIdx =
      arguments.zipIdx.map fun pair => (pair.1.respan f, pair.2) := by
  rw [Argument.respanAll_eq_map, List.zipIdx_map]
  rfl

theorem misplaced_respan (attr : Attribute) (i : Nat) (argument : Argument)
    (field : Option String) (message : String) :
    misplaced (attr.respan f) i (argument.respan f) field message =
      (misplaced attr i argument field message).respan f := by
  obtain ⟨label, value, span⟩ := argument
  have hsource := Argument.source_respan f ⟨label, value, span⟩
  simp only [misplaced, removeArgument, Attribute.sourceWithout_respan, hsource]
  rfl

theorem unfit_respan (argument : Argument) (field : Option String) (message : String) :
    unfit (argument.respan f) field message = (unfit argument field message).respan f := by
  rw [unfit, Argument.span_respan]
  rfl

theorem nonEmptyString_respan (argument : Argument) (field : Option String) :
    nonEmptyString (argument.respan f) field =
      (nonEmptyString argument field).mapError (Diagnostic.respan f) := by
  obtain ⟨label, value, span⟩ := argument
  cases value with
  | string s =>
    simp only [nonEmptyString, Argument.respan, Expr.respan]
    split <;> rfl
  | _ => rfl

theorem nameFinding_respan (argument : Argument) (field : String) :
    nameFinding (argument.respan f) field = (nameFinding argument field).respan f := by
  rw [nameFinding, nonEmptyString_respan, nameFinding]
  cases nonEmptyString argument (some field) <;> rfl

theorem representationFinding_respan (argument : Argument) (field : String) :
    representationFinding (argument.respan f) field =
      (representationFinding argument field).respan f := by
  obtain ⟨label, value, span⟩ := argument
  cases value <;> rfl

theorem refuses_misplaced_respan (attr : Attribute) (i : Nat) (argument : Argument)
    (field : Option String) (message : String) :
    Finding.refuses (misplaced (attr.respan f) i (argument.respan f) field message) =
      (Finding.refuses (misplaced attr i argument field message)).respan f := by
  rw [misplaced_respan]
  rfl

/-- The findings of arguments with other spans, where each of them has other spans. -/
theorem findings_respan {find find' : Attribute → Nat → Argument → Except RangeError Finding}
    (h : ∀ a i argument, find' (a.respan f) i (argument.respan f) =
      (find a i argument).map (Finding.respan f)) (attr : Option Attribute) :
    findings (attr.map (Attribute.respan f)) find' =
      (findings attr find).map (List.map (Finding.respan f)) := by
  cases attr with
  | none => rfl
  | some a =>
    simp only [findings, Option.map_some, Attribute.respan, zipIdx_respan]
    exact mapM_map_eq fun pair _ => h a pair.2 pair.1

theorem lastSetting?_respan {α : Type} {pick : Setting → Option α} {g : α → α}
    (h : ∀ s, pick (s.respan f) = (pick s).map g) (found : List Finding) :
    lastSetting? (found.map (Finding.respan f)) pick = (lastSetting? found pick).map g := by
  have hpick (x : Finding) : (x.respan f).setting.bind pick = (x.setting.bind pick).map g := by
    cases hx : x.setting with
    | none => simp [Finding.respan, hx]
    | some s => simp [Finding.respan, hx, h]
  simp only [lastSetting?, List.filterMap_map, Function.comp_def, hpick, ← List.map_filterMap,
    List.getLast?_map]

/-- Only a claim to the key has a span. -/
theorem lastSetting?_respan_of_eq {α : Type} {pick : Setting → Option α}
    (h : ∀ s, pick (s.respan f) = pick s) (found : List Finding) :
    lastSetting? (found.map (Finding.respan f)) pick = lastSetting? found pick := by
  have hid (s : Setting) : pick (s.respan f) = (pick s).map id := by rw [h, Option.map_id, id]
  rw [lastSetting?_respan f hid, Option.map_id, id]

theorem flatMap_diagnostics_respan (found : List Finding) :
    (found.map (Finding.respan f)).flatMap (·.diagnostics) =
      (found.flatMap (·.diagnostics)).map (Diagnostic.respan f) := by
  rw [List.flatMap_map, List.map_flatMap]
  rfl

/-! ## Fields and cases -/

theorem Expr.literalType?_respan (e : Expr) : (e.respan f).literalType? = e.literalType? := by
  cases e <;> rfl

theorem generatedKind?_respan (e : Expr) : generatedKind? (e.respan f) = generatedKind? e := by
  cases e <;> rfl

theorem caseFinding_respan (name : String) (attr : Attribute) (i : Nat) (argument : Argument) :
    caseFinding name (attr.respan f) i (argument.respan f) =
      (caseFinding name attr i argument).respan f := by
  simp only [caseFinding, Argument.label_respan]
  split
  · exact nameFinding_respan f argument name
  · exact representationFinding_respan f argument name
  · split
    · exact refuses_misplaced_respan f _ _ _ _ _
    · exact refuses_misplaced_respan f _ _ _ _ _

theorem keyFinding_respan (field : String) (attr : Attribute) (i : Nat) (argument : Argument) :
    keyFinding field (attr.respan f) i (argument.respan f) =
      (keyFinding field attr i argument).respan f := by
  have hunfit := unfit_respan f argument (some field)
    "Argument 'primaryKey' must be a boolean literal"
  have hmisplaced := misplaced_respan f attr i argument (some field)
    ("'primaryKey: false' has no effect on '" ++ field ++ "'")
  cases hvalue : argument.value with
  | boolean b =>
    cases b with
    | true =>
      simp only [keyFinding, Argument.value_respan, hvalue, Expr.respan, Argument.span_respan]
      rfl
    | false =>
      simp only [keyFinding, Argument.value_respan, hvalue, Expr.respan, hmisplaced]
      by_cases hfield : field == idField
      · simp only [hfield, if_true]
        rfl
      · simp only [hfield, Bool.false_eq_true, if_false]
        rfl
  | _ =>
    simp only [keyFinding, Argument.value_respan, hvalue, Expr.respan, hunfit]
    rfl

theorem ColumnSpec.fieldType_respan (x : Field) : fieldType (x.respan f) = fieldType x := by
  have hliteral (e : Expr) : (e.respan f).literalType? = e.literalType? := e.literalType?_respan f
  simp only [fieldType, Field.respan, Option.bind_map, Function.comp_def, hliteral]

theorem ColumnSpec.groupDiagnostics_respan (x : Field) (group : Attribute)
    (column : Option Attribute) :
    groupDiagnostics (x.respan f) (group.respan f) (column.map (Attribute.respan f)) =
      (groupDiagnostics x group column).map (Diagnostic.respan f) := by
  have hname : (x.respan f).name = x.name := rfl
  have harguments : (group.respan f).arguments = Argument.respanAll f group.arguments := rfl
  simp only [groupDiagnostics, hname, harguments, zipIdx_respan, List.map_map, List.map_append,
    Function.comp_def, misplaced_respan, Argument.source_respan]
  cases column with
  | none => rfl
  | some a =>
    simp only [Option.map_some, Option.toList_some, List.map_cons, List.map_nil,
      Attribute.source_respan]
    rfl

theorem ColumnSpec.structuralFault?_respan (role : Role) (x : Field) :
    structuralFault? role (x.respan f) = (structuralFault? role x).map (Diagnostic.respan f) := by
  unfold structuralFault?
  have hbindings : (x.respan f).bindings = x.bindings := rfl
  have htype : (x.respan f).type = x.type := rfl
  rw [hbindings, htype]
  cases x.bindings != 1 with
  | true => rfl
  | false => cases x.type.any (·.isVariadic) <;> rfl

end

section

open RowSchema.Span (erase)

theorem generatedFinding_erase (x : Field) (argument : Argument) :
    generatedFinding (x.respan erase) (argument.respan erase) =
      (generatedFinding x argument).map (Finding.respan erase) := by
  have hunfit := unfit_respan erase argument (some x.name)
    "Argument 'generated' must be '.stored' or '.virtual'; ignoring it"
  have hname : (x.respan erase).name = x.name := rfl
  have hmutable : (x.respan erase).isMutable = x.isMutable := rfl
  have hbinding : (x.respan erase).bindingSpan = erase x.bindingSpan := rfl
  have hspan : (x.respan erase).span = erase x.span := rfl
  simp only [generatedFinding, Argument.value_respan, generatedKind?_respan, hname, hmutable,
    hbinding, hspan, hunfit]
  split
  · rfl
  · split
    · rw [Span.orElse_erase]
      cases Span.orElse x.bindingSpan x.span with
      | error e => rfl
      | ok span => cases hb : x.bindingSpan <;> rfl
    · rfl

theorem fieldFinding_erase (role : Role) (x : Field) (attr : Attribute) (i : Nat)
    (argument : Argument) :
    fieldFinding role (x.respan erase) (attr.respan erase) i (argument.respan erase) =
      (fieldFinding role x attr i argument).map (Finding.respan erase) := by
  have hrefuses := refuses_misplaced_respan erase attr i argument
  have hname : (x.respan erase).name = x.name := rfl
  simp only [fieldFinding, Argument.label_respan, hname, unsupported, hrefuses]
  split
  · split
    · rfl
    · rw [nameFinding_respan]
      rfl
  · rw [representationFinding_respan]
    rfl
  · split
    · rfl
    · rw [keyFinding_respan]
      rfl
  · split
    · rfl
    · exact generatedFinding_erase x argument
  · rfl

/-- The specification of a field, and those of cases, do not depend on where spans are. -/
theorem ColumnSpec.ofOptions_erase (role : Role) (x : Field) (attr : Option Attribute) :
    ofOptions role (x.respan erase) (attr.map (Attribute.respan erase)) =
      (ofOptions role x attr).map fun (spec, ds) =>
        (spec.respan erase, ds.map (Diagnostic.respan erase)) := by
  rw [ofOptions, ofOptions, findings_respan erase (fieldFinding_erase role x) attr]
  cases findings attr (fieldFinding role x) with
  | error e => rfl
  | ok found =>
    have hclaim (claim : Option KeyClaim) : (claim.map (KeyClaim.respan erase)).getD .unclaimed =
        (claim.getD .unclaimed).respan erase := by
      cases claim <;> rfl
    simp only [Except.map, bind, Except.bind, pure, Except.pure, fieldType_respan,
      flatMap_diagnostics_respan]
    rw [lastSetting?_respan (g := KeyClaim.respan erase) erase ?key, hclaim,
      lastSetting?_respan_of_eq (α := TypeRef) erase ?representation,
      lastSetting?_respan_of_eq (α := String) erase ?columnName,
      lastSetting?_respan_of_eq (α := Generated) erase ?generated]
    · rfl
    case key | representation | columnName | generated => exact fun s => by cases s <;> rfl

theorem ColumnSpec.ofField_erase (role : Role) (x : Field) :
    ofField role (x.respan erase) = (ofField role x).map (Resolved.respan erase) := by
  have hshared : (x.respan erase).isStatic = x.isStatic ∧
      (x.respan erase).isComputed = x.isComputed ∧
      (x.respan erase).attributes = x.attributes.map (Attribute.respan erase) := ⟨rfl, rfl, rfl⟩
  obtain ⟨hstatic, hcomputed, hattributes⟩ := hshared
  simp only [ofField, hstatic, hcomputed, hattributes, structuralFault?_respan, fieldType_respan,
    Attribute.named?_respan, Option.isSome_map]
  split
  · rfl
  · cases structuralFault? role x with
    | some fault => rfl
    | none =>
      dsimp only [Option.map_none]
      split
      · rfl
      · cases Attribute.named? "Columns" x.attributes with
        | some group =>
          dsimp only [Option.map_some]
          rw [groupDiagnostics_respan]
          rfl
        | none =>
          dsimp only [Option.map_none]
          rw [ofOptions_erase role x]
          cases ofOptions role x (Attribute.named? "Column" x.attributes) <;> rfl

theorem ColumnSpec.ofCase_erase (c : Case) :
    ofCase (c.respan erase) = (ofCase c).map (Resolved.respan erase) := by
  have hpayloads : (c.respan erase).payloads = c.payloads.map (Payload.respan erase) := rfl
  have hattributes : (c.respan erase).attributes = c.attributes.map (Attribute.respan erase) := rfl
  have hname : (c.respan erase).name = c.name := rfl
  have hspan : (c.respan erase).span = erase c.span := rfl
  have hvariadic : ((·.type.isVariadic) ∘ Payload.respan erase) = (·.type.isVariadic) := rfl
  simp only [ofCase, hpayloads, hattributes, hname, hspan, List.length_map, List.head?_map,
    Option.filter_map, hvariadic, Attribute.named?_respan]
  split
  · rfl
  · cases c.payloads.head?.filter (·.type.isVariadic) with
    | some p =>
      have hpspan : (p.respan erase).span = erase p.span := rfl
      simp only [Option.map_some, hpspan, Span.orElse_erase]
      cases Span.orElse p.span c.span <;> rfl
    | none =>
      have hfind (a : Attribute) (i : Nat) (argument : Argument) :
          (.ok (caseFinding c.name (a.respan erase) i (argument.respan erase)) :
            Except RangeError Finding) =
              (Except.ok (caseFinding c.name a i argument)).map (Finding.respan erase) := by
        rw [caseFinding_respan]
        rfl
      simp only [Option.map_none]
      rw [findings_respan erase hfind]
      cases findings (Attribute.named? "Column" c.attributes) fun a i argument =>
          .ok (caseFinding c.name a i argument) with
      | error e => rfl
      | ok found =>
        simp only [Except.map, bind, Except.bind, pure, Except.pure, flatMap_diagnostics_respan]
        rw [lastSetting?_respan_of_eq (α := TypeRef) erase ?representation,
          lastSetting?_respan_of_eq (α := String) erase ?columnName]
        · cases c.payloads.head? <;> rfl
        case representation | columnName => exact fun s => by cases s <;> rfl

end

end RowSchema
