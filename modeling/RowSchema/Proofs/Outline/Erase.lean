import RowSchema.Proofs.Dictionary
import RowSchema.Proofs.Outline.Respan

/-! # Catalogs of outlines with other spans

The outline of a declaration, the catalog that comes of the outline and the draft that comes of the
catalog are the same up to spans, wherever the declaration stands. -/

namespace RowSchema

open RowSchema.Span (erase)

section

variable (f : Option Span → Option Span)

/-! ## Tables -/

theorem TableOptions.ofArguments_respan (attr : Attribute) :
    ∀ (arguments : List (Argument × Nat)) (options : TableOptions),
      ofArguments (attr.respan f) options
          (arguments.map fun pair => (pair.1.respan f, pair.2)) =
        ((ofArguments attr options arguments).1,
          (ofArguments attr options arguments).2.map (Diagnostic.respan f))
  | [], _ => rfl
  | (argument, i) :: rest, options => by
    simp only [List.map_cons, ofArguments, Argument.label_respan, nonEmptyString_respan,
      misplaced_respan, ofArguments_respan attr rest, List.map_append]
    split
    · cases nonEmptyString argument none <;> rfl
    · cases nonEmptyString argument none <;> rfl
    · rfl

theorem Record.isTable_respan (r : Record) : (r.respan f).isTable = r.isTable := by
  simp only [isTable, respan, Attribute.named?_respan, Option.isSome_map]

theorem Record.isSelection_respan (r : Record) : (r.respan f).isSelection = r.isSelection := by
  simp only [isSelection, respan, Attribute.named?_respan, Option.isSome_map]

theorem Record.role_respan (r : Record) : (r.respan f).role = r.role := by
  rw [role, isTable_respan, isSelection_respan, role]

theorem TableOptions.withDefault_respan (settings : Options) (r : Record) :
    withDefault settings (r.respan f) =
      ((withDefault settings r).1, (withDefault settings r).2.map (Diagnostic.respan f)) := by
  have hrecord : ofRecord (r.respan f) =
      ((ofRecord r).1, (ofRecord r).2.map (Diagnostic.respan f)) := by
    have hattributes : (r.respan f).attributes = r.attributes.map (Attribute.respan f) := rfl
    have harguments (a : Attribute) :
        (a.respan f).arguments = Argument.respanAll f a.arguments := rfl
    simp only [ofRecord, hattributes, Attribute.named?_respan]
    cases Attribute.named? "Table" r.attributes with
    | some a =>
      simp only [Option.map_some, harguments, zipIdx_respan, ofArguments_respan]
    | none =>
      cases Attribute.named? "Selection" r.attributes with
      | some a =>
        simp only [Option.map_some, Option.map_none, harguments, zipIdx_respan, List.map_map,
          Function.comp_def, misplaced_respan, Argument.source_respan]
      | none => rfl
  have hname : (r.respan f).name = r.name := rfl
  simp only [withDefault, hrecord, Record.isTable_respan, hname]
  split <;> rfl

/-! ## Keys -/

theorem KeyClaim.isClaimed_respan (c : KeyClaim) : (c.respan f).isClaimed = c.isClaimed := by
  cases c <;> rfl

theorem isKeyByName_respan (spec : ColumnSpec) : isKeyByName (spec.respan f) = isKeyByName spec := by
  have hkey : (spec.key.respan f == .unclaimed) = (spec.key == .unclaimed) := by
    cases spec.key <;> rfl
  simp only [isKeyByName, ColumnSpec.respan, hkey]

theorem selectKey_respan (settings : Options) (specs : List ColumnSpec) :
    selectKey settings (specs.map (ColumnSpec.respan f)) =
      ((selectKey settings specs).1, (selectKey settings specs).2.map (ColumnSpec.respan f)) := by
  have hclaimed : ((·.key.isClaimed) ∘ ColumnSpec.respan f) = (·.key.isClaimed) :=
    funext fun spec => spec.key.isClaimed_respan f
  have hbyName : isKeyByName ∘ ColumnSpec.respan f = isKeyByName :=
    funext (isKeyByName_respan f)
  simp only [selectKey, List.filter_map, List.findIdx?_map, hclaimed, hbyName]
  cases specs.filter (·.key.isClaimed) <;> rfl

theorem duplicateKey_respan (role : Role) (first spec : ColumnSpec) :
    duplicateKey role (first.respan f) (spec.respan f) = (duplicateKey role first spec).respan f := by
  have hspan (a : Attribute) : (a.respan f).span = f a.span := rfl
  cases hfirst : first.key <;> cases hspec : spec.key <;> cases hattr : spec.attr <;>
    simp [duplicateKey, ColumnSpec.respan, hfirst, hspec, hattr, KeyClaim.respan, hspan,
      Diagnostic.respan, Note.respan, FixIt.respan, Attribute.sourceWithout_respan]

end

/-! ## Outlines -/

theorem RecordOutline.ofRecord_erase (settings : Options) (r : Record) :
    ofRecord settings (r.respan erase) = (ofRecord settings r).map (respan erase) := by
  have hfields : (r.respan erase).fields.mapM (ColumnSpec.ofField r.role) =
      (r.fields.mapM (ColumnSpec.ofField r.role)).map (List.map (Resolved.respan erase)) :=
    mapM_map_eq fun x _ => ColumnSpec.ofField_erase r.role x
  have hcases : (r.respan erase).cases.map (strayCase (r.respan erase)) =
      (r.cases.map (strayCase r)).map (Diagnostic.respan erase) := by
    simp only [Record.respan, List.map_map]
    rfl
  simp only [ofRecord, TableOptions.withDefault_respan, Record.role_respan,
    Record.isSelection_respan, hfields, hcases]
  cases r.fields.mapM (ColumnSpec.ofField r.role) with
  | error e => rfl
  | ok resolved =>
    have hspecs : ((resolved.map (Resolved.respan erase)).filterMap (·.1)).filter
        (!·.isEphemeral) =
          ((resolved.filterMap (·.1)).filter (!·.isEphemeral)).map (ColumnSpec.respan erase) := by
      have hstored : ((!·.isEphemeral) ∘ ColumnSpec.respan erase) = (!·.isEphemeral) := rfl
      rw [List.filterMap_map, ← hstored, ← List.filter_map, List.map_filterMap]
      rfl
    have hdiagnostics : (resolved.map (Resolved.respan erase)).flatMap (·.2) =
        (resolved.flatMap (·.2)).map (Diagnostic.respan erase) := by
      rw [List.flatMap_map, List.map_flatMap]
      rfl
    simp only [Except.map, bind, Except.bind, pure, Except.pure, hspecs, hdiagnostics,
      selectKey_respan]
    generalize (resolved.filterMap (·.1)).filter (!·.isEphemeral) = specs
    have hchosen : (if r.isSelection then (none, []) else ((selectKey settings specs).1,
        (selectKey settings specs).2.map (ColumnSpec.respan erase))) =
          ((if r.isSelection then (none, []) else selectKey settings specs).1,
            (if r.isSelection then (none, []) else selectKey settings specs).2.map
              (ColumnSpec.respan erase)) := by
      split <;> rfl
    rw [hchosen]
    generalize (if r.isSelection then (none, []) else selectKey settings specs) = chosen
    have hfirst : (chosen.1.bind fun i => (specs.map (ColumnSpec.respan erase))[i]?) =
        (chosen.1.bind fun i => specs[i]?).map (ColumnSpec.respan erase) := by
      simp only [List.getElem?_map, Option.map_bind]
      rfl
    simp only [hfirst, respan, List.map_append]
    cases chosen.1.bind fun i => specs[i]? with
    | none => rfl
    | some first => simp only [Option.map_some, List.map_map, Function.comp_def, duplicateKey_respan]

theorem EnumOutline.resolveCases_erase (r : Record) : ∀ (seen : List String) (cases : List Case),
    resolveCases (r.respan erase) seen (cases.map (Case.respan erase)) =
      (resolveCases r seen cases).map (Except.map (Resolved.respan erase))
  | _, [] => rfl
  | seen, c :: rest => by
    have hname : (c.respan erase).name = c.name := rfl
    simp only [List.map_cons, resolveCases, hname, ColumnSpec.ofCase_erase,
      resolveCases_erase r _ rest]
    split <;> rfl

theorem EnumOutline.ofRecord_erase (settings : Options) (r : Record) :
    ofRecord settings (r.respan erase) = (ofRecord settings r).respan erase := by
  have hstray : ((r.respan erase).fields.filter fun x => !x.isStatic && !x.isComputed).map
      (strayField (r.respan erase)) =
        ((r.fields.filter fun x => !x.isStatic && !x.isComputed).map (strayField r)).map
          (Diagnostic.respan erase) := by
    have hfields : (r.respan erase).fields = r.fields.map (Field.respan erase) := rfl
    rw [hfields, List.filter_map, List.map_map, List.map_map]
    rfl
  have hcases : (r.respan erase).cases = r.cases.map (Case.respan erase) := rfl
  simp only [ofRecord, TableOptions.withDefault_respan, hstray, hcases,
    resolveCases_erase r [] r.cases, respan, List.map_append]

/-! ## Catalogs -/

section

variable (f : Option Span → Option Span)

theorem nameTaken_respan (spec : ColumnSpec) (name owner : String) :
    nameTaken (spec.respan f) name owner = (nameTaken spec name owner).respan f := rfl

theorem Resolution.respan_error (d : Diagnostic) : respan f (.error d) = .error (d.respan f) := rfl

theorem Resolution.respan_ok (members : Option Group) :
    respan f (.ok members) = .ok (members.map (Group.respan f)) := rfl

theorem Resolved.respan_none (ds : List Diagnostic) :
    respan f (none, ds) = (none, ds.map (Diagnostic.respan f)) := rfl

theorem Resolved.respan_some (spec : ColumnSpec) (ds : List Diagnostic) :
    respan f (some spec, ds) = (some (spec.respan f), ds.map (Diagnostic.respan f)) := rfl

theorem RecordOutline.entry_respan (isPrimaryKey : Bool) (spec : ColumnSpec)
    (members : Option Group) :
    entry isPrimaryKey (spec.respan f) (members.map (Group.respan f)) =
      (entry isPrimaryKey spec members).respan f := by
  cases members with
  | none =>
    rw [Entry.respan_eq]
    rfl
  | some g =>
    simp only [Option.map_some, entry, Group.asGroup_respan, Group.width_respan, Entry.respan_eq]
    rfl

theorem EnumOutline.entry_respan (spec : ColumnSpec) (type : TypeRef) (members : Option Group) :
    entry (spec.respan f) type (members.map (Group.respan f)) =
      (entry spec type members).respan f := by
  cases members with
  | none =>
    rw [Entry.respan_eq]
    rfl
  | some g =>
    simp only [Option.map_some, entry, Group.asGroup_respan, Group.width_respan, Entry.respan_eq]
    rfl

theorem RecordOutline.entries_respan (primary : Option Nat) :
    ∀ (numbered : List (ColumnSpec × Nat × Resolution)) (seen : Dictionary String String),
      entries primary seen
          (numbered.map fun (spec, i, x) => (spec.respan f, i, Resolution.respan f x)) =
        ((entries primary seen numbered).1.map (Entry.respan f),
          (entries primary seen numbered).2.map (Diagnostic.respan f))
  | [], _ => rfl
  | (spec, i, .error d) :: rest, seen => by
    simp only [List.map_cons, Resolution.respan_error, entries, entries_respan primary rest]
  | (spec, i, .ok members) :: rest, seen => by
    have hname : ((entry (primary == some i) spec members).column.respan f).name =
        (entry (primary == some i) spec members).column.name := rfl
    have hfield : (spec.respan f).name = spec.name := rfl
    simp only [List.map_cons, Resolution.respan_ok, entries, entry_respan, Entry.column_respan, hname,
      hfield, nameTaken_respan, entries_respan primary rest]
    split <;> rfl

theorem EnumOutline.entries_respan :
    ∀ (resolved : List (Resolved × Resolution)) (seen : Dictionary String String),
      entries seen (resolved.map fun (x, y) => (Resolved.respan f x, Resolution.respan f y)) =
        ((entries seen resolved).1.map (CaseEntry.respan f),
          (entries seen resolved).2.map (Diagnostic.respan f))
  | [], _ => rfl
  | ((none, before), _) :: rest, seen => by
    simp only [List.map_cons, Resolved.respan_none, entries, entries_respan rest, List.map_append]
  | ((some spec, before), .error d) :: rest, seen => by
    simp only [List.map_cons, Resolved.respan_some, Resolution.respan_error, entries,
      entries_respan rest, List.map_append]
  | ((some spec, before), .ok members) :: rest, seen => by
    have htype : (spec.respan f).type = spec.type := rfl
    have hname : (spec.respan f).name = spec.name := rfl
    have hlabel : (spec.respan f).label = spec.label := rfl
    simp only [List.map_cons, Resolved.respan_some, Resolution.respan_ok, entries, htype]
    cases spec.type with
    | none =>
      simp only [entries_respan rest, hname, hlabel, List.map_append, List.map_cons,
        CaseEntry.respan_eq, Option.map_none]
    | some type =>
      have hcolumn : ((entry spec type members).column.respan f).name =
          (entry spec type members).column.name := rfl
      simp only [entry_respan, Entry.column_respan, hcolumn, hname, hlabel, nameTaken_respan,
        entries_respan rest]
      split
      · simp only [List.map_append, List.map_cons]
      · simp only [List.map_append, List.map_cons, CaseEntry.respan_eq, Option.map_some]

theorem RecordOutline.catalog_respan (o : RecordOutline) (r : Record)
    (resolutions : List Resolution) :
    (o.respan f).catalog (r.respan f) (resolutions.map (Resolution.respan f)) =
      ((o.catalog r resolutions).1.respan f,
        (o.catalog r resolutions).2.map (Diagnostic.respan f)) := by
  have hnumbered : (o.specs.map (ColumnSpec.respan f)).zip
      ((List.range (o.specs.map (ColumnSpec.respan f)).length).zip
        (resolutions.map (Resolution.respan f))) =
      (o.specs.zip ((List.range o.specs.length).zip resolutions)).map
        fun (spec, i, x) => (spec.respan f, i, Resolution.respan f x) := by
    rw [List.length_map, List.zip_map_right, List.zip_map]
    rfl
  have hentries := entries_respan f o.primary
    (o.specs.zip ((List.range o.specs.length).zip resolutions)) []
  have hrole := r.role_respan f
  simp only [catalog, respan, hnumbered, hentries, hrole, List.isEmpty_map, List.map_append,
    Catalog.respan_eq]
  cases (entries o.primary [] _).1.isEmpty <;> rfl

theorem EnumOutline.catalog_respan (o : EnumOutline) (r : Record)
    (resolved : List (Resolved × Resolution)) :
    (o.respan f).catalog (r.respan f)
        (resolved.map fun (x, y) => (Resolved.respan f x, Resolution.respan f y)) =
      ((o.catalog r resolved).1.respan f,
        (o.catalog r resolved).2.map (Diagnostic.respan f)) := by
  have hentries := entries_respan f resolved []
  have hempty : (r.respan f).cases.isEmpty = r.cases.isEmpty := List.isEmpty_map
  have hrole := r.role_respan f
  simp only [catalog, respan, hentries, hrole, hempty, List.map_append, EnumCatalog.respan_eq]
  cases r.cases.isEmpty <;> rfl

theorem RecordOutline.groupName_respan (spec : ColumnSpec) :
    groupName (spec.respan f) = (groupName spec).mapError (Diagnostic.respan f) := by
  have hgroup : (spec.respan f).isGroup = spec.isGroup := rfl
  have htype : (spec.respan f).type = spec.type := rfl
  simp only [groupName, hgroup, htype]
  split
  · cases spec.type <;> rfl
  · rfl

end

/-! ## Drafts -/

theorem nameSpans_erase (r : Record) :
    nameSpans (r.respan erase) = (nameSpans r).mapValues Span.erased := by
  have hpairs : ((r.respan erase).fields.filterMap fun x => x.nameSpan.map (x.name, ·)) =
      Dictionary.mapValues Span.erased
        (r.fields.filterMap fun x => x.nameSpan.map (x.name, ·)) := by
    have hfields : (r.respan erase).fields = r.fields.map (Field.respan erase) := rfl
    rw [Dictionary.mapValues, hfields, List.filterMap_map, List.map_filterMap]
    refine List.filterMap_congr fun x _ => ?_
    have hname : (x.respan erase).nameSpan = erase x.nameSpan := rfl
    rw [Function.comp_apply, hname]
    cases x.nameSpan <;> rfl
  rw [nameSpans, hpairs, Dictionary.ofList_mapValues, nameSpans]

namespace Draft

theorem missingType_erase (spec : Option ColumnSpec) (span : Option Span) (field : String) :
    missingType (spec.map (ColumnSpec.respan erase)) (span.map Span.erased) field =
      (missingType spec span field).respan erase := by
  have hspec : (spec.map (ColumnSpec.respan erase)).bind (·.span) = erase (spec.bind (·.span)) := by
    cases spec <;> rfl
  rw [missingType, hspec]
  cases span with
  | none => rfl
  | some s =>
    simp only [missingType, Option.map_some, Option.toList_some, List.map_cons, List.map_nil,
      Span.erased_stop, Diagnostic.respan, FixIt.respan, Span.erase_some, Span.erased_empty]

/-- The entry of a draft and its parameter, with other spans. -/
def respanEntry (f : Option Span → Option Span) (x : Entry × DraftParameter) :
    Entry × DraftParameter :=
  (x.1.respan f, x.2.respan f)

/-- What becomes of an entry, with other spans. -/
def respanResult (f : Option Span → Option Span) (x : Except Diagnostic (Entry × DraftParameter)) :
    Except Diagnostic (Entry × DraftParameter) :=
  (x.map (respanEntry f)).mapError (Diagnostic.respan f)

theorem ofEntry_erase (specs : List ColumnSpec) (spans : Dictionary String Span) (e : Entry) :
    ofEntry (specs.map (ColumnSpec.respan erase)) (spans.mapValues Span.erased)
        (e.respan erase) =
      respanResult erase (ofEntry specs spans e) := by
  have hfield : (e.column.respan erase).field = e.column.field := rfl
  have hcolumnType : (e.column.respan erase).type = e.column.type := rfl
  have hkey : (e.column.respan erase).isPrimaryKey = e.column.isPrimaryKey := rfl
  have hdefault : (e.column.respan erase).default = e.column.default.map (Expr.respan erase) := rfl
  have hspec : (specs.map (ColumnSpec.respan erase)).reverse.find? (·.name == e.column.field) =
      (specs.reverse.find? (·.name == e.column.field)).map (ColumnSpec.respan erase) := by
    rw [← List.map_reverse, List.find?_map]
    rfl
  have hentry : ({ e.respan erase with column :=
      { (e.column.respan erase).nullable with default := some .nil } } : Entry) =
        Entry.respan erase { e with column := { e.column.nullable with default := some .nil } } := by
    rw [Entry.respan_eq, Entry.respan_eq]
    rfl
  simp only [ofEntry, Entry.column_respan, hfield, hcolumnType, hkey, hdefault, hspec, hentry,
    Dictionary.get?_mapValues, missingType_erase]
  cases specs.reverse.find? (·.name == e.column.field) with
  | none =>
    simp only [Option.map_none]
    cases e.column.type with
    | none => rfl
    | some type => cases e.column.isPrimaryKey <;> rfl
  | some spec =>
    have htype : (spec.respan erase).type = spec.type := rfl
    simp only [Option.map_some, htype]
    cases spec.type with
    | none => rfl
    | some type => cases e.column.isPrimaryKey <;> rfl

theorem filterMap_errors_respan (f : Option Span → Option Span)
    {error? : Except Diagnostic (Entry × DraftParameter) → Option Diagnostic}
    (herror : ∀ d, error? (.error d) = some d) (hok : ∀ x, error? (.ok x) = none)
    (results : List (Except Diagnostic (Entry × DraftParameter))) :
    (results.map (respanResult f)).filterMap error? =
      (results.filterMap error?).map (Diagnostic.respan f) := by
  rw [List.filterMap_map, List.map_filterMap]
  refine List.filterMap_congr fun x _ => ?_
  cases x with
  | error d => rw [Function.comp_apply, herror, respanResult, Except.map, mapError_error, herror]; rfl
  | ok pair => rw [Function.comp_apply, hok, respanResult, Except.map, mapError_ok, hok]; rfl

theorem filterMap_toOption_respan (f : Option Span → Option Span)
    (results : List (Except Diagnostic (Entry × DraftParameter))) :
    (results.map (respanResult f)).filterMap Except.toOption =
      (results.filterMap Except.toOption).map (respanEntry f) := by
  rw [List.filterMap_map, List.map_filterMap]
  refine List.filterMap_congr fun x _ => ?_
  cases x <;> rfl

theorem ofCatalog_erase (catalog : Catalog) (specs : List ColumnSpec)
    (spans : Dictionary String Span) :
    ofCatalog (catalog.respan erase) (specs.map (ColumnSpec.respan erase))
        (spans.mapValues Span.erased) =
      ((ofCatalog catalog specs spans).1.map (Draft.respan erase),
        (ofCatalog catalog specs spans).2.map (Diagnostic.respan erase)) := by
  unfold ofCatalog
  rw [Catalog.primaryKey?_respan]
  cases catalog.primaryKey? with
  | none => rfl
  | some key =>
    have hwritable : (catalog.respan erase).entries.filter (·.column.isWritable) =
        (catalog.entries.filter (·.column.isWritable)).map (Entry.respan erase) := by
      have hcolumn : ((·.column.isWritable) ∘ Entry.respan erase) = (·.column.isWritable) :=
        funext fun e => by
          rw [Function.comp_apply, Entry.column_respan]
          rfl
      rw [Catalog.respan_eq, List.filter_map, hcolumn]
    have hresults : ((catalog.respan erase).entries.filter (·.column.isWritable)).map
        (ofEntry (specs.map (ColumnSpec.respan erase)) (spans.mapValues Span.erased)) =
          ((catalog.entries.filter (·.column.isWritable)).map (ofEntry specs spans)).map
            (respanResult erase) := by
      rw [hwritable, List.map_map, List.map_map]
      exact List.map_congr_left fun e _ => ofEntry_erase specs spans e
    have htypeName : (catalog.respan erase).typeName = catalog.typeName := by
      rw [Catalog.respan_eq]
    dsimp only [Option.map_some]
    rw [hresults, htypeName]
    generalize (catalog.entries.filter (·.column.isWritable)).map (ofEntry specs spans) = results
    rw [filterMap_errors_respan erase (fun _ => rfl) (fun _ => rfl), filterMap_toOption_respan,
      List.isEmpty_map]
    generalize results.filterMap Except.toOption = kept
    have hentries : (kept.map (respanEntry erase)).map (·.1) =
        (kept.map (·.1)).map (Entry.respan erase) := by
      simp only [List.map_map]
      rfl
    have hparameters : (kept.map (respanEntry erase)).map (·.2) =
        (kept.map (·.2)).map (DraftParameter.respan erase) := by
      simp only [List.map_map]
      rfl
    have hmarked : ((·.column.isPrimaryKey) ∘ Entry.respan erase) = (·.column.isPrimaryKey) :=
      funext fun e => by
        rw [Function.comp_apply, Entry.column_respan]
        rfl
    have hprimary : (((kept.map (·.1)).map (Entry.respan erase)).reverse.find?
        (·.column.isPrimaryKey)).getD (key.respan erase).nullable =
          (((kept.map (·.1)).reverse.find? (·.column.isPrimaryKey)).getD key.nullable).respan
            erase := by
      rw [← List.map_reverse, List.find?_map, hmarked, Entry.nullable_respan, Option.getD_map]
    rw [hentries, hparameters, hprimary]
    split
    · simp only [Option.map_some, Draft.respan, Catalog.respan_eq, List.map_nil]
    · rfl

end Draft

end RowSchema
