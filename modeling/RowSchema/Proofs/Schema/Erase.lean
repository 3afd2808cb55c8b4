import RowSchema.Proofs.Outline.Erase
import RowSchema.Proofs.Schema.Deriving

/-! # Derivations with other spans

A derivation from records that stand elsewhere goes the same way, step by step: it finds the same
records, puts the same keys into the cache, logs the same events and gives the same results and
diagnostics, up to spans. -/

namespace RowSchema

open RowSchema.Span (erase)

section

variable (f : Option Span → Option Span)

def Derived.respan (d : Derived) : Derived :=
  { d with
    record := d.record.respan f
    catalog := d.catalog.respan f
    draft := d.draft.map (Draft.respan f) }

/-- The derivation with each span `s` in its result and its diagnostics changed to `f s`. -/
def Derivation.respan (d : Derivation Derived) : Derivation Derived :=
  { d with
    result := d.result.map (Derived.respan f)
    diagnostics := d.diagnostics.map (Diagnostic.respan f) }

def Registry.respan (r : Registry) : Registry :=
  { r with records := r.records.mapValues (Record.respan f) }

def Progress.respan (p : Progress) : Progress :=
  { p with cache := p.cache.mapValues (Derivation.respan f) }

def Schema.respan (s : Schema) : Schema :=
  { s with registry := s.registry.respan f, progress := s.progress.respan f }

/-! ## Lookups -/

theorem Registry.key?_respan (r : Registry) (reference : Reference) :
    (r.respan f).key? reference = r.key? reference := by
  have hhas (k : Key) : (r.respan f).records.has k = r.records.has k := by
    rw [Dictionary.has, respan, Dictionary.get?_mapValues, Option.isSome_map, Dictionary.has]
  have hnames : (r.respan f).names = r.names := rfl
  cases reference with
  | name n => simp only [key?, hhas, hnames]
  | reflected id => simp only [key?, hhas]

theorem Registry.record?_respan (r : Registry) (reference : Reference) :
    (r.respan f).record? reference = (r.record? reference).map (Record.respan f) := by
  rw [record?, key?_respan, record?]
  cases r.key? reference with
  | none => rfl
  | some k => exact Dictionary.get?_mapValues _ r.records k

theorem Registry.contains_respan (r : Registry) (reference : Reference) :
    (r.respan f).contains reference = r.contains reference := by
  rw [contains, key?_respan, contains]

theorem groupReference_respan (owner : Record) (spec : ColumnSpec) (name : String) :
    groupReference (owner.respan f) (spec.respan f) name = groupReference owner spec name := by
  have hfind : ((owner.respan f).fields.filter (·.groupClass.isSome)).reverse.find?
      (·.name == spec.name) =
        ((owner.fields.filter (·.groupClass.isSome)).reverse.find? (·.name == spec.name)).map
          (Field.respan f) := by
    have hfields : (owner.respan f).fields = owner.fields.map (Field.respan f) := rfl
    rw [hfields, List.filter_map, ← List.map_reverse, List.find?_map]
    rfl
  have hname : (spec.respan f).name = spec.name := rfl
  unfold groupReference
  rw [hname, hfind]
  cases ((owner.fields.filter (·.groupClass.isSome)).reverse.find? (·.name == spec.name)) with
  | none => rfl
  | some x =>
    obtain ⟨_, _, _, _, _, _, _, _, _, _, _, group⟩ := x
    cases group <;> rfl

theorem Derivation.errors_respan (d : Derivation Derived) :
    (d.respan f).errors = d.errors.map (Diagnostic.respan f) :=
  Diagnostic.errors_respan f d.diagnostics

theorem Derivation.ok_respan (d : Derivation Derived) : (d.respan f).ok = d.ok := by
  rw [ok, respan, Option.isSome_map, ok]

theorem Derivation.ofDiagnostics_respan (name : String) (result : Option Derived)
    (ds : List Diagnostic) :
    ofDiagnostics name (result.map (Derived.respan f)) (ds.map (Diagnostic.respan f)) =
      (ofDiagnostics name result ds).respan f := by
  rw [ofDiagnostics, Diagnostic.hasErrors_respan, ofDiagnostics, respan]
  cases Diagnostic.hasErrors ds <;> rfl

theorem invalidGroup_respan (spec : ColumnSpec) (name : String) (d : Derivation Derived) :
    invalidGroup (spec.respan f) name (d.respan f) = (invalidGroup spec name d).respan f := by
  have htext (e : Diagnostic) : (e.respan f).text = e.text := rfl
  have hspan (e : Diagnostic) : (e.respan f).span = f e.span := rfl
  simp only [invalidGroup, Derivation.errors_respan, List.map_map, Function.comp_def, htext, hspan]
  simp only [groupFault, Diagnostic.respan, List.map_map]
  rfl

/-- The members of a group, with other spans. -/
def respanGroup (x : Except Diagnostic Group) : Except Diagnostic Group :=
  (x.map (Group.respan f)).mapError (Diagnostic.respan f)

end

/-! ## Steps -/

namespace Deriving

/-- From the same progress up to spans, `y` gives what `g` makes of what `x` gives, and the same
progress up to spans is left. -/
def Erases {α β : Type} (g : α → β) (x : Deriving α) (y : Deriving β) : Prop :=
  ∀ p : Progress, y.run.run (p.respan erase) =
    ((x.run.run p).1.map g, (x.run.run p).2.respan erase)

namespace Erases

variable {α β γ δ : Type} {g : α → β} {g' : γ → δ}

theorem pure (a : α) : Erases g (Pure.pure a) (Pure.pure (g a)) := fun _ => rfl

/-- A step that gives what the other one gives, changed. -/
theorem pure_of_eq {a : α} {b : β} (h : b = g a) : Erases g (Pure.pure a) (Pure.pure b) :=
  h ▸ pure a

theorem bind {x : Deriving α} {y : Deriving β} {k : α → Deriving γ} {k' : β → Deriving δ}
    (h : Erases g x y) (hk : ∀ a, Erases g' (k a) (k' (g a))) :
    Erases g' (x >>= k) (y >>= k') := by
  intro p
  rw [Takes.run_bind, Takes.run_bind, h p]
  rcases x.run.run p with ⟨_ | a, q⟩
  · rfl
  · exact hk a q

theorem noting {events events' : List Event} (h : events' = events) :
    Erases id (note events) (note events') := by
  subst h
  exact fun _ => rfl

theorem ofExcept {x : Except RangeError α} {y : Except RangeError β} (h : y = x.map g) :
    Erases g (MonadExcept.ofExcept x) (MonadExcept.ofExcept y) := by
  subst h
  intro p
  cases x <;> rfl

theorem get : Erases (Progress.respan erase) MonadState.get MonadState.get := fun _ => rfl

theorem update {u v : Progress → Progress} (h : ∀ p, v (p.respan erase) = (u p).respan erase) :
    Erases id (modify u : Deriving PUnit) (modify v) := by
  intro p
  exact Prod.ext rfl (h p)

theorem mapM {ι κ : Type} {k : ι → Deriving α} {k' : κ → Deriving β} {h : ι → κ} :
    ∀ {l : List ι}, (∀ a ∈ l, Erases g (k a) (k' (h a))) →
      Erases (List.map g) (l.mapM k) ((l.map h).mapM k')
  | [], _ => by
    rw [List.map_nil, List.mapM_nil, List.mapM_nil]
    exact pure []
  | a :: l, hl => by
    rw [List.map_cons, List.mapM_cons, List.mapM_cons]
    refine (hl a List.mem_cons_self).bind fun b => ?_
    refine (mapM fun c hc => hl c (List.mem_cons_of_mem _ hc)).bind fun bs => ?_
    exact pure (b :: bs)

end Erases

end Deriving

open Deriving

section

variable {registry : Registry} {settings : Options} {nested nested' : Nested} {owner r : Record}

/-- What derives records derives them in the same way wherever they stand. -/
def Nested.Erases (nested nested' : Nested) : Prop :=
  ∀ m, Deriving.Erases (Option.map (Derivation.respan erase)) (nested m) (nested' (m.respan erase))

theorem resolveGroup_erase (hn : Nested.Erases nested nested') (spec : ColumnSpec)
    (name : String) :
    Erases (respanGroup erase) (resolveGroup registry nested owner spec name)
      (resolveGroup (registry.respan erase) nested' (owner.respan erase) (spec.respan erase)
        name) := by
  unfold resolveGroup
  rw [groupReference_respan, Registry.record?_respan]
  cases registry.record? (groupReference owner spec name) with
  | none => exact .pure_of_eq rfl
  | some m =>
    refine (hn m).bind fun answer => ?_
    cases answer with
    | none => exact .pure_of_eq rfl
    | some d =>
      have hresult : (d.respan erase).result = d.result.map (Derived.respan erase) := rfl
      simp only [Option.map_some, hresult, invalidGroup_respan]
      cases d.result with
      | none => exact .pure_of_eq rfl
      | some x => exact .pure_of_eq rfl

theorem resolveField_erase (hn : Nested.Erases nested nested') (spec : ColumnSpec) :
    Erases (Resolution.respan erase) (resolveField registry nested owner spec)
      (resolveField (registry.respan erase) nested' (owner.respan erase) (spec.respan erase)) := by
  unfold resolveField
  rw [RecordOutline.groupName_respan]
  cases RecordOutline.groupName spec with
  | error d => exact .pure_of_eq rfl
  | ok name =>
    cases name with
    | none => exact .pure_of_eq rfl
    | some name =>
      refine (resolveGroup_erase hn spec name).bind fun x => ?_
      cases x <;> exact .pure_of_eq rfl

theorem resolveCase_erase (hn : Nested.Erases nested nested')
    (case : Except RangeError Resolved) :
    Erases (fun x : Resolved × Resolution => (Resolved.respan erase x.1, Resolution.respan erase x.2))
      (resolveCase registry nested owner case)
      (resolveCase (registry.respan erase) nested' (owner.respan erase)
        (case.map (Resolved.respan erase))) := by
  unfold resolveCase
  refine (Erases.ofExcept (g := Resolved.respan erase) rfl).bind fun resolved => ?_
  have hcontains (name : String) := registry.contains_respan erase (.name name)
  obtain ⟨_ | spec, ds⟩ := resolved
  · exact .pure_of_eq rfl
  · have hgroup : EnumOutline.groupName? (fun name => registry.contains (.name name))
        (spec.respan erase) =
          EnumOutline.groupName? (fun name => registry.contains (.name name)) spec := rfl
    simp only [Resolved.respan_some, Option.bind_some, hcontains, hgroup]
    cases EnumOutline.groupName? (fun name => registry.contains (.name name)) spec with
    | none => exact .pure_of_eq rfl
    | some name =>
      simp only [Option.map_some]
      refine (resolveGroup_erase hn spec name).bind fun x => ?_
      cases x with
      | error d => exact .pure_of_eq rfl
      | ok members =>
        refine (Erases.noting ?_).bind fun _ => .pure_of_eq rfl
        rw [Group.asGroup_respan, Group.planEvents_respan]

/-! ## Derivations -/

theorem draftOf_erase (outline : RecordOutline) (catalog : Catalog) :
    draftOf (r.respan erase) (outline.respan erase) (catalog.respan erase) =
      ((draftOf r outline catalog).1.map (Draft.respan erase),
        (draftOf r outline catalog).2.map (Diagnostic.respan erase)) := by
  have hprimary : (outline.respan erase).primary = outline.primary := rfl
  have hspecs : (outline.respan erase).specs = outline.specs.map (ColumnSpec.respan erase) := rfl
  simp only [draftOf, Record.isTable_respan, hprimary, hspecs, nameSpans_erase,
    Draft.ofCatalog_erase]
  split <;> rfl

/-- A result and diagnostics, with other spans. -/
def respanOutcome (f : Option Span → Option Span) (x : Option Derived × List Diagnostic) :
    Option Derived × List Diagnostic :=
  (x.1.map (Derived.respan f), x.2.map (Diagnostic.respan f))

theorem RecordOutline.primarySpec?_respan (f : Option Span → Option Span) (o : RecordOutline) :
    (o.respan f).primarySpec? = o.primarySpec?.map (ColumnSpec.respan f) := by
  simp only [primarySpec?, respan, List.getElem?_map, Option.map_bind]
  rfl

theorem deriveRecord_erase (hn : Nested.Erases nested nested') :
    Erases (respanOutcome erase) (deriveRecord registry settings nested r)
      (deriveRecord (registry.respan erase) settings nested' (r.respan erase)) := by
  have hkind : (r.respan erase).kind = r.kind := rfl
  have hname : (r.respan erase).name = r.name := rfl
  unfold deriveRecord
  rw [hkind]
  split
  · refine .pure_of_eq ?_
    simp only [respanOutcome, RecordOutline.notStruct, Record.role_respan]
    rfl
  refine (Erases.ofExcept (RecordOutline.ofRecord_erase settings r)).bind fun outline => ?_
  have hspecs : (outline.respan erase).specs = outline.specs.map (ColumnSpec.respan erase) := rfl
  have hrejected : (outline.respan erase).rejected =
      outline.rejected.map (ColumnSpec.respan erase) := rfl
  have hkey : (outline.respan erase).primarySpec?.map (·.name) =
      outline.primarySpec?.map (·.name) := by
    rw [RecordOutline.primarySpec?_respan, Option.map_map]
    rfl
  rw [hkey, hspecs, hrejected]
  refine (Erases.noting (by rw [List.map_map]; rfl)).bind fun _ => ?_
  refine (Erases.mapM fun spec _ => resolveField_erase hn spec).bind fun resolutions => ?_
  rw [RecordOutline.catalog_respan]
  obtain ⟨catalog, diagnostics⟩ := outline.catalog r resolutions
  have hlength : (catalog.respan erase).entries.length = catalog.entries.length := by
    rw [Catalog.respan_eq, List.length_map]
  have htypeName : (catalog.respan erase).typeName = catalog.typeName := by
    rw [Catalog.respan_eq]
  dsimp only
  rw [hlength, htypeName, Catalog.width_respan, Diagnostic.hasErrors_respan, hname]
  refine (Erases.noting rfl).bind fun _ => ?_
  split
  · exact .pure_of_eq rfl
  rw [draftOf_erase]
  obtain ⟨draft, draftDiagnostics⟩ := draftOf r outline catalog
  refine (Erases.noting ?_).bind fun _ => .pure_of_eq ?_
  · rw [Catalog.planEvents_respan, Catalog.leaves_respan, aliasesOf_respan]
    cases draft with
    | none => rfl
    | some d =>
      simp only [Option.map_some, Option.toList_some, List.map_cons, List.map_nil, Draft.respan,
        List.length_map]
  · simp only [respanOutcome, Option.map_some, List.map_append, Derived.respan, Group.respan]

theorem deriveEnum_erase (hn : Nested.Erases nested nested') :
    Erases (respanOutcome erase) (deriveEnum registry settings nested r)
      (deriveEnum (registry.respan erase) settings nested' (r.respan erase)) := by
  have hname : (r.respan erase).name = r.name := rfl
  unfold deriveEnum
  rw [EnumOutline.ofRecord_erase settings r]
  have hcases : ((EnumOutline.ofRecord settings r).respan erase).cases =
      (EnumOutline.ofRecord settings r).cases.map (Except.map (Resolved.respan erase)) := rfl
  dsimp only
  rw [hcases]
  refine (Erases.mapM fun case _ => resolveCase_erase hn case).bind fun resolved => ?_
  rw [EnumOutline.catalog_respan]
  obtain ⟨catalog, diagnostics⟩ := (EnumOutline.ofRecord settings r).catalog r resolved
  have hlength : (catalog.respan erase).cases.length = catalog.cases.length := by
    rw [EnumCatalog.respan_eq, List.length_map]
  have htypeName : (catalog.respan erase).typeName = catalog.typeName := by
    rw [EnumCatalog.respan_eq]
  dsimp only
  rw [hlength, htypeName, EnumCatalog.width_respan, Diagnostic.hasErrors_respan, hname]
  refine (Erases.noting rfl).bind fun _ => ?_
  split
  · exact .pure_of_eq rfl
  refine (Erases.noting ?_).bind fun _ => .pure_of_eq ?_
  · rw [EnumCatalog.leaves_respan, aliasesOf_respan]
  · simp only [respanOutcome, Option.map_some, Derived.respan, Group.respan, Option.map_none]

theorem deriveNew_erase (hn : Nested.Erases nested nested') :
    Erases (Derivation.respan erase) (deriveNew registry settings nested r)
      (deriveNew (registry.respan erase) settings nested' (r.respan erase)) := by
  have hkind : (r.respan erase).kind = r.kind := rfl
  have hname : (r.respan erase).name = r.name := rfl
  unfold deriveNew
  dsimp only
  rw [Record.isTable_respan, Record.isSelection_respan, hkind, hname]
  split
  · -- what is done with the outcome of either kind
    have hreport (outcome : Option Derived × List Diagnostic) :
        let report (outcome : Option Derived × List Diagnostic) : Deriving (Derivation Derived) := do
          let d := Derivation.ofDiagnostics r.name outcome.1
            (outcome.2.map (Diagnostic.within (some r.name)))
          note [if d.ok then .derived r.name else .failed r.name d.errors.length]
          return d
        Erases (Derivation.respan erase) (report outcome) (report (respanOutcome erase outcome)) := by
      simp only [respanOutcome, Diagnostic.map_within_respan, Derivation.ofDiagnostics_respan,
        Derivation.ok_respan, Derivation.errors_respan, List.length_map]
      exact (Erases.noting rfl).bind fun _ => .pure _
    split
    · exact (deriveEnum_erase hn).bind hreport
    · exact (deriveRecord_erase hn).bind hreport
  · refine .pure_of_eq ?_
    have h := Derivation.ofDiagnostics_respan erase r.name none
      ([unannotated r].map (Diagnostic.within (some r.name)))
    rw [← h]
    rfl

theorem deriveCached_erase (hn : Nested.Erases nested nested') :
    Erases (Derivation.respan erase) (deriveCached registry settings nested r)
      (deriveCached (registry.respan erase) settings nested' (r.respan erase)) := by
  have hname : (r.respan erase).name = r.name := rfl
  have hget (p : Progress) : (p.respan erase).cache.get? r.key =
      (p.cache.get? r.key).map (Derivation.respan erase) :=
    Dictionary.get?_mapValues _ p.cache r.key
  unfold deriveCached
  rw [Record.key_respan, hname]
  refine Erases.get.bind fun p => ?_
  rw [hget]
  cases p.cache.get? r.key with
  | some known => exact (Erases.noting rfl).bind fun _ => .pure known
  | none =>
    refine (deriveNew_erase hn).bind fun d => Erases.get.bind fun q => ?_
    rw [hget]
    cases q.cache.get? r.key with
    | some known => exact .pure known
    | none =>
      refine (Erases.update fun p => ?_).bind fun _ => ?_
      · simp only [Progress.respan, Dictionary.put_mapValues]
      · refine (Erases.noting ?_).bind fun _ => .pure d
        simp only [Derivation.respan, List.length_map]

/-- A derivation goes the same way from records that stand elsewhere. -/
theorem deriveWithin_erase : ∀ (depth : Nat) (closed : List Key) (r : Record),
    Erases (Derivation.respan erase) (deriveWithin registry settings depth closed r)
      (deriveWithin (registry.respan erase) settings depth closed (r.respan erase))
  | 0, _, _ => deriveCached_erase fun _ => .pure_of_eq rfl
  | depth + 1, closed, r => by
    rw [deriveWithin, deriveWithin]
    refine deriveCached_erase fun m => ?_
    rw [Record.key_respan, Record.key_respan]
    split
    · exact .pure_of_eq rfl
    · exact (deriveWithin_erase depth _ m).bind fun _ => .pure_of_eq rfl

end

end RowSchema
