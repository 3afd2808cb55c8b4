import RowSchema.Proofs.Schema.Outcome

/-! # What a result is made of

A record composes a result if its own declaration is in order and each of its column groups has the
catalog of a result of the group's record. If what is said of the groups lies between `H` and `G`,
the result of the record lies between what it composes from `H` and what it composes from `G`. -/

namespace RowSchema

variable {registry : Registry} {settings : Options} {r : Record}

/-- The catalog of a group that a record refers to as `name`, where `G` relates records to their
results. -/
def ResolvesTo (registry : Registry) (G : Record → Derived → Prop) (r : Record) (spec : ColumnSpec)
    (name : String) (g : Group) : Prop :=
  ∃ member derived, registry.record? (groupReference r spec name) = some member ∧
    G member derived ∧ g = derived.catalog

/-- The record that a column group of `r` stands for. -/
def Registry.groupRecord? (registry : Registry) (r : Record) (e : Entry) : Option Record :=
  e.column.type.bind fun t => registry.record?
    (groupReference r { name := e.column.field, type := e.column.type } t.name)

/-- The members of a field: none for a plain column. -/
def FieldResolves (registry : Registry) (G : Record → Derived → Prop) (r : Record)
    (spec : ColumnSpec) : Option Group → Prop
  | none => RecordOutline.groupName spec = .ok none
  | some g => ∃ name, RecordOutline.groupName spec = .ok (some name) ∧
      ResolvesTo registry G r spec name g

/-- The group that a case asks for. -/
def caseGroup (registry : Registry) (resolved : Resolved) : Option (ColumnSpec × String) :=
  resolved.1.bind fun spec =>
    (EnumOutline.groupName? (fun name => registry.contains (.name name)) spec).map (spec, ·)

/-- The members of a case: none if its associated value is no record. -/
def CaseResolves (registry : Registry) (G : Record → Derived → Prop) (r : Record)
    (resolved : Resolved) : Option Group → Prop
  | none => caseGroup registry resolved = none
  | some g => ∃ spec name, caseGroup registry resolved = some (spec, name) ∧
      ResolvesTo registry G r spec name g

/-- The results that a record composes from the results of its groups. -/
inductive Composes (registry : Registry) (settings : Options) (G : Record → Derived → Prop)
    (r : Record) : Derived → Prop
  | struct {outline : RecordOutline} {members : List (Option Group)} {catalog : Catalog}
      {draft : Option Draft} {diagnostics draftDiagnostics : List Diagnostic}
      (annotated : (r.isTable || r.isSelection) = true) (kind : r.kind = .struct)
      (outlined : RecordOutline.ofRecord settings r = .ok outline)
      (resolved : List.Forall₂ (FieldResolves registry G r) outline.specs members)
      (built : outline.catalog r (members.map .ok) = (catalog, diagnostics))
      (clean : Diagnostic.hasErrors diagnostics = false)
      (drafted : draftOf r outline catalog = (draft, draftDiagnostics))
      (draftClean : Diagnostic.hasErrors draftDiagnostics = false) :
      Composes registry settings G r
        { record := r, catalog := .record catalog, draft, policy := settings.policy }
  | enum {pairs : List (Resolved × Option Group)} {catalog : EnumCatalog}
      {diagnostics : List Diagnostic}
      (annotated : (r.isTable || r.isSelection) = true) (kind : r.kind = .enum)
      (resolved : List.Forall₂ (fun case pair => case = .ok pair.1 ∧
        CaseResolves registry G r pair.1 pair.2) (EnumOutline.ofRecord settings r).cases pairs)
      (built : (EnumOutline.ofRecord settings r).catalog r (pairs.map (Prod.map id .ok)) =
        (catalog, diagnostics))
      (clean : Diagnostic.hasErrors diagnostics = false) :
      Composes registry settings G r
        { record := r, catalog := .enum catalog, policy := settings.policy }

/-! ## More results of the groups -/

section Monotone

variable {G H : Record → Derived → Prop} (hHG : ∀ m x, H m x → G m x)

include hHG

theorem ResolvesTo.mono {spec : ColumnSpec} {name : String} {g : Group}
    (h : ResolvesTo registry H r spec name g) : ResolvesTo registry G r spec name g := by
  obtain ⟨member, derived, hfound, hder, hg⟩ := h
  exact ⟨member, derived, hfound, hHG member derived hder, hg⟩

theorem FieldResolves.mono {spec : ColumnSpec} {members : Option Group}
    (h : FieldResolves registry H r spec members) : FieldResolves registry G r spec members := by
  cases members with
  | none => exact h
  | some g =>
    obtain ⟨name, hname, hres⟩ := h
    exact ⟨name, hname, hres.mono hHG⟩

theorem CaseResolves.mono {resolved : Resolved} {members : Option Group}
    (h : CaseResolves registry H r resolved members) :
    CaseResolves registry G r resolved members := by
  cases members with
  | none => exact h
  | some g =>
    obtain ⟨spec, name, hname, hres⟩ := h
    exact ⟨spec, name, hname, hres.mono hHG⟩

theorem Composes.mono {x : Derived} (h : Composes registry settings H r x) :
    Composes registry settings G r x := by
  cases h with
  | struct annotated kind outlined resolved built clean drafted draftClean =>
    exact .struct annotated kind outlined (resolved.imp fun _ _ => FieldResolves.mono hHG) built
      clean drafted draftClean
  | enum annotated kind resolved built clean =>
    exact .enum annotated kind (resolved.imp fun _ _ h => ⟨h.1, h.2.mono hHG⟩) built clean

end Monotone

/-! ## What is asked for -/

theorem FieldResolves.of_ok_none {spec : ColumnSpec} {members : Option Group}
    (hname : RecordOutline.groupName spec = .ok none)
    (h : FieldResolves registry G r spec members) : members = none := by
  cases members with
  | none => rfl
  | some g =>
    obtain ⟨name, hname', -⟩ := h
    rw [hname] at hname'
    cases hname'

theorem FieldResolves.of_ok_some {spec : ColumnSpec} {name : String} {members : Option Group}
    (hname : RecordOutline.groupName spec = .ok (some name))
    (h : FieldResolves registry G r spec members) :
    ∃ g, members = some g ∧ ResolvesTo registry G r spec name g := by
  cases members with
  | none =>
    rw [FieldResolves, hname] at h
    cases h
  | some g =>
    obtain ⟨name', hname', hg⟩ := h
    rw [hname] at hname'
    cases hname'
    exact ⟨g, rfl, hg⟩

theorem not_fieldResolves {spec : ColumnSpec} {members : Option Group} {d : Diagnostic}
    (hname : RecordOutline.groupName spec = .error d) :
    ¬ FieldResolves registry G r spec members := by
  intro h
  cases members with
  | none =>
    rw [FieldResolves, hname] at h
    cases h
  | some g =>
    obtain ⟨name, hname', -⟩ := h
    rw [hname] at hname'
    cases hname'

theorem CaseResolves.of_none {resolved : Resolved} {members : Option Group}
    (hgroup : caseGroup registry resolved = none)
    (h : CaseResolves registry G r resolved members) : members = none := by
  cases members with
  | none => rfl
  | some g =>
    obtain ⟨spec, name, hgroup', -⟩ := h
    rw [hgroup] at hgroup'
    cases hgroup'

theorem CaseResolves.of_some {resolved : Resolved} {spec : ColumnSpec} {name : String}
    {members : Option Group} (hgroup : caseGroup registry resolved = some (spec, name))
    (h : CaseResolves registry G r resolved members) :
    ∃ g, members = some g ∧ ResolvesTo registry G r spec name g := by
  cases members with
  | none =>
    rw [CaseResolves, hgroup] at h
    cases h
  | some g =>
    obtain ⟨spec', name', hgroup', hg⟩ := h
    rw [hgroup] at hgroup'
    cases hgroup'
    exact ⟨g, rfl, hg⟩

theorem ResolvesTo.of_found {spec : ColumnSpec} {name : String} {member : Record} {g : Group}
    (hfound : registry.record? (groupReference r spec name) = some member)
    (h : ResolvesTo registry G r spec name g) :
    ∃ derived, G member derived ∧ g = derived.catalog := by
  obtain ⟨member', derived, hmember, hG, rfl⟩ := h
  rw [hfound] at hmember
  cases hmember
  exact ⟨derived, hG, rfl⟩

/-! ## Entries and their diagnostics -/

/-- What a field adds to the entries after it. -/
theorem RecordOutline.entries_cons (primary : Option Nat) (seen : Dictionary String String)
    (spec : ColumnSpec) (i : Nat) (resolution : Resolution)
    (rest : List (ColumnSpec × Nat × Resolution)) :
    ∃ seen' front own, RecordOutline.entries primary seen ((spec, i, resolution) :: rest) =
        (front ++ (RecordOutline.entries primary seen' rest).1,
          own ++ (RecordOutline.entries primary seen' rest).2) ∧
      (∀ d, resolution = .error d → d ∈ own) ∧
      (∀ d ∈ own, resolution = .error d ∨ ∃ name owner, d = nameTaken spec name owner) ∧
      ∀ e ∈ front, ∃ members, resolution = .ok members ∧
        e = RecordOutline.entry (primary == some i) spec members := by
  cases resolution with
  | error d =>
    refine ⟨seen, [], [d], ?_, ?_, ?_, ?_⟩
    · rw [RecordOutline.entries]
      rfl
    · intro d' h
      cases h
      exact List.mem_singleton_self d
    · intro d' h
      rw [List.mem_singleton.mp h]
      exact .inl rfl
    · intro e h
      cases h
  | ok members =>
    rw [RecordOutline.entries]
    dsimp only
    split
    · refine ⟨seen, [], [_], rfl, ?_, ?_, ?_⟩
      · intro d h
        cases h
      · intro d h
        exact .inr ⟨_, _, List.mem_singleton.mp h⟩
      · intro e h
        cases h
    · refine ⟨_, [_], [], rfl, ?_, ?_, ?_⟩
      · intro d h
        cases h
      · intro d h
        cases h
      · intro e h
        exact ⟨members, rfl, List.mem_singleton.mp h⟩

/-- What a case adds to the entries after it. -/
theorem EnumOutline.entries_cons (seen : Dictionary String String) (resolved : Resolved)
    (resolution : Resolution) (rest : List (Resolved × Resolution)) :
    ∃ seen' front own, EnumOutline.entries seen ((resolved, resolution) :: rest) =
        (front ++ (EnumOutline.entries seen' rest).1,
          resolved.2 ++ own ++ (EnumOutline.entries seen' rest).2) ∧
      (∀ spec d, resolved.1 = some spec → resolution = .error d → d ∈ own) ∧
      (∀ d ∈ own, resolution = .error d ∨
        ∃ spec name owner, resolved.1 = some spec ∧ d = nameTaken spec name owner) ∧
      ∀ k ∈ front, ∀ e, k.payload = some e → ∃ spec type members, resolved.1 = some spec ∧
        spec.type = some type ∧ resolution = .ok members ∧
        e = EnumOutline.entry spec type members := by
  obtain ⟨spec, before⟩ := resolved
  cases spec with
  | none =>
    refine ⟨seen, [], [], ?_, ?_, ?_, ?_⟩
    · rw [EnumOutline.entries]
      simp
    · intro spec d h
      cases h
    · intro d h
      cases h
    · intro k h
      cases h
  | some spec =>
    rw [EnumOutline.entries.eq_def]
    dsimp only
    split
    · rename_i d
      refine ⟨seen, [], [d], ?_, ?_, ?_, ?_⟩
      · simp
      · intro spec' d' _ h
        cases h
        exact List.mem_singleton_self d
      · intro d' h
        rw [List.mem_singleton.mp h]
        exact .inl rfl
      · intro k h
        cases h
    · refine ⟨seen, [⟨spec.name, spec.label, none⟩], [], by simp, ?_, ?_, ?_⟩
      · intro spec' d _ h
        cases h
      · intro d h
        cases h
      · intro k hk e he
        rw [List.mem_singleton.mp hk] at he
        cases he
    · rename_i members type htype
      split
      · refine ⟨seen, [], [_], by simp; rfl, ?_, ?_, ?_⟩
        · intro spec' d _ h
          cases h
        · intro d h
          exact .inr ⟨_, _, _, rfl, List.mem_singleton.mp h⟩
        · intro k h
          cases h
      · refine ⟨_, [⟨spec.name, spec.label, some (EnumOutline.entry spec type members)⟩], [],
          by simp; exact ⟨rfl, rfl⟩, ?_, ?_, ?_⟩
        · intro spec' d _ h
          cases h
        · intro d h
          cases h
        · intro k hk e he
          rw [List.mem_singleton.mp hk] at he
          cases he
          exact ⟨spec, type, members, rfl, htype, rfl, rfl⟩

end RowSchema
