import RowSchema.Proofs.Catalog.Width
import RowSchema.Proofs.Schema.Known

/-! # Plans of a schema

Whatever has been registered and derived, and in which order, every catalog that comes out of a
schema is sized: that of a record, that of its draft, and those of their groups at any depth. -/

namespace RowSchema

variable {registry : Registry} {settings : Options} {r : Record}

/-! ## Entries -/

/-- Every entry is that of a specification and of what it resolves to. -/
theorem RecordOutline.mem_entries {primary : Option Nat} {e : Entry}
    {numbered : List (ColumnSpec × Nat × Resolution)} :
    ∀ {seen : Dictionary String String}, e ∈ (RecordOutline.entries primary seen numbered).1 →
    ∃ spec i members, (spec, i, .ok members) ∈ numbered ∧
      e = RecordOutline.entry (primary == some i) spec members := by
  induction numbered with
  | nil =>
    intro seen he
    cases he
  | cons first rest ih =>
    intro seen he
    obtain ⟨spec, i, resolution⟩ := first
    obtain ⟨seen', front, own, heq, -, -, hfront⟩ :=
      RecordOutline.entries_cons primary seen spec i resolution rest
    rw [heq] at he
    rcases List.mem_append.mp he with he | he
    · obtain ⟨members, rfl, rfl⟩ := hfront e he
      exact ⟨spec, i, members, List.mem_cons_self, rfl⟩
    · obtain ⟨spec', i', members, hmem, rfl⟩ := ih he
      exact ⟨spec', i', members, List.mem_cons_of_mem _ hmem, rfl⟩

/-- Every entry of a case is that of a specification and of what it resolves to. -/
theorem EnumOutline.mem_entries {k : CaseEntry} {e : Entry} (he : k.payload = some e)
    {pairs : List (Resolved × Resolution)} :
    ∀ {seen : Dictionary String String}, k ∈ (EnumOutline.entries seen pairs).1 →
    ∃ resolved spec type members, (resolved, .ok members) ∈ pairs ∧ resolved.1 = some spec ∧
      spec.type = some type ∧ e = EnumOutline.entry spec type members := by
  induction pairs with
  | nil =>
    intro seen hk
    cases hk
  | cons first rest ih =>
    intro seen hk
    obtain ⟨resolved, resolution⟩ := first
    obtain ⟨seen', front, own, heq, -, -, hfront⟩ :=
      EnumOutline.entries_cons seen resolved resolution rest
    rw [heq] at hk
    rcases List.mem_append.mp hk with hk | hk
    · obtain ⟨spec, type, members, hspec, htype, rfl, rfl⟩ := hfront k hk e he
      exact ⟨resolved, spec, type, members, List.mem_cons_self, hspec, htype, rfl⟩
    · obtain ⟨resolved', spec, type, members, hmem, hrest⟩ := ih hk
      exact ⟨resolved', spec, type, members, List.mem_cons_of_mem _ hmem, hrest⟩

theorem RecordOutline.entry_sized {isPrimaryKey : Bool} {spec : ColumnSpec}
    {members : Option Group} (h : ∀ g, members = some g → g.Sized) :
    (RecordOutline.entry isPrimaryKey spec members).Sized := by
  cases members with
  | none => rw [RecordOutline.entry, Entry.Sized]
  | some g =>
    rw [RecordOutline.entry, Entry.Sized]
    exact ⟨rfl, (h g rfl).asGroup⟩

theorem EnumOutline.entry_sized {spec : ColumnSpec} {type : TypeRef} {members : Option Group}
    (h : ∀ g, members = some g → g.Sized) : (EnumOutline.entry spec type members).Sized := by
  cases members with
  | none => rw [EnumOutline.entry, Entry.Sized]
  | some g =>
    rw [EnumOutline.entry, Entry.Sized]
    exact ⟨rfl, (h g rfl).asGroup⟩

/-- The members of an entry of a draft are those of an entry of its table. -/
theorem Draft.ofEntry_members {specs : List ColumnSpec} {spans : Dictionary String Span}
    {e e' : Entry} {parameter : DraftParameter}
    (h : Draft.ofEntry specs spans e = .ok (e', parameter)) : e'.members = e.members := by
  unfold Draft.ofEntry at h
  extract_lets field spec declared at h
  clear_value declared
  cases declared with
  | none => cases h
  | some type =>
    dsimp only at h
    split at h <;> cases h <;> rfl

/-- An entry of a draft takes up what that of its table does. -/
theorem Draft.ofEntry_sized {specs : List ColumnSpec} {spans : Dictionary String Span}
    {e e' : Entry} {parameter : DraftParameter}
    (h : Draft.ofEntry specs spans e = .ok (e', parameter)) (he : e.Sized) : e'.Sized := by
  unfold Draft.ofEntry at h
  extract_lets field spec declared at h
  clear_value declared
  cases declared with
  | none => cases h
  | some type =>
    dsimp only at h
    split at h
    · cases h
      obtain ⟨column, members⟩ := e
      cases members with
      | none =>
        rw [Entry.Sized] at he ⊢
        exact he
      | some g =>
        rw [Entry.Sized] at he ⊢
        exact he
    · cases h
      exact he

/-- The entries and the parameters of a draft are made of the writable entries of its table, in
order. -/
theorem draftOf_kept {outline : RecordOutline} {catalog : Catalog} {draft : Draft}
    {diagnostics : List Diagnostic} (h : draftOf r outline catalog = (some draft, diagnostics)) :
    ∃ kept, List.Forall₂
        (fun e pair => Draft.ofEntry outline.specs (nameSpans r) e = .ok pair)
        (catalog.entries.filter (·.column.isWritable)) kept ∧
      draft.catalog.entries = kept.map (·.1) ∧ draft.parameters = kept.map (·.2) := by
  unfold draftOf at h
  split at h
  · unfold Draft.ofCatalog at h
    split at h
    · cases h
    · dsimp only at h
      split at h
      · rename_i hclean
        cases h
        exact ⟨_, forall₂_of_no_error (fun _ => rfl) (List.isEmpty_iff.mp hclean), rfl, rfl⟩
      · cases h
  · cases h

/-- Every entry of a draft is made of an entry of its table. -/
theorem mem_draftOf {outline : RecordOutline} {catalog : Catalog} {draft : Draft}
    {diagnostics : List Diagnostic} (h : draftOf r outline catalog = (some draft, diagnostics))
    {e' : Entry} (he' : e' ∈ draft.catalog.entries) : ∃ e ∈ catalog.entries, ∃ parameter,
      Draft.ofEntry outline.specs (nameSpans r) e = .ok (e', parameter) := by
  obtain ⟨kept, hkept, hentries, -⟩ := draftOf_kept h
  rw [hentries] at he'
  obtain ⟨pair, hpair, rfl⟩ := List.mem_map.mp he'
  obtain ⟨e, he, hentry⟩ := exists_left_of_mem hkept hpair
  exact ⟨e, (List.mem_filter.mp he).1, pair.2, hentry⟩

/-! ## Results -/

/-- The catalog and the draft are sized. -/
structure Derived.Sized (x : Derived) : Prop where
  catalog : x.catalog.Sized
  draft : ∀ draft, x.draft = some draft → draft.catalog.Sized

theorem Composes.record_eq {G : Record → Derived → Prop} {x : Derived}
    (h : Composes registry settings G r x) : x.record = r := by
  cases h <;> rfl

/-- Every entry of a struct is that of a specification and of what its field resolves to. -/
theorem Composes.mem_entries {G : Record → Derived → Prop} {x : Derived}
    (h : Composes registry settings G r x) {c : Catalog} (hc : x.catalog = .record c) {e : Entry}
    (he : e ∈ c.entries) : ∃ isPrimaryKey spec members,
      e = RecordOutline.entry isPrimaryKey spec members ∧
      FieldResolves registry G r spec members ∧
      ∃ outline, RecordOutline.ofRecord settings r = .ok outline ∧ spec ∈ outline.specs := by
  cases h with
  | @struct outline members _ _ _ _ _ _ outlined resolved built =>
    cases hc
    have hcat : (outline.catalog r (members.map .ok)).1 = c := congrArg Prod.fst built
    rw [← hcat] at he
    obtain ⟨spec, i, resolution, hstep, rfl⟩ := RecordOutline.mem_entries he
    have hpair := mem_zip_of_mem_zip_zip hstep
    rw [List.zip_map_right] at hpair
    obtain ⟨⟨spec', members'⟩, hmem, heq⟩ := List.mem_map.mp hpair
    cases heq
    exact ⟨_, _, _, rfl, (List.forall₂_iff_zip.mp resolved).2 hmem, outline, outlined,
      (List.of_mem_zip hmem).1⟩
  | enum => cases hc

/-- Every entry of an enum is that of a specification and of what its case resolves to. -/
theorem Composes.mem_cases {G : Record → Derived → Prop} {x : Derived}
    (h : Composes registry settings G r x) {c : EnumCatalog} (hc : x.catalog = .enum c)
    {k : CaseEntry} (hk : k ∈ c.cases) {e : Entry} (he : k.payload = some e) :
    ∃ resolved spec type members, resolved.1 = some spec ∧ spec.type = some type ∧
      e = EnumOutline.entry spec type members ∧ CaseResolves registry G r resolved members := by
  cases h with
  | struct => cases hc
  | @enum pairs _ _ _ _ resolved built =>
    cases hc
    have hcat : ((EnumOutline.ofRecord settings r).catalog r (pairs.map (Prod.map id .ok))).1 =
        c := congrArg Prod.fst built
    rw [← hcat] at hk
    obtain ⟨_, spec, type, members, hpair, hspec, htype, rfl⟩ := EnumOutline.mem_entries he hk
    obtain ⟨⟨resolved', members'⟩, hmem, hok⟩ := List.mem_map.mp hpair
    cases hok
    obtain ⟨case, -, -, hmembers⟩ := exists_left_of_mem resolved hmem
    exact ⟨resolved', spec, type, _, hspec, htype, rfl, hmembers⟩

/-- The members of every entry are the catalog, made a group, of the record that the entry stands
for. -/
theorem Composes.entries_members {G : Record → Derived → Prop} {x : Derived}
    (h : Composes registry settings G r x) {e : Entry} (he : e ∈ x.catalog.entries) {g : Group}
    (hg : e.members = some g) : ∃ member y, registry.groupRecord? r e = some member ∧
      G member y ∧ g = y.catalog.asGroup := by
  cases hx : x.catalog with
  | record c =>
    rw [hx] at he
    obtain ⟨_, spec, members, rfl, hmembers, -⟩ := h.mem_entries hx he
    cases members with
    | none => cases hg
    | some g' =>
      cases hg
      obtain ⟨name, hname, member, y, hfound, hy, rfl⟩ := hmembers
      obtain ⟨-, t, htype, rfl⟩ := RecordOutline.groupName_eq.mp hname
      refine ⟨member, y, ?_, hy, rfl⟩
      simp only [Registry.groupRecord?, RecordOutline.entry, htype, Option.bind_some]
      exact hfound
  | enum c =>
    rw [hx] at he
    obtain ⟨k, hk, hpayload⟩ := List.mem_filterMap.mp he
    obtain ⟨e', he', rfl⟩ := Option.map_eq_some_iff.mp hpayload
    obtain ⟨resolved, spec, type, members, hspec, htype, rfl, hmembers⟩ := h.mem_cases hx hk he'
    cases members with
    | none => cases hg
    | some g' =>
      cases hg
      obtain ⟨spec', name, hname, member, y, hfound, hy, rfl⟩ := hmembers
      obtain ⟨hspec', -, t, htype', rfl, -⟩ := caseGroup_eq.mp hname
      rw [hspec] at hspec'
      cases hspec'
      rw [htype] at htype'
      cases htype'
      exact ⟨member, y, hfound, hy, rfl⟩

/-- Every entry of a draft is made of an entry of its table. -/
theorem Composes.mem_draft {G : Record → Derived → Prop} {x : Derived}
    (h : Composes registry settings G r x) {draft : Draft} (hd : x.draft = some draft) {e' : Entry}
    (he' : e' ∈ draft.catalog.entries) : ∃ specs spans parameter, ∃ e ∈ x.catalog.entries,
      Draft.ofEntry specs spans e = .ok (e', parameter) := by
  cases h with
  | struct _ _ _ _ _ _ drafted =>
    obtain rfl := hd
    obtain ⟨e, he, parameter, hentry⟩ := mem_draftOf drafted he'
    exact ⟨_, _, parameter, e, he, hentry⟩
  | enum => cases hd

/-- What composes from sized catalogs is sized. -/
theorem Composes.sized {x : Derived}
    (h : Composes registry settings (fun _ y => y.Sized) r x) : x.Sized := by
  have hcatalog : x.catalog.Sized := by
    cases hx : x.catalog with
    | record c =>
      rw [Group.Sized, Catalog.sized_iff]
      intro e he
      obtain ⟨_, spec, members, rfl, hmembers, -⟩ := h.mem_entries hx he
      refine RecordOutline.entry_sized ?_
      rintro g rfl
      obtain ⟨name, -, member, y, -, hy, rfl⟩ := hmembers
      exact hy.catalog
    | enum c =>
      rw [Group.Sized, EnumCatalog.sized_iff]
      intro k hk
      obtain ⟨name, label, payload⟩ := k
      cases payload with
      | none =>
        rw [CaseEntry.Sized]
        trivial
      | some e =>
        obtain ⟨resolved, spec, type, members, -, -, rfl, hmembers⟩ := h.mem_cases hx hk rfl
        rw [CaseEntry.Sized]
        refine EnumOutline.entry_sized ?_
        rintro g rfl
        obtain ⟨spec', name, -, member, y, -, hy, rfl⟩ := hmembers
        exact hy.catalog
  refine ⟨hcatalog, fun draft hd => ?_⟩
  rw [Catalog.sized_iff]
  intro e' he'
  obtain ⟨specs, spans, parameter, e, he, hentry⟩ := h.mem_draft hd he'
  exact Draft.ofEntry_sized hentry (hcatalog.of_mem_entries he)

namespace Schema

variable {s : Schema}

/-- What holds, under the settings of a schema, of everything that composes from results for which
it holds is true of all that is kept, in a schema that may have been extended between derivations,
and of all further results. -/
theorem Reachable.results_under {P : Options → Derived → Prop}
    (hP : ∀ registry settings r x,
      Composes registry settings (fun _ y => P settings y) r x → P settings x)
    (h : s.Reachable) :
    Known (fun _ d => ∀ x, d.result = some x → P s.settings x) s.progress.cache ∧
      ∀ reference x, s.Yields reference x → P s.settings x := by
  have hrun : ∀ t : Schema, ∀ r,
      Known (fun _ d => ∀ x, d.result = some x → P t.settings x) t.progress.cache →
      Known (fun _ d => ∀ x, d.result = some x → P t.settings x)
          (t.deriveRecord r).2.progress.cache ∧
        ∀ d, (t.deriveRecord r).1 = .ok d → ∀ x, d.result = some x → P t.settings x := by
    intro t r hknown
    have hmeets := deriveWithin_result (hP t.registry t.settings)
      t.registry.records.length [] r
    exact ⟨(hmeets t.progress hknown).1, (hmeets t.progress hknown).2.1⟩
  have hknown : Known (fun _ d => ∀ x, d.result = some x → P s.settings x) s.progress.cache := by
    refine (Reachable.keeps (P := fun t => Known (fun _ d => ∀ x, d.result = some x →
      P t.settings x) t.progress.cache) ?_ ?_ ?_ h).1
    · intro settings k d hd
      cases hd
    · intro t u r ht hr
      obtain ⟨-, hsettings, hprogress⟩ := register_eq_ok hr
      rw [hsettings, hprogress]
      exact ht
    · intro t r ht _
      exact (hrun t r ht).1
  refine ⟨hknown, ?_⟩
  rintro reference x ⟨d, t, hd, hx⟩
  obtain ⟨r, hr, hd⟩ := Option.map_eq_some_iff.mp hd
  exact (hrun s r hknown).2 d (congrArg Prod.fst hd) x hx

/-- What holds of everything that composes from results for which it holds is true of all that is
kept and of all further results. -/
theorem Reachable.results {P : Derived → Prop}
    (hP : ∀ registry settings r x, Composes registry settings (fun _ y => P y) r x → P x)
    (h : s.Reachable) :
    Known (fun _ d => ∀ x, d.result = some x → P x) s.progress.cache ∧
      ∀ reference x, s.Yields reference x → P x :=
  h.results_under (P := fun _ => P) hP

theorem Reachable.sized (h : s.Reachable) {reference : Reference} {x : Derived}
    (hx : s.Yields reference x) : x.Sized :=
  (h.results fun _ _ _ _ => Composes.sized).2 reference x hx

/-- The catalogs that rows are decoded by: those of results and their drafts, and those of their
groups, at any depth. -/
inductive Plan (s : Schema) : Group → Prop
  | catalog {reference : Reference} {x : Derived} (h : s.Yields reference x) : Plan s x.catalog
  | draft {reference : Reference} {x : Derived} {draft : Draft} (h : s.Yields reference x)
      (hd : x.draft = some draft) : Plan s (.record draft.catalog)
  | members {g members : Group} {e : Entry} (h : Plan s g) (he : e ∈ g.entries)
      (hm : e.members = some members) : Plan s members

theorem Plan.sized (hs : s.Reachable) {g : Group} (h : s.Plan g) : g.Sized := by
  induction h with
  | catalog h => exact (hs.sized h).catalog
  | draft h hd =>
    rw [Group.Sized]
    exact (hs.sized h).draft _ hd
  | members _ he hm ih => exact (ih.of_mem_entries he).members hm

end Schema

end RowSchema
