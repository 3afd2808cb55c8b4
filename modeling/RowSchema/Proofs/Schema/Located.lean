import RowSchema.Proofs.Reader.Spans
import RowSchema.Proofs.Schema.AllDerived
import RowSchema.Proofs.Schema.FixIts

/-! # Where diagnostics point

Each diagnostic has the span of what it is about: the record, one of its attributes, fields or
cases, or a part of one of these. So where all that the records declare has spans in a text, every
diagnostic points into the text, and so does every note beside it. -/

namespace RowSchema

/-- There is a span, and it satisfies `I`. -/
def SpanIn (I : Span → Prop) (span : Option Span) : Prop := ∃ s, span = some s ∧ I s

/-- The attribute and its arguments have such spans. -/
structure Attribute.Located (I : Span → Prop) (a : Attribute) : Prop where
  span : SpanIn I a.span
  arguments : ∀ b ∈ a.arguments, SpanIn I b.span

structure Field.Located (I : Span → Prop) (f : Field) : Prop where
  span : SpanIn I f.span
  binding : SpanIn I f.bindingSpan
  name : SpanIn I f.nameSpan
  attributes : ∀ a ∈ f.attributes, a.Located I

structure Case.Located (I : Span → Prop) (c : Case) : Prop where
  span : SpanIn I c.span
  payloads : ∀ p ∈ c.payloads, SpanIn I p.span
  attributes : ∀ a ∈ c.attributes, a.Located I

structure Record.Located (I : Span → Prop) (r : Record) : Prop where
  span : SpanIn I r.span
  attributes : ∀ a ∈ r.attributes, a.Located I
  fields : ∀ f ∈ r.fields, f.Located I
  cases : ∀ c ∈ r.cases, c.Located I

/-- The diagnostic and its notes have such spans. -/
structure Diagnostic.Located (I : Span → Prop) (d : Diagnostic) : Prop where
  span : SpanIn I d.span
  notes : ∀ note ∈ d.notes, SpanIn I note.span

/-- All diagnostics of the derivation have such spans. -/
def Derivation.Located {α : Type} (I : Span → Prop) (d : Derivation α) : Prop :=
  ∀ report ∈ d.diagnostics, report.Located I

/-! ## Records of a text -/

theorem Argument.mem_inner {b : Argument} {arguments : List Argument} (h : b ∈ arguments) :
    b ∈ Argument.inner arguments := by
  induction arguments with
  | nil => cases h
  | cons first rest ih =>
    obtain ⟨label, value, span⟩ := first
    rw [Argument.inner]
    rcases List.mem_cons.mp h with rfl | h
    · exact List.mem_cons_self
    · exact List.mem_cons_of_mem _ (List.mem_append_right _ (ih h))

section

variable {source : String} {span outer : Span}

theorem Attribute.PlacedIn.located {attributes : List Attribute}
    (h : Attribute.PlacedIn source outer attributes) :
    ∀ a ∈ attributes, a.Located (·.Inside outer) := by
  intro a ha
  obtain ⟨s, hs, hspan, -, harguments⟩ := h a ha
  exact ⟨⟨s, hspan, hs⟩, fun b hb => (harguments.mono hs) b (Argument.mem_inner hb)⟩

theorem Record.Placed.located {r : Record} (h : r.Placed source span) (hspan : span.Inside outer) :
    r.Located (·.Inside outer) := by
  refine ⟨⟨span, h.span_eq, hspan⟩, (h.attributes.mono hspan).located, fun f hf => ?_,
    fun c hc => ?_⟩
  · obtain ⟨s, hs, hfield⟩ := h.fields f hf
    have hs := hs.trans hspan
    obtain ⟨t, ht, hin, -⟩ := hfield.binding
    obtain ⟨u, hu, hname, -⟩ := hfield.name
    exact ⟨⟨s, hfield.span_eq, hs⟩, ⟨t, ht, hin.trans hs⟩, ⟨u, hu, hname.trans hs⟩,
      (hfield.attributes.mono hs).located⟩
  · obtain ⟨⟨s, hs, hcase⟩, hattributes⟩ := h.cases c hc
    have hs := hs.trans hspan
    refine ⟨⟨s, hcase.span_eq, hs⟩, fun p hp => ?_, (hattributes.mono hspan).located⟩
    obtain ⟨t, hin, hpayload⟩ := hcase.payloads p hp
    exact ⟨t, hpayload.span_eq, hin.trans hs⟩

/-- All that is read from a text has spans in the text. -/
theorem Record.located_of_readAll {records : List Record}
    (h : Record.readAll source = .ok records) :
    ∀ r ∈ records, r.Located (·.Inside ⟨0, source.toList.length⟩) := by
  intro r hr
  obtain ⟨span, hspan, hrecord⟩ := Record.exists_placed_of_readAll h hr
  exact hrecord.located hspan

end

variable {I : Span → Prop}

/-! ## Diagnostics -/

theorem Span.orElse_in {s other chosen : Option Span} (hs : SpanIn I s) (hother : SpanIn I other)
    (h : Span.orElse s other = .ok chosen) : SpanIn I chosen := by
  obtain ⟨x, rfl, hx⟩ := hs
  obtain ⟨isEmpty, -, rfl⟩ := map_eq_ok.mp h
  split
  · exact hother
  · exact ⟨x, rfl, hx⟩

theorem Diagnostic.Located.within {d : Diagnostic} (h : d.Located I) (typeName : Option String) :
    (d.within typeName).Located I := ⟨h.span, h.notes⟩

/-- A diagnostic without notes. -/
theorem Diagnostic.Located.bare {d : Diagnostic} (h : SpanIn I d.span) (hnotes : d.notes = []) :
    d.Located I := by
  refine ⟨h, fun note hnote => ?_⟩
  rw [hnotes] at hnote
  cases hnote

theorem Diagnostic.located_singleton {d : Diagnostic} (h : SpanIn I d.span)
    (hnotes : d.notes = []) : ∀ report ∈ [d], report.Located I :=
  List.forall_mem_singleton.mpr (Diagnostic.Located.bare h hnotes)

theorem located_map {α : Type} {f : α → Diagnostic} {l : List α}
    (h : ∀ a ∈ l, (f a).Located I) : ∀ d ∈ l.map f, d.Located I := by
  intro d hd
  obtain ⟨a, ha, rfl⟩ := List.mem_map.mp hd
  exact h a ha

theorem located_flatMap {α : Type} {f : α → List Diagnostic} {l : List α}
    (h : ∀ a ∈ l, ∀ d ∈ f a, d.Located I) : ∀ d ∈ l.flatMap f, d.Located I := by
  intro d hd
  obtain ⟨a, ha, hd⟩ := List.mem_flatMap.mp hd
  exact h a ha d hd

section

variable {argument : Argument} (h : SpanIn I argument.span)

include h

theorem misplaced_located (a : Attribute) (i : Nat) (field : Option String) (message : String) :
    (misplaced a i argument field message).Located I := Diagnostic.Located.bare h rfl

theorem unfit_located (field : Option String) (message : String) :
    (unfit argument field message).Located I := Diagnostic.Located.bare h rfl

theorem nonEmptyString_located {field : Option String} {d : Diagnostic}
    (hd : nonEmptyString argument field = .error d) : d.Located I := by
  unfold nonEmptyString at hd
  split at hd
  · split at hd <;> cases hd
    exact unfit_located h _ _
  · cases hd
    exact unfit_located h _ _

end

/-! ## Table options -/

theorem TableOptions.ofArguments_located {attr : Attribute} : ∀ {arguments : List (Argument × Nat)},
    (∀ pair ∈ arguments, SpanIn I pair.1.span) → ∀ options : TableOptions,
      ∀ d ∈ (TableOptions.ofArguments attr options arguments).2, d.Located I
  | [], _, _ => List.forall_mem_nil _
  | (argument, i) :: rest, h, options => by
    obtain ⟨hfirst, hrest⟩ := List.forall_mem_cons.mp h
    rw [TableOptions.ofArguments]
    refine List.forall_mem_append.mpr ⟨?_, TableOptions.ofArguments_located hrest _⟩
    split
    · split
      · exact List.forall_mem_nil _
      · next hname => exact List.forall_mem_singleton.mpr (nonEmptyString_located hfirst hname)
    · split
      · exact List.forall_mem_nil _
      · next hname => exact List.forall_mem_singleton.mpr (nonEmptyString_located hfirst hname)
    · exact List.forall_mem_singleton.mpr (misplaced_located hfirst _ _ _ _)

/-- The arguments with their numbers. -/
theorem Attribute.Located.numbered {a : Attribute} (h : a.Located I) :
    ∀ pair ∈ a.arguments.zipIdx, SpanIn I pair.1.span :=
  fun _ hpair => h.arguments _ (List.mem_of_getElem? (getElem?_of_mem_zipIdx hpair))

theorem TableOptions.withDefault_located {r : Record} (h : r.Located I) (settings : Options) :
    ∀ d ∈ (TableOptions.withDefault settings r).2, d.Located I := by
  have hrecord : ∀ d ∈ (TableOptions.ofRecord r).2, d.Located I := by
    unfold TableOptions.ofRecord
    split
    · next attr hattr =>
      have hlocated := h.attributes attr (mem_of_named? hattr)
      exact TableOptions.ofArguments_located hlocated.numbered _
    · split
      · next attr hattr =>
        have hlocated := h.attributes attr (mem_of_named? hattr)
        exact located_map fun pair hpair => misplaced_located (hlocated.numbered pair hpair) _ _ _ _
      · exact List.forall_mem_nil _
  unfold TableOptions.withDefault
  dsimp only
  split <;> exact hrecord

/-! ## Column specifications -/

/-- The diagnostics of the finding and its claim to the key have such spans. -/
structure Finding.Located (I : Span → Prop) (finding : Finding) : Prop where
  diagnostics : ∀ d ∈ finding.diagnostics, d.Located I
  claim : ∀ i span, finding.setting = some (.key (.claimed i span)) → SpanIn I span

theorem Finding.Located.refuses {d : Diagnostic} (h : d.Located I) :
    (Finding.refuses d).Located I := ⟨List.forall_mem_singleton.mpr h, nofun⟩

section

variable {argument : Argument} (h : SpanIn I argument.span)

include h

theorem nameFinding_located (field : String) : (nameFinding argument field).Located I := by
  unfold nameFinding
  split
  · exact ⟨List.forall_mem_nil _, nofun⟩
  · next hname => exact .refuses (nonEmptyString_located h hname)

theorem representationFinding_located (field : String) :
    (representationFinding argument field).Located I := by
  unfold representationFinding
  split
  · exact ⟨List.forall_mem_nil _, nofun⟩
  · exact .refuses (unfit_located h _ _)

theorem unsupported_located (a : Attribute) (i : Nat) (field label : String) :
    (unsupported a i argument field label).Located I :=
  .refuses (misplaced_located h _ _ _ _)

theorem keyFinding_located (field : String) (a : Attribute) (i : Nat) :
    (keyFinding field a i argument).Located I := by
  unfold keyFinding
  split
  · refine ⟨List.forall_mem_nil _, ?_⟩
    rintro _ _ ⟨⟩
    exact h
  · refine ⟨?_, nofun⟩
    dsimp only
    split
    · exact List.forall_mem_nil _
    · exact Diagnostic.located_singleton h rfl
  · exact .refuses (unfit_located h _ _)

theorem generatedFinding_located {field : Field} {finding : Finding} (hfield : field.Located I)
    (hok : generatedFinding field argument = .ok finding) : finding.Located I := by
  unfold generatedFinding at hok
  split at hok
  · cases hok
    exact .refuses (Diagnostic.Located.bare h rfl)
  · split at hok
    · obtain ⟨span, hspan, hok⟩ := bind_eq_ok.mp hok
      cases hok
      have hin := Span.orElse_in hfield.binding hfield.span hspan
      exact .refuses (Diagnostic.Located.bare hin rfl)
    · cases hok
      exact ⟨List.forall_mem_nil _, nofun⟩

theorem fieldFinding_located {role : Role} {field : Field} {a : Attribute} {i : Nat}
    {finding : Finding} (hfield : field.Located I)
    (hok : fieldFinding role field a i argument = .ok finding) : finding.Located I := by
  unfold fieldFinding at hok
  dsimp only at hok
  split at hok
  · split at hok <;> cases hok
    · exact .refuses (misplaced_located h _ _ _ _)
    · exact nameFinding_located h _
  · cases hok
    exact representationFinding_located h _
  · split at hok <;> cases hok
    · exact .refuses (misplaced_located h _ _ _ _)
    · exact keyFinding_located h _ _ _
  · split at hok
    · cases hok
      exact .refuses (misplaced_located h _ _ _ _)
    · exact generatedFinding_located h hfield hok
  · cases hok
    exact unsupported_located h _ _ _ _

theorem caseFinding_located (name : String) (a : Attribute) (i : Nat) :
    (caseFinding name a i argument).Located I := by
  unfold caseFinding
  split
  · exact nameFinding_located h _
  · exact representationFinding_located h _
  · split
    · exact .refuses (misplaced_located h _ _ _ _)
    · exact unsupported_located h _ _ _ _

end

theorem findings_located {attr : Option Attribute} {attributes : List Attribute}
    {find : Attribute → Nat → Argument → Except RangeError Finding} {found : List Finding}
    (hattr : ∀ a, attr = some a → a ∈ attributes) (h : ∀ a ∈ attributes, a.Located I)
    (hfind : ∀ a i argument finding, SpanIn I argument.span → find a i argument = .ok finding →
      finding.Located I)
    (hok : findings attr find = .ok found) : ∀ finding ∈ found, finding.Located I := by
  intro finding hmem
  obtain ⟨a, i, argument, ha, hi, hfinding⟩ := exists_of_mem_findings hok hmem
  have hargument := (h a (hattr a ha)).arguments _ (List.mem_of_getElem? hi)
  exact hfind a i argument finding hargument hfinding

/-- The specification and its claim to the key have such spans. -/
structure ColumnSpec.Located (I : Span → Prop) (spec : ColumnSpec) : Prop where
  span : SpanIn I spec.span
  claim : ∀ i span, spec.key = .claimed i span → SpanIn I span

/-- The specification, if there is one, and the diagnostics have such spans. -/
structure Resolved.Located (I : Span → Prop) (resolved : Resolved) : Prop where
  spec : ∀ spec, resolved.1 = some spec → spec.Located I
  diagnostics : ∀ d ∈ resolved.2, d.Located I

section

variable {diagnostics : List Diagnostic} (h : ∀ d ∈ diagnostics, d.Located I)

include h

theorem Resolved.Located.none : Resolved.Located I (none, diagnostics) :=
  ⟨fun _ hspec => (nomatch hspec), h⟩

theorem Resolved.Located.some {spec : ColumnSpec} (hspec : spec.Located I) :
    Resolved.Located I (some spec, diagnostics) := by
  refine ⟨fun spec' heq => ?_, h⟩
  obtain rfl := Option.some.inj heq
  exact hspec

end

/-- A specification that claims no key. -/
theorem ColumnSpec.Located.unclaimed {spec : ColumnSpec} (h : SpanIn I spec.span)
    (hkey : spec.key = .unclaimed) : spec.Located I := by
  refine ⟨h, fun i span hclaimed => ?_⟩
  rw [hkey] at hclaimed
  cases hclaimed

namespace ColumnSpec

theorem structuralFault?_located {role : Role} {field : Field} {fault : Diagnostic}
    (hfield : field.Located I) (h : structuralFault? role field = some fault) :
    fault.Located I := by
  unfold structuralFault? at h
  dsimp only at h
  split_ifs at h <;>
    (cases h; exact Diagnostic.Located.bare hfield.span rfl)

theorem groupDiagnostics_located {field : Field} {group : Attribute} {column : Option Attribute}
    (hgroup : group.Located I) (hcolumn : ∀ a, column = some a → a.Located I) :
    ∀ d ∈ groupDiagnostics field group column, d.Located I := by
  refine List.forall_mem_append.mpr ⟨?_, ?_⟩
  · exact located_map fun pair hpair => misplaced_located (hgroup.numbered pair hpair) _ _ _ _
  · refine located_map fun a ha => Diagnostic.Located.bare ?_ rfl
    exact (hcolumn a (Option.mem_toList.mp ha)).span

theorem ofOptions_located {role : Role} {field : Field} {attr : Option Attribute}
    {answer : ColumnSpec × List Diagnostic} (hfield : field.Located I)
    (hattr : ∀ a, attr = some a → a ∈ field.attributes)
    (h : ofOptions role field attr = .ok answer) :
    Resolved.Located I (some answer.1, answer.2) := by
  obtain ⟨found, hfound, h⟩ := bind_eq_ok.mp h
  cases h
  have hlocated := findings_located hattr hfield.attributes
    (fun _ _ _ _ hargument => fieldFinding_located hargument hfield) hfound
  refine .some (located_flatMap fun finding hmem => (hlocated finding hmem).diagnostics)
    ⟨hfield.span, fun i span hkey => ?_⟩
  obtain ⟨finding, hmem, hsetting⟩ := exists_claim hkey
  exact (hlocated finding hmem).claim i span hsetting

theorem ofField_located {role : Role} {field : Field} {resolved : Resolved}
    (hfield : field.Located I) (h : ofField role field = .ok resolved) : resolved.Located I := by
  unfold ofField at h
  split at h
  · cases h
    exact .none (List.forall_mem_nil _)
  · split at h
    · next fault hfault =>
      cases h
      exact .none (List.forall_mem_singleton.mpr (structuralFault?_located hfield hfault))
    · dsimp only at h
      split at h
      · cases h
        exact .some (List.forall_mem_nil _) (.unclaimed hfield.span rfl)
      · split at h
        · next group hgroup =>
          cases h
          have hmember {name : String} {a : Attribute}
              (ha : Attribute.named? name field.attributes = some a) : a.Located I :=
            hfield.attributes a (mem_of_named? ha)
          exact .some (groupDiagnostics_located (hmember hgroup) fun a => hmember)
            (.unclaimed hfield.span rfl)
        · obtain ⟨answer, hanswer, rfl⟩ := map_eq_ok.mp h
          exact ofOptions_located hfield (fun a => mem_of_named?) hanswer

theorem ofCase_located {c : Case} {resolved : Resolved} (hcase : c.Located I)
    (h : ofCase c = .ok resolved) : resolved.Located I := by
  unfold ofCase at h
  dsimp only at h
  split at h
  · cases h
    exact .none (Diagnostic.located_singleton hcase.span rfl)
  · split at h
    · next p hp =>
      obtain ⟨span, hspan, h⟩ := bind_eq_ok.mp h
      cases h
      have hmem : p ∈ c.payloads := List.mem_of_head? (Option.filter_eq_some_iff.mp hp).1
      have hin := Span.orElse_in (hcase.payloads p hmem) hcase.span hspan
      exact .none (Diagnostic.located_singleton hin rfl)
    · obtain ⟨found, hfound, h⟩ := bind_eq_ok.mp h
      cases h
      have hlocated := findings_located (fun a => mem_of_named?) hcase.attributes
        (fun a i argument finding hargument hok => by
          cases hok
          exact caseFinding_located hargument c.name a i) hfound
      exact .some (located_flatMap fun finding hmem => (hlocated finding hmem).diagnostics)
        (.unclaimed hcase.span rfl)

end ColumnSpec

/-! ## Outlines and drafts -/

theorem duplicateKey_located {role : Role} {first spec : ColumnSpec} (hfirst : first.Located I)
    (hspec : spec.Located I) : (duplicateKey role first spec).Located I := by
  constructor
  · unfold duplicateKey
    dsimp only
    split
    · next i span hkey => exact hspec.claim i span hkey
    · exact hspec.span
  · refine List.forall_mem_singleton.mpr ?_
    dsimp only
    split
    · next i span hkey => exact hfirst.claim i span hkey
    · exact hfirst.span

theorem RecordOutline.ofRecord_located {settings : Options} {r : Record} {outline : RecordOutline}
    (hr : r.Located I) (h : RecordOutline.ofRecord settings r = .ok outline) :
    (∀ spec ∈ outline.specs, spec.Located I) ∧ ∀ d ∈ outline.diagnostics, d.Located I := by
  unfold RecordOutline.ofRecord at h
  dsimp only at h
  obtain ⟨resolved, hresolved, h⟩ := bind_eq_ok.mp h
  cases h
  have hlocated : ∀ pair ∈ resolved, Resolved.Located I pair := by
    intro pair hmem
    obtain ⟨f, hf, hok⟩ := exists_left_of_mem (mapM_eq_ok.mp hresolved) hmem
    exact ColumnSpec.ofField_located (hr.fields f hf) hok
  have hspecs : ∀ spec ∈ (resolved.filterMap (·.1)).filter (!·.isEphemeral), spec.Located I := by
    intro spec hspec
    obtain ⟨pair, hpair, hsome⟩ := List.mem_filterMap.mp (List.mem_of_mem_filter hspec)
    exact (hlocated pair hpair).spec spec hsome
  refine ⟨hspecs, ?_⟩
  refine List.forall_mem_append.mpr ⟨List.forall_mem_append.mpr
    ⟨List.forall_mem_append.mpr ⟨?_, ?_⟩, ?_⟩, ?_⟩
  · exact located_map fun c hc => Diagnostic.Located.bare (hr.cases c hc).span rfl
  · exact TableOptions.withDefault_located hr settings
  · exact located_flatMap fun pair hpair => (hlocated pair hpair).diagnostics
  · split
    · next first hfirst =>
      obtain ⟨i, -, hget⟩ := Option.bind_eq_some_iff.mp hfirst
      refine located_map fun spec hspec => ?_
      split at hspec
      · cases hspec
      · exact duplicateKey_located (hspecs first (List.mem_of_getElem? hget))
          (hspecs spec (rejected_isClaimed hspec).1)
    · exact List.forall_mem_nil _

theorem EnumOutline.ofRecord_located {r : Record} (hr : r.Located I) (settings : Options) :
    ∀ d ∈ (EnumOutline.ofRecord settings r).diagnostics, d.Located I := by
  refine List.forall_mem_append.mpr ⟨located_map fun f hf => ?_,
    TableOptions.withDefault_located hr settings⟩
  exact Diagnostic.Located.bare (hr.fields f (List.mem_of_mem_filter hf)).span rfl

theorem EnumOutline.resolveCases_located {r : Record} {resolved : Resolved} (hr : r.Located I)
    {seen : List String} (h : .ok resolved ∈ EnumOutline.resolveCases r seen r.cases) :
    resolved.Located I := by
  obtain ⟨c, hc, hrepeated | hcase⟩ := EnumOutline.resolveCases_mem h
  · cases hrepeated
    exact .none (Diagnostic.located_singleton (hr.cases c hc).span rfl)
  · exact ColumnSpec.ofCase_located (hr.cases c hc) hcase.symm

theorem Draft.ofEntry_located {specs : List ColumnSpec} {spans : Dictionary String Span} {e : Entry}
    {d : Diagnostic} (hspecs : ∀ spec ∈ specs, spec.Located I)
    (he : e.column.field ∈ specs.map (·.name)) (h : Draft.ofEntry specs spans e = .error d) :
    d.Located I := by
  obtain ⟨spec, hspec⟩ : ∃ spec, specs.reverse.find? (·.name == e.column.field) = some spec := by
    obtain ⟨spec, hspec, hname⟩ := List.mem_map.mp he
    rw [← Option.isSome_iff_exists, List.find?_isSome]
    exact ⟨spec, List.mem_reverse.mpr hspec, beq_iff_eq.mpr hname⟩
  have hmem : spec ∈ specs := List.mem_reverse.mp (List.mem_of_find?_eq_some hspec)
  unfold Draft.ofEntry at h
  simp only [hspec] at h
  split at h
  · cases h
    exact Diagnostic.Located.bare (hspecs spec hmem).span rfl
  · split at h <;> cases h

theorem draftOf_located {r : Record} {outline : RecordOutline} {catalog : Catalog}
    (hspecs : ∀ spec ∈ outline.specs, spec.Located I)
    (hentries : ∀ e ∈ catalog.entries, e.column.field ∈ outline.specs.map (·.name)) :
    ∀ d ∈ (draftOf r outline catalog).2, d.Located I := by
  unfold draftOf
  split
  · unfold Draft.ofCatalog
    split
    · exact List.forall_mem_nil _
    · dsimp only
      split
      · exact List.forall_mem_nil _
      · intro d hd
        obtain ⟨result, hresult, hd⟩ := List.mem_filterMap.mp hd
        obtain ⟨e, he, rfl⟩ := List.mem_map.mp hresult
        split at hd
        · next hfault =>
          cases hd
          exact Draft.ofEntry_located hspecs (hentries e (List.mem_of_mem_filter he)) hfault
        · cases hd
  · exact List.forall_mem_nil _

/-! ## Catalogs and outcomes -/

theorem RecordOutline.entries_located {primary : Option Nat}
    {numbered : List (ColumnSpec × Nat × Resolution)}
    (hspecs : ∀ item ∈ numbered, item.1.Located I)
    (h : ∀ spec i d, (spec, i, .error d) ∈ numbered → d.Located I) :
    ∀ {seen : Dictionary String String},
      ∀ d ∈ (RecordOutline.entries primary seen numbered).2, d.Located I := by
  induction numbered with
  | nil => exact List.forall_mem_nil _
  | cons first rest ih =>
    intro seen
    obtain ⟨spec, i, resolution⟩ := first
    obtain ⟨hspec, hrest⟩ := List.forall_mem_cons.mp hspecs
    obtain ⟨seen', front, own, heq, -, hown, -⟩ :=
      RecordOutline.entries_cons primary seen spec i resolution rest
    rw [heq]
    refine List.forall_mem_append.mpr ⟨fun d hd => ?_,
      ih hrest fun spec i d hmem => h spec i d (List.mem_cons_of_mem _ hmem)⟩
    rcases hown d hd with rfl | ⟨name, owner, rfl⟩
    · exact h spec i d List.mem_cons_self
    · exact Diagnostic.Located.bare hspec.span rfl

theorem EnumOutline.entries_located {pairs : List (Resolved × Resolution)}
    (hresolved : ∀ pair ∈ pairs, Resolved.Located I pair.1)
    (h : ∀ resolved d, (resolved, .error d) ∈ pairs → d.Located I) :
    ∀ {seen : Dictionary String String},
      ∀ d ∈ (EnumOutline.entries seen pairs).2, d.Located I := by
  induction pairs with
  | nil => exact List.forall_mem_nil _
  | cons first rest ih =>
    intro seen
    obtain ⟨resolved, resolution⟩ := first
    obtain ⟨hfirst, hrest⟩ := List.forall_mem_cons.mp hresolved
    obtain ⟨seen', front, own, heq, -, hown, -⟩ :=
      EnumOutline.entries_cons seen resolved resolution rest
    rw [heq]
    refine List.forall_mem_append.mpr
      ⟨List.forall_mem_append.mpr ⟨hfirst.diagnostics, fun d hd => ?_⟩,
        ih hrest fun resolved d hmem => h resolved d (List.mem_cons_of_mem _ hmem)⟩
    rcases hown d hd with rfl | ⟨spec, name, owner, hspec, rfl⟩
    · exact h resolved d List.mem_cons_self
    · exact Diagnostic.Located.bare (hfirst.spec spec hspec).span rfl

/-- All diagnostics of an outcome have such spans, if those of the groups have. -/
theorem RecordOutcome.located {settings : Options} {F : ColumnSpec → Resolution → Prop}
    {C : Resolved → Resolution → Prop} {r : Record} {outcome : Option Derived × List Diagnostic}
    (hr : r.Located I)
    (hF : ∀ spec d, spec.Located I → F spec (.error d) → d.Located I)
    (hC : ∀ resolved d, Resolved.Located I resolved → C resolved (.error d) → d.Located I)
    (h : RecordOutcome settings F C r outcome) : ∀ d ∈ outcome.2, d.Located I := by
  cases h with
  | unannotated => exact Diagnostic.located_singleton hr.span rfl
  | notStruct => exact Diagnostic.located_singleton hr.span rfl
  | @struct outline resolutions annotated kind outlined resolved =>
    obtain ⟨hspecs, hdiagnostics⟩ := RecordOutline.ofRecord_located hr outlined
    intro d hd
    rcases RecordOutline.mem_finish hd with hd | hd
    · refine List.forall_mem_append.mpr ⟨List.forall_mem_append.mpr ⟨hdiagnostics,
        RecordOutline.entries_located ?_ ?_⟩, ?_⟩ d hd
      · exact fun item hitem => hspecs item.1 (List.of_mem_zip hitem).1
      · intro spec i d hmem
        have hpair := mem_zip_of_mem_zip_zip hmem
        exact hF spec d (hspecs spec (List.of_mem_zip hpair).1) (List.forall₂_zip resolved hpair)
      · split
        · exact Diagnostic.located_singleton hr.span rfl
        · exact List.forall_mem_nil _
    · refine draftOf_located hspecs (fun e he => ?_) d hd
      have hfields := RecordOutline.catalog_fields outline r resolved.length_eq.symm
      exact hfields.subset (List.mem_map_of_mem he)
  | @enum pairs annotated kind cases =>
    have hpairs : ∀ pair ∈ pairs, Resolved.Located I pair.1 := by
      intro pair hpair
      obtain ⟨case, hcase, rfl, -⟩ := exists_left_of_mem cases hpair
      exact EnumOutline.resolveCases_located hr hcase
    intro d hd
    refine List.forall_mem_append.mpr ⟨List.forall_mem_append.mpr
      ⟨EnumOutline.ofRecord_located hr settings, EnumOutline.entries_located hpairs ?_⟩, ?_⟩ d
      (EnumOutline.mem_finish hd)
    · intro resolved d hmem
      obtain ⟨case, -, -, hcase⟩ := exists_left_of_mem cases hmem
      exact hC resolved d (hpairs _ hmem) hcase
    · split
      · exact Diagnostic.located_singleton hr.span rfl
      · exact List.forall_mem_nil _

/-! ## Derivations -/

open Deriving

variable {registry : Registry} {settings : Options} {r : Record}

section

variable {nested : Nested} {K : Cache → Prop} {spec : ColumnSpec}
  (hn : ∀ reference member, registry.record? reference = some member →
    Meets K True (fun answer => ∀ d, answer = some d → d.Located I) (nested member))

include hn

/-- The notes of a group that does not resolve have the spans of the errors of its record. -/
theorem resolveGroup_located (name : String) (hspec : spec.Located I) :
    Meets K True (fun resolution => ∀ d, resolution = .error d → d.Located I)
      (resolveGroup registry nested r spec name) := by
  unfold resolveGroup
  split
  · refine Meets.pure ?_
    rintro _ ⟨⟩
    exact Diagnostic.Located.bare hspec.span rfl
  · next record hfound =>
    refine (hn _ record hfound).bind fun answer hanswer => ?_
    split
    · refine Meets.pure ?_
      rintro _ ⟨⟩
      exact Diagnostic.Located.bare hspec.span rfl
    · next d =>
      split
      · refine Meets.pure fun d h => ?_
        cases h
      · refine Meets.pure ?_
        rintro _ ⟨⟩
        refine ⟨hspec.span, fun note hnote => ?_⟩
        obtain ⟨report, hreport, rfl⟩ := List.mem_map.mp hnote
        exact (hanswer d rfl report (List.mem_of_mem_filter hreport)).span

theorem resolveField_located (hspec : spec.Located I) :
    Meets K True (fun resolution => ∀ d, resolution = .error d → d.Located I)
      (resolveField registry nested r spec) := by
  unfold resolveField
  split
  · next d hname =>
    refine Meets.pure ?_
    rintro _ ⟨⟩
    unfold RecordOutline.groupName at hname
    split at hname
    · split at hname <;> cases hname
      exact Diagnostic.Located.bare hspec.span rfl
    · cases hname
  · refine Meets.pure fun d h => ?_
    cases h
  · refine (resolveGroup_located hn _ hspec).bind fun resolution hlocated => Meets.pure ?_
    intro d h
    cases resolution with
    | error d' =>
      cases h
      exact hlocated d rfl
    | ok g => cases h

theorem resolveCase_located (case : Except RangeError Resolved)
    (hcase : ∀ resolved, case = .ok resolved → resolved.Located I) :
    Meets K True (fun pair => case = .ok pair.1 ∧ ∀ d, pair.2 = .error d → d.Located I)
      (resolveCase registry nested r case) := by
  have hread : Meets K True (fun resolved => case = .ok resolved)
      (MonadExcept.ofExcept case : Deriving Resolved) :=
    Meets.iff_takes.mpr (Takes.ofExcept (fun _ h _ hc => ⟨hc, h⟩) fun _ _ _ hc => ⟨hc, trivial⟩)
  unfold resolveCase
  refine hread.bind fun resolved hresolved => ?_
  dsimp only
  split
  · exact Meets.pure ⟨hresolved, nofun⟩
  · next spec name hgroup =>
    obtain ⟨spec', hspec, hname⟩ := Option.bind_eq_some_iff.mp hgroup
    obtain ⟨_, -, heq⟩ := Option.map_eq_some_iff.mp hname
    obtain ⟨rfl, -⟩ := Prod.mk.inj heq
    refine (resolveGroup_located hn _ ((hcase resolved hresolved).spec spec' hspec)).bind
      fun resolution hlocated => ?_
    split
    · exact Meets.pure ⟨hresolved, fun d' h => hlocated d' (congrArg _ (Except.error.inj h))⟩
    · next members =>
      have hnote : Meets K True (fun _ => True) (note members.asGroup.planEvents) :=
        Meets.iff_takes.mpr ((Takes.noting _).mono (fun _ hc => hc) (fun _ _ hc => ⟨hc, trivial⟩)
          fun _ hc => hc)
      exact hnote.bind fun _ _ => Meets.pure ⟨hresolved, nofun⟩

theorem deriveNew_located (hr : r.Located I) :
    Meets K True (Derivation.Located I) (deriveNew registry settings nested r) := by
  refine Meets.iff_takes.mpr ((deriveNew_takes (I := K)
    (F := fun _ _ resolution => ∀ d, resolution = .error d → d.Located I)
    (C := fun _ _ resolution => ∀ d, resolution = .error d → d.Located I)
    ?_ ?_ ?_ ?_ ?_).mono (fun _ hc => hc) ?_ fun _ hc => hc)
  · exact fun _ _ _ _ _ h => h
  · exact fun _ _ _ _ _ h => h
  · exact fun _ _ _ _ c hc => ⟨hc, trivial⟩
  · intro outline _ _ outlined spec hspec
    have hspec := (RecordOutline.ofRecord_located hr outlined).1 spec hspec
    exact Meets.iff_takes.mp (resolveField_located hn hspec)
  · intro _ _ case hcase
    refine Meets.iff_takes.mp (resolveCase_located hn case fun resolved hresolved => ?_)
    rw [hresolved] at hcase
    exact EnumOutline.resolveCases_located hr hcase
  · rintro c d ⟨hc, outcome, houtcome, rfl⟩
    refine ⟨hc, fun report hreport => ?_⟩
    obtain ⟨report, hmem, rfl⟩ := List.mem_map.mp hreport
    have hall := houtcome.located hr (fun _ d _ h => h d rfl) fun _ d _ h => h d rfl
    exact (hall report hmem).within _

end

/-- Where all records have such spans, so have all diagnostics. -/
theorem deriveWithin_located (hregistry : ∀ m ∈ registry.list, m.Located I) :
    ∀ (depth : Nat) (closed : List Key) {r : Record}, r.Located I →
    Meets (Known fun _ d => d.Located I) True (Derivation.Located I)
      (deriveWithin registry settings depth closed r)
  | 0, closed, r, hr => by
    rw [deriveWithin]
    refine deriveCached_meets (Q := fun _ d => d.Located I) (deriveNew_located (fun _ _ _ => ?_) hr)
    refine Meets.pure fun d h => ?_
    cases h
  | depth + 1, closed, r, hr => by
    rw [deriveWithin]
    refine deriveCached_meets (Q := fun _ d => d.Located I)
      (deriveNew_located (fun reference m hm => ?_) hr)
    split
    · refine Meets.pure fun d h => ?_
      cases h
    · obtain ⟨k, -, hget⟩ := Option.bind_eq_some_iff.mp hm
      have hmem : m ∈ registry.list := List.mem_map_of_mem (Dictionary.mem_of_get? hget)
      refine (deriveWithin_located hregistry depth _ (hregistry m hmem)).bind fun d hd =>
        Meets.pure fun d' h => ?_
      cases h
      exact hd

namespace Schema

variable {s t : Schema}

/-- The derivation of one more record. -/
theorem deriveRecord_located (hregistry : ∀ m ∈ s.registry.list, m.Located I)
    (hknown : Known (fun _ d => d.Located I) s.progress.cache) (hr : r.Located I) :
    Known (fun _ d => d.Located I) (s.deriveRecord r).2.progress.cache :=
  (deriveWithin_located hregistry s.registry.records.length [] hr s.progress hknown).1

/-- What has been derived wherever derivations lead points to where the records are. -/
theorem Explored.known_located (h : s.Explored t) (hs : s.Filled)
    (hlist : ∀ m ∈ s.registry.list, m.Located I) :
    Known (fun _ d => d.Located I) t.progress.cache := by
  let Kept (u : Schema) : Prop := u.registry.Keyed ∧ (∀ m ∈ u.registry.list, m.Located I) ∧
    Known (fun _ d => d.Located I) u.progress.cache
  have hstep (u : Schema) (r : Record) (hu : Kept u)
      (hr : u.registry.records.get? r.key = some r) : Kept (u.deriveRecord r).2 := by
    obtain ⟨hkeyed, hlist, hknown⟩ := hu
    have hmem : r ∈ u.registry.list := List.mem_map_of_mem (Dictionary.mem_of_get? hr)
    have hmore := deriveRecord_located hlist hknown (hlist r hmem)
    rw [← u.deriveRecord_registry r] at hkeyed hlist
    exact ⟨hkeyed, hlist, hmore⟩
  have hstart : Kept s := by
    refine ⟨hs.keyed, hlist, ?_⟩
    rw [hs.cache_eq]
    intro k d hk
    cases hk
  exact (h.keeps hstep (fun _ hu => hu.1) hstart).2.2

end Schema

end RowSchema
