import RowSchema.Proofs.Schema.Messages

/-! # Members of the group graph

The fields and cases that ask for a column group are the edges of the group graph, and a derivation
asks for the derivations of just these records. -/

namespace RowSchema

variable {registry : Registry} {settings : Options} {r : Record} {G H : Record → Derived → Prop}

/-! ## Edges -/

theorem RecordOutline.mem_specs {outline : RecordOutline} {spec : ColumnSpec}
    (h : RecordOutline.ofRecord settings r = .ok outline) :
    spec ∈ outline.specs ↔ spec.isEphemeral = false ∧ ∃ field ∈ r.fields, ∃ diagnostics,
      ColumnSpec.ofField r.role field = .ok (some spec, diagnostics) := by
  unfold RecordOutline.ofRecord at h
  dsimp only at h
  obtain ⟨resolved, hresolved, h⟩ := bind_eq_ok.mp h
  rw [mapM_eq_ok] at hresolved
  cases h
  simp only [List.mem_filter, List.mem_filterMap, Bool.not_eq_true']
  constructor
  · rintro ⟨⟨⟨spec', diagnostics⟩, hmem, rfl⟩, hephemeral⟩
    obtain ⟨field, hfield, hok⟩ := exists_left_of_mem hresolved hmem
    exact ⟨hephemeral, field, hfield, diagnostics, hok⟩
  · rintro ⟨hephemeral, field, hfield, diagnostics, hok⟩
    obtain ⟨resolved', hmem, hok'⟩ := exists_right_of_mem hresolved hfield
    rw [hok] at hok'
    cases hok'
    exact ⟨⟨_, hmem, rfl⟩, hephemeral⟩

theorem EnumOutline.resolveCases_mem {resolved : Except RangeError Resolved} :
    ∀ {seen : List String} {cases : List Case}, resolved ∈ EnumOutline.resolveCases r seen cases →
    ∃ c ∈ cases, resolved = .ok (none, [repeatedCase r c]) ∨ resolved = ColumnSpec.ofCase c
  | seen, c :: rest, h => by
    rw [EnumOutline.resolveCases] at h
    rcases List.mem_cons.mp h with rfl | h
    · refine ⟨c, List.mem_cons_self, ?_⟩
      split
      · exact .inl rfl
      · exact .inr rfl
    · obtain ⟨c', hmem, hc'⟩ := EnumOutline.resolveCases_mem h
      exact ⟨c', List.mem_cons_of_mem _ hmem, hc'⟩

/-- A case is resolved or reported. -/
theorem EnumOutline.mem_resolveCases {c : Case} : ∀ {seen : List String} {cases : List Case},
    c ∈ cases → ColumnSpec.ofCase c ∈ EnumOutline.resolveCases r seen cases ∨
      ∃ c', .ok (none, [repeatedCase r c']) ∈ EnumOutline.resolveCases r seen cases
  | seen, c' :: rest, h => by
    rw [EnumOutline.resolveCases]
    rcases List.mem_cons.mp h with rfl | h
    · split
      · exact .inr ⟨_, List.mem_cons_self⟩
      · exact .inl List.mem_cons_self
    · rcases EnumOutline.mem_resolveCases h with h | ⟨c'', h⟩
      · exact .inl (List.mem_cons_of_mem _ h)
      · exact .inr ⟨c'', List.mem_cons_of_mem _ h⟩

theorem RecordOutline.groupName_eq {spec : ColumnSpec} {name : String} :
    RecordOutline.groupName spec = .ok (some name) ↔
      spec.isGroup = true ∧ ∃ t, spec.type = some t ∧ t.name = name := by
  unfold RecordOutline.groupName
  cases spec.isGroup <;> cases spec.type <;> simp

theorem caseGroup_eq {resolved : Resolved} {spec : ColumnSpec} {name : String} :
    caseGroup registry resolved = some (spec, name) ↔
      resolved.1 = some spec ∧ spec.representation = none ∧
        ∃ t, spec.type = some t ∧ t.name = name ∧ registry.contains (.name name) = true := by
  obtain ⟨spec', diagnostics⟩ := resolved
  cases spec' with
  | none => simp [caseGroup]
  | some spec' =>
    simp only [caseGroup, Option.bind_some, Option.map_eq_some_iff, Prod.mk.injEq]
    unfold EnumOutline.groupName?
    constructor
    · rintro ⟨name', hname, rfl, rfl⟩
      split at hname
      · rename_i t htype hrep
        split at hname <;> cases hname
        rename_i hcontains
        exact ⟨rfl, hrep, t, htype, rfl, hcontains⟩
      · cases hname
    · rintro ⟨h, hrep, t, htype, rfl, hcontains⟩
      cases h
      refine ⟨t.name, ?_, rfl, rfl⟩
      rw [htype, hrep]
      simp only [hcontains, if_true]

/-- A field that asks for a column group refers to its record. -/
theorem Registry.Refers.of_groupName {outline : RecordOutline} {spec : ColumnSpec} {name : String}
    {member : Record} (kind : r.kind = .struct)
    (outlined : RecordOutline.ofRecord settings r = .ok outline) (hspec : spec ∈ outline.specs)
    (hname : RecordOutline.groupName spec = .ok (some name))
    (hfound : registry.record? (groupReference r spec name) = some member) :
    registry.Refers r member := by
  obtain ⟨stored, field, hfield, diagnostics, hok⟩ := (RecordOutline.mem_specs outlined).mp hspec
  obtain ⟨group, t, type, rfl⟩ := RecordOutline.groupName_eq.mp hname
  have hkind : r.kind ≠ .enum := by
    rw [kind]
    exact Kind.noConfusion
  exact .field hkind hfield hok stored group type hfound

/-- A case that asks for a column group refers to its record. -/
theorem Registry.Refers.of_caseGroup {case : Except RangeError Resolved} {resolved : Resolved}
    {spec : ColumnSpec} {name : String} {member : Record} (kind : r.kind = .enum)
    (hcase : case ∈ (EnumOutline.ofRecord settings r).cases) (hok : case = .ok resolved)
    (hgroup : caseGroup registry resolved = some (spec, name))
    (hfound : registry.record? (groupReference r spec name) = some member) :
    registry.Refers r member := by
  obtain ⟨hspec, plain, t, type, rfl, registered⟩ := caseGroup_eq.mp hgroup
  obtain ⟨c, hc, hc' | hc'⟩ := EnumOutline.resolveCases_mem hcase
  · rw [hok] at hc'
    cases hc'
    cases hspec
  · have hof : ColumnSpec.ofCase c = .ok (some spec, resolved.2) := by
      rw [← hc', hok, ← hspec]
    exact .payload kind hc hof type plain registered hfound

/-- Every member of a record that composes a result has one itself. -/
theorem Composes.of_refers {x : Derived} {m : Record} (h : Composes registry settings G r x)
    (hm : registry.Refers r m) : ∃ y, G m y := by
  cases h with
  | struct annotated kind outlined resolved built clean drafted draftClean =>
    cases hm with
    | payload kind' =>
      rw [kind] at kind'
      cases kind'
    | @field f spec diagnostics t m kind' mem hspec stored group type found =>
      have hmem := (RecordOutline.mem_specs outlined).mpr ⟨stored, f, mem, diagnostics, hspec⟩
      obtain ⟨members, -, hmembers⟩ := exists_right_of_mem resolved hmem
      have hname := RecordOutline.groupName_eq.mpr ⟨group, t, type, rfl⟩
      obtain ⟨g, -, hg⟩ := hmembers.of_ok_some hname
      obtain ⟨derived, hG, -⟩ := hg.of_found found
      exact ⟨derived, hG⟩
  | @enum pairs catalog reports annotated kind resolved built clean =>
    cases hm with
    | field kind' => exact absurd kind kind'
    | @payload c spec diagnostics t m kind' mem hspec type plain registered found =>
      rcases EnumOutline.mem_resolveCases mem with hmem | ⟨c', hmem⟩
      · obtain ⟨⟨resolved', members⟩, -, hok, hmembers⟩ := exists_right_of_mem resolved hmem
        rw [hspec] at hok
        cases hok
        have hname : caseGroup registry (some spec, diagnostics) = some (spec, t.name) :=
          caseGroup_eq.mpr ⟨rfl, plain, t, type, rfl, registered⟩
        obtain ⟨g, -, hg⟩ := hmembers.of_some hname
        obtain ⟨derived, hG, -⟩ := hg.of_found found
        exact ⟨derived, hG⟩
      · -- a case declared twice is an error of the enum
        obtain ⟨⟨resolved', members⟩, hpair, hok, -⟩ := exists_right_of_mem resolved hmem
        cases hok
        have hd : EnumOutline.repeatedCase r c' ∈
            ((EnumOutline.ofRecord settings r).catalog r (pairs.map (Prod.map id .ok))).2 := by
          refine List.mem_append_left _ (List.mem_append_right _ ?_)
          refine EnumOutline.mem_entries_of_before ?_ (List.mem_map_of_mem hpair)
          exact List.mem_singleton_self _
        rw [built] at hd
        exact absurd hd (Diagnostic.not_mem_of_clean clean rfl)

/-! ## Answers -/

/-- What is answered for a member of the group graph lies between `L` and `U`, and none is given
only if `N` holds. -/
structure Answers (L U : Derived → Prop) (N : Prop) (answer : Option (Derivation Derived)) :
    Prop where
  sound : ∀ x, answer.bind (·.result) = some x → U x
  complete : ∀ x, L x → answer.bind (·.result) = some x
  refused : answer = none → N

/-- Bounds of what resolves, where a group is reported as recursive only if `N` holds. -/
structure Resolves {α : Type} (L U : α → Prop) (N : Prop) (resolution : Except Diagnostic α) :
    Prop extends Bounds L U resolution where
  recursive : ∀ d, resolution = .error d → d.isRecursive = true → N

namespace Resolves

variable {α : Type} {L U : α → Prop} {N : Prop}

theorem ok {x : α} (hsound : U x) (hcomplete : ∀ y, L y → y = x) : Resolves L U N (.ok x) where
  sound := by
    intro y h
    cases h
    exact hsound
  complete := by
    intro y hy
    rw [hcomplete y hy]
  fatal := by
    intro d h
    cases h
  recursive := by
    intro d h
    cases h

theorem error {d : Diagnostic} (hnone : ∀ y, ¬ L y) (hfatal : d.isFatal = true)
    (hrecursive : d.isRecursive = true → N) : Resolves L U N (.error d) where
  sound := by
    intro y h
    cases h
  complete := by
    intro y hy
    exact absurd hy (hnone y)
  fatal := by
    intro d' h
    cases h
    exact hfatal
  recursive := by
    intro d' h
    cases h
    exact hrecursive

theorem mono {U' : α → Prop} {resolution : Except Diagnostic α} (h : Resolves L U N resolution)
    (hU : ∀ x, U x → U' x) : Resolves L U' N resolution where
  sound := fun x hx => hU x (h.sound x hx)
  complete := h.complete
  fatal := h.fatal
  recursive := h.recursive

/-- A group that is asked for is all that the field or the case resolves to. -/
theorem asked {L' U' : Option α → Prop} {resolution : Except Diagnostic α}
    (h : Resolves L U N resolution) (hL : ∀ members, L' members → ∃ g, members = some g ∧ L g)
    (hU : ∀ g, U g → U' (some g)) : Resolves L' U' N (resolution.map some) := by
  cases resolution with
  | error d =>
    refine error ?_ (h.fatal d rfl) (h.recursive d rfl)
    intro members hmembers
    obtain ⟨g, rfl, hg⟩ := hL members hmembers
    have hnone := h.complete g hg
    cases hnone
  | ok g =>
    refine ok (hU g (h.sound g rfl)) ?_
    intro members hmembers
    obtain ⟨g', rfl, hg⟩ := hL members hmembers
    have hsame := h.complete g' hg
    cases hsame
    rfl

end Resolves

/-- A group name that cannot be used is a mistake of the field alone. -/
theorem RecordOutline.groupName_error {spec : ColumnSpec} {d : Diagnostic}
    (h : RecordOutline.groupName spec = .error d) : d.isFatal = true ∧ d.isRecursive = false := by
  unfold RecordOutline.groupName at h
  split at h
  · split at h <;> cases h
    exact ⟨rfl, isRecursive_of_head (by simp)⟩
  · cases h

open Deriving

section Steps

variable {nested : Nested} {I E : Cache → Prop} {Δ : Cache → Cache → Prop} [IsPreorder Cache Δ]
  {U : Cache → Record → Derived → Prop} {N : Prop}

theorem resolveGroup_takes {spec : ColumnSpec} {name : String}
    (hn : ∀ member, registry.record? (groupReference r spec name) = some member →
      Takes Δ I (fun c answer => I c ∧ Answers (H member) (U c member) N answer) E
        (nested member)) :
    Takes Δ I (fun c resolution => I c ∧ Resolves (ResolvesTo registry H r spec name)
        (ResolvesTo registry (U c) r spec name) N resolution) E
      (resolveGroup registry nested r spec name) := by
  unfold resolveGroup
  cases hfound : registry.record? (groupReference r spec name) with
  | none =>
    refine Takes.pure fun c hc => ⟨hc, Resolves.error ?_ rfl ?_⟩
    · rintro g ⟨member, derived, hmember, -, -⟩
      rw [hfound] at hmember
      cases hmember
    · intro hd
      rw [isRecursive_of_head (by simp [notDeclared, groupFault])] at hd
      cases hd
  | some member =>
    refine (hn member hfound).bind fun answer => ?_
    have hcomplete {c : Cache} (hanswer : Answers (H member) (U c member) N answer) (g : Group)
        (h : ResolvesTo registry H r spec name g) :
        ∃ derived, answer.bind (·.result) = some derived ∧ g = derived.catalog := by
      obtain ⟨derived, hH, rfl⟩ := h.of_found hfound
      exact ⟨derived, hanswer.complete derived hH, rfl⟩
    cases answer with
    | none =>
      refine Takes.pure fun c hc => ⟨hc.1, Resolves.error ?_ rfl fun _ => hc.2.refused rfl⟩
      intro g h
      obtain ⟨derived, hderived, -⟩ := hcomplete hc.2 g h
      cases hderived
    | some derivation =>
      cases hresult : derivation.result with
      | some derived =>
        simp only [hresult]
        refine Takes.pure fun c hc => ⟨hc.1, Resolves.ok ?_ ?_⟩
        · exact ⟨member, derived, hfound, hc.2.sound derived hresult, rfl⟩
        · intro g h
          obtain ⟨derived', hderived, rfl⟩ := hcomplete hc.2 g h
          rw [Option.bind_some, hresult] at hderived
          cases hderived
          rfl
      | none =>
        simp only [hresult]
        refine Takes.pure fun c hc => ⟨hc.1, Resolves.error ?_ rfl ?_⟩
        · intro g h
          obtain ⟨derived', hderived, -⟩ := hcomplete hc.2 g h
          rw [Option.bind_some, hresult] at hderived
          cases hderived
        · intro hd
          rw [isRecursive_of_head (by simp [invalidGroup, groupFault])] at hd
          cases hd

theorem resolveField_takes {spec : ColumnSpec}
    (hn : ∀ name member, RecordOutline.groupName spec = .ok (some name) →
      registry.record? (groupReference r spec name) = some member →
      Takes Δ I (fun c answer => I c ∧ Answers (H member) (U c member) N answer) E
        (nested member)) :
    Takes Δ I (fun c resolution => I c ∧ Resolves (FieldResolves registry H r spec)
        (FieldResolves registry (U c) r spec) N resolution) E
      (resolveField registry nested r spec) := by
  unfold resolveField
  cases hname : RecordOutline.groupName spec with
  | error d =>
    obtain ⟨hfatal, hrecursive⟩ := RecordOutline.groupName_error hname
    refine Takes.pure fun c hc =>
      ⟨hc, Resolves.error (fun members => not_fieldResolves hname) hfatal ?_⟩
    intro hd
    rw [hrecursive] at hd
    cases hd
  | ok group =>
    cases group with
    | none =>
      exact Takes.pure fun c hc => ⟨hc, Resolves.ok hname fun members h => h.of_ok_none hname⟩
    | some name =>
      refine (resolveGroup_takes fun member => hn name member hname).bind fun resolution => ?_
      exact Takes.pure fun c hc => ⟨hc.1, hc.2.asked (fun members h => h.of_ok_some hname)
        fun g hg => ⟨name, hname, hg⟩⟩

theorem resolveCase_takes {case : Except RangeError Resolved}
    (hstop : ∀ e, case = .error e → ∀ c, I c → E c)
    (hn : ∀ resolved spec name member, case = .ok resolved →
      caseGroup registry resolved = some (spec, name) →
      registry.record? (groupReference r spec name) = some member →
      Takes Δ I (fun c answer => I c ∧ Answers (H member) (U c member) N answer) E
        (nested member)) :
    Takes Δ I (fun c pair => I c ∧ case = .ok pair.1 ∧ Resolves (CaseResolves registry H r pair.1)
        (CaseResolves registry (U c) r pair.1) N pair.2) E
      (resolveCase registry nested r case) := by
  unfold resolveCase
  refine (Takes.ofExcept (Q := fun c resolved => I c ∧ case = .ok resolved)
    (fun resolved h c hc => ⟨hc, h⟩) hstop).bind fun resolved => Takes.of_fact fun hcase => ?_
  dsimp only
  have hasks : (resolved.1.bind fun spec => (EnumOutline.groupName?
      (fun name => registry.contains (.name name)) spec).map (spec, ·)) =
    caseGroup registry resolved := rfl
  rw [hasks]
  cases hgroup : caseGroup registry resolved with
  | none =>
    exact Takes.pure fun c hc =>
      ⟨hc, hcase, Resolves.ok hgroup fun members h => h.of_none hgroup⟩
  | some group =>
    obtain ⟨spec, name⟩ := group
    refine (resolveGroup_takes fun member => hn resolved spec name member hcase hgroup).bind
      fun resolution => ?_
    have hasked (c : Cache) (hres : Resolves (ResolvesTo registry H r spec name)
        (ResolvesTo registry (U c) r spec name) N resolution) :
        Resolves (CaseResolves registry H r resolved) (CaseResolves registry (U c) r resolved) N
          (resolution.map some) :=
      hres.asked (fun members h => h.of_some hgroup) fun g hg => ⟨spec, name, hgroup, hg⟩
    cases resolution with
    | error d => exact Takes.pure fun c hc => ⟨hc.1, hcase, hasked c hc.2⟩
    | ok g =>
      exact (Takes.noting _).bind fun _ => Takes.pure fun c hc => ⟨hc.1, hcase, hasked c hc.2⟩

/-- What is derived for a record, between what it composes from `H` and from `G`. -/
structure Between (L U : Derived → Prop) (N : Prop) (derivation : Derivation Derived) : Prop where
  sound : ∀ x, derivation.result = some x → U x
  complete : ∀ x, L x → derivation.result = some x
  recursive : ∀ d ∈ derivation.diagnostics, d.isRecursive = true → N

/-- A derivation asks for the members of its record in the group graph and for nothing else. What
is said of their results may depend on the cache, as long as no change of the cache undoes it. -/
theorem deriveNew_takes_between (hU : ∀ c c', Δ c c' → ∀ m x, U c m x → U c' m x)
    (hstop : (∀ x, ¬ Composes registry settings H r x) → ∀ c, I c → E c)
    (hn : ∀ member, registry.Refers r member →
      Takes Δ I (fun c answer => I c ∧ Answers (H member) (U c member) N answer) E
        (nested member)) :
    Takes Δ I (fun c d => I c ∧ Between (Composes registry settings H r)
        (Composes registry settings (U c) r) N d) E
      (deriveNew registry settings nested r) := by
  refine (deriveNew_takes
    (F := fun c spec =>
      Resolves (FieldResolves registry H r spec) (FieldResolves registry (U c) r spec) N)
    (C := fun c resolved =>
      Resolves (CaseResolves registry H r resolved) (CaseResolves registry (U c) r resolved) N)
    ?_ ?_ ?_ ?_ ?_).mono (fun _ hc => hc) ?_ fun _ hc => hc
  · exact fun spec resolution c c' hΔ h => h.mono fun _ => FieldResolves.mono (hU c c' hΔ)
  · exact fun resolved resolution c c' hΔ h => h.mono fun _ => CaseResolves.mono (hU c c' hΔ)
  · intro annotated kind e he
    refine hstop fun x hx => ?_
    cases hx with
    | struct _ _ outlined =>
      rw [he] at outlined
      cases outlined
    | enum _ kind' =>
      rw [kind] at kind'
      cases kind'
  · intro outline annotated kind outlined spec hspec
    exact resolveField_takes fun name member hname hfound =>
      hn member (.of_groupName kind outlined hspec hname hfound)
  · intro annotated kind case hcase
    refine resolveCase_takes ?_ ?_
    · intro e he
      refine hstop fun x hx => ?_
      cases hx with
      | struct _ kind' =>
        rw [kind] at kind'
        cases kind'
      | enum _ _ resolved =>
        obtain ⟨pair, -, hok, -⟩ := exists_right_of_mem resolved hcase
        rw [he] at hok
        cases hok
    · intro resolved spec name member hok hgroup hfound
      exact hn member (.of_caseGroup kind hcase hok hgroup hfound)
  · rintro c derivation ⟨hc, outcome, houtcome, rfl⟩
    refine ⟨hc, fun x hx => ?_, fun x hx => ?_, fun d hd hrec => ?_⟩
    · exact houtcome.composes (fun _ _ h => h.toBounds) (fun _ _ h => h.toBounds) hx
    · exact houtcome.result_of_composes (fun _ _ h => h.toBounds) (fun _ _ h => h.toBounds) hx
    · obtain ⟨d', hd', ⟨spec, h⟩ | ⟨resolved, h⟩⟩ := houtcome.recursive hd hrec
      · exact h.recursive d' rfl hd'
      · exact h.recursive d' rfl hd'

/-- Where nothing depends on the cache, as long as it has `K`. -/
theorem deriveNew_between {K : Cache → Prop} {stop : Prop}
    (hstop : (∀ x, ¬ Composes registry settings H r x) → stop)
    (hn : ∀ member, registry.Refers r member →
      Meets K stop (Answers (H member) (G member) N) (nested member)) :
    Meets K stop (Between (Composes registry settings H r) (Composes registry settings G r) N)
      (deriveNew registry settings nested r) :=
  Meets.iff_takes.mpr (deriveNew_takes_between (U := fun _ => G) (fun _ _ _ _ _ h => h)
    (fun h _ hc => ⟨hc, hstop h⟩) fun member hm => Meets.iff_takes.mp (hn member hm))

end Steps

end RowSchema
