import RowSchema.Proofs.Reader.Spans
import RowSchema.Proofs.Schema.Complete
import RowSchema.Proofs.Schema.Origin

/-! # Derivations fail closed

A derivation has a result exactly where it reports no error, and then nothing is missing from the
result. It can be stopped only by the span of a binding or of an associated value, which is asked
for its length: one that ends before it starts has none. Neither the records of a text nor those of
classes have such spans, so the derivations of these are never stopped. -/

namespace RowSchema

variable {registry : Registry} {settings : Options} {r : Record}

/-! ## Spans that are asked for their length -/

/-- A range of characters whose length is a machine integer. -/
structure Span.Measured (s : Span) : Prop where
  forward : s.start ≤ s.stop
  short : s.stop - s.start ≤ RangeError.longest

theorem Span.Measured.of_inside {s : Span} {length : Nat} (h : s.Inside ⟨0, length⟩)
    (hlength : length ≤ RangeError.longest) : s.Measured := by
  obtain ⟨hstart, hproper, hstop⟩ := h
  dsimp only at hstart hstop
  exact ⟨by omega, by omega⟩

theorem Span.orElse_ok {s : Option Span} (h : ∀ x, s = some x → x.Measured)
    (other : Option Span) : ∃ chosen, Span.orElse s other = .ok chosen := by
  cases s with
  | none => exact ⟨other, rfl⟩
  | some x =>
    obtain ⟨hforward, hshort⟩ := h x rfl
    refine ⟨if x.start == x.stop then other else some x, ?_⟩
    rw [Span.orElse, Span.isEmpty?, if_neg (by omega), if_neg (by omega)]
    rfl

/-- The spans of bindings and of associated values have lengths. -/
structure Record.Measured (r : Record) : Prop where
  bindings : ∀ f ∈ r.fields, ∀ s, f.bindingSpan = some s → s.Measured
  payloads : ∀ c ∈ r.cases, ∀ p ∈ c.payloads, ∀ s, p.span = some s → s.Measured

/-- The spans of a text stand in it. -/
theorem Record.measured_of_readAll {source : String} {records : List Record}
    (h : Record.readAll source = .ok records)
    (hlength : (source.toList.length : Int) ≤ RangeError.longest) (hr : r ∈ records) :
    r.Measured := by
  obtain ⟨span, hspan, hrecord⟩ := Record.exists_placed_of_readAll h hr
  have hmeasured {s : Span} (hs : s.Inside span) : s.Measured :=
    .of_inside (hs.trans hspan) hlength
  refine ⟨fun f hf s hs => ?_, fun c hc p hp s hs => ?_⟩
  · obtain ⟨outer, houter, hfield⟩ := hrecord.fields f hf
    obtain ⟨s', hs', hin, -⟩ := hfield.binding
    cases hs.symm.trans hs'
    exact hmeasured (hin.trans houter)
  · obtain ⟨outer, houter, hcase⟩ := (hrecord.cases c hc).1
    obtain ⟨s', hin, hpayload⟩ := hcase.payloads p hp
    cases hs.symm.trans hpayload.span_eq
    exact hmeasured (hin.trans houter)

/-- A class has no spans. -/
theorem RecordClass.measured_of_record {attr : Attribute} {c : RecordClass}
    (h : c.record registry attr = .ok r) : r.Measured := by
  obtain ⟨-, hcases, -, -, hfields⟩ := RecordClass.reflected_of_record h
  refine ⟨fun f hf s hs => ?_, fun c hc => ?_⟩
  · obtain ⟨_, -, hfield⟩ := exists_left_of_mem hfields hf
    cases hs.symm.trans hfield.bindingSpan_eq
  · rw [hcases] at hc
    cases hc

/-! ## Outlines that are not stopped -/

theorem findings_ok {find : Attribute → Nat → Argument → Except RangeError Finding}
    (h : ∀ a i argument, ∃ finding, find a i argument = .ok finding) (attr : Option Attribute) :
    ∃ found, findings attr find = .ok found := by
  cases attr with
  | none => exact ⟨[], rfl⟩
  | some a => exact exists_mapM_eq_ok fun _ _ => h a _ _

/-- Only a generated column that is declared with `var` asks for the length of its binding. -/
theorem fieldFinding_ok (role : Role) {f : Field} (h : ∀ s, f.bindingSpan = some s → s.Measured)
    (attr : Attribute) (i : Nat) (argument : Argument) :
    ∃ finding, fieldFinding role f attr i argument = .ok finding := by
  have hgenerated : ∃ finding, generatedFinding f argument = .ok finding := by
    unfold generatedFinding
    split
    · exact ⟨_, rfl⟩
    · split
      · obtain ⟨span, hspan⟩ := Span.orElse_ok h f.span
        rw [hspan]
        exact ⟨_, rfl⟩
      · exact ⟨_, rfl⟩
  unfold fieldFinding
  dsimp only
  split
  · split <;> exact ⟨_, rfl⟩
  · exact ⟨_, rfl⟩
  · split <;> exact ⟨_, rfl⟩
  · split
    · exact ⟨_, rfl⟩
    · exact hgenerated
  · exact ⟨_, rfl⟩

theorem ColumnSpec.ofField_ok (role : Role) {f : Field}
    (h : ∀ s, f.bindingSpan = some s → s.Measured) :
    ∃ resolved, ColumnSpec.ofField role f = .ok resolved := by
  unfold ColumnSpec.ofField
  dsimp only
  split
  · exact ⟨_, rfl⟩
  · split
    · exact ⟨_, rfl⟩
    · split
      · exact ⟨_, rfl⟩
      · split
        · exact ⟨_, rfl⟩
        · obtain ⟨found, hfound⟩ :=
            findings_ok (fieldFinding_ok role h) (Attribute.named? "Column" f.attributes)
          rw [ColumnSpec.ofOptions, hfound]
          exact ⟨_, rfl⟩

theorem RecordOutline.ofRecord_ok (settings : Options) (h : r.Measured) :
    ∃ outline, RecordOutline.ofRecord settings r = .ok outline := by
  obtain ⟨resolved, hresolved⟩ := exists_mapM_eq_ok fun f hf =>
    ColumnSpec.ofField_ok r.role (h.bindings f hf)
  unfold RecordOutline.ofRecord
  rw [hresolved]
  exact ⟨_, rfl⟩

theorem ColumnSpec.ofCase_ok {c : Case}
    (h : ∀ p ∈ c.payloads, ∀ s, p.span = some s → s.Measured) :
    ∃ resolved, ColumnSpec.ofCase c = .ok resolved := by
  unfold ColumnSpec.ofCase
  dsimp only
  split
  · exact ⟨_, rfl⟩
  · split
    · next p hp =>
      have hmem : p ∈ c.payloads := List.mem_of_head? (Option.filter_eq_some_iff.mp hp).1
      obtain ⟨span, hspan⟩ := Span.orElse_ok (h p hmem) c.span
      rw [hspan]
      exact ⟨_, rfl⟩
    · have hfind (a : Attribute) (i : Nat) (argument : Argument) : ∃ finding,
          (.ok (caseFinding c.name a i argument) : Except RangeError Finding) = .ok finding :=
        ⟨_, rfl⟩
      obtain ⟨found, hfound⟩ := findings_ok hfind (Attribute.named? "Column" c.attributes)
      rw [hfound]
      exact ⟨_, rfl⟩

theorem EnumOutline.case_ok (h : r.Measured) {case : Except RangeError Resolved}
    (hcase : case ∈ (EnumOutline.ofRecord settings r).cases) : ∃ resolved, case = .ok resolved := by
  obtain ⟨c, hc, rfl | rfl⟩ := EnumOutline.resolveCases_mem hcase
  · exact ⟨_, rfl⟩
  · exact ColumnSpec.ofCase_ok (h.payloads c hc)

/-- A span without a length can be reached: the derivation of the record may be stopped. -/
def Registry.Stops (registry : Registry) (r : Record) : Prop :=
  ∃ m, Relation.ReflTransGen registry.Refers r m ∧ ¬ m.Measured

theorem Registry.Stops.of_refers {m : Record} (h : registry.Stops m) (hm : registry.Refers r m) :
    registry.Stops r := by
  obtain ⟨m', hreach, hunmeasured⟩ := h
  exact ⟨m', .head hm hreach, hunmeasured⟩

/-! ## Results and errors -/

/-- There is a result if and only if there is no error. -/
def Derivation.Closed {α : Type} (d : Derivation α) : Prop :=
  d.result.isSome = !Diagnostic.hasErrors d.diagnostics

/-- Where nothing is reported, nothing has been given up. -/
theorem RecordOutcome.isSome {F : ColumnSpec → Resolution → Prop}
    {C : Resolved → Resolution → Prop} {outcome : Option Derived × List Diagnostic}
    (h : RecordOutcome settings F C r outcome) (hclean : Diagnostic.hasErrors outcome.2 = false) :
    outcome.1.isSome = true := by
  cases h with
  | unannotated => cases hclean
  | notStruct => cases hclean
  | @struct outline resolutions =>
    unfold RecordOutline.finish at hclean ⊢
    dsimp only at hclean ⊢
    split
    · next herrors =>
      rw [if_pos herrors] at hclean
      exact absurd (herrors.symm.trans hclean) nofun
    · rfl
  | @enum resolved =>
    unfold EnumOutline.finish at hclean ⊢
    dsimp only at hclean ⊢
    split
    · next herrors =>
      rw [if_pos herrors] at hclean
      exact absurd (herrors.symm.trans hclean) nofun
    · rfl

theorem RecordOutcome.closed {F : ColumnSpec → Resolution → Prop}
    {C : Resolved → Resolution → Prop} {outcome : Option Derived × List Diagnostic}
    (h : RecordOutcome settings F C r outcome) : (derivationOf r outcome).Closed := by
  unfold Derivation.Closed derivationOf Derivation.ofDiagnostics
  dsimp only
  rw [Diagnostic.hasErrors_within]
  cases hclean : Diagnostic.hasErrors outcome.2 with
  | true => rfl
  | false => exact h.isSome hclean

open Deriving

theorem deriveNew_closed {nested : Nested}
    (hn : ∀ m, registry.Refers r m → Meets (Known fun _ d => d.Closed) (registry.Stops r)
      (fun _ => True) (nested m)) :
    Meets (Known fun _ d => d.Closed) (registry.Stops r) Derivation.Closed
      (deriveNew registry settings nested r) := by
  have hasked : ∀ m, registry.Refers r m → Takes Anyhow (Known fun _ d => d.Closed)
      (fun c answer => Known (fun _ d => d.Closed) c ∧
        Answers (fun _ => False) (fun _ => True) True answer)
      (fun c => Known (fun _ d => d.Closed) c ∧ registry.Stops r) (nested m) := by
    intro m hm
    refine Meets.iff_takes.mp ((hn m hm).mono id fun answer _ => ?_)
    exact ⟨fun _ _ => trivial, fun _ h => h.elim, fun _ => trivial⟩
  refine Meets.iff_takes.mpr ((deriveNew_takes (F := fun _ _ _ => True) (C := fun _ _ _ => True)
    (fun _ _ _ _ _ _ => trivial) (fun _ _ _ _ _ _ => trivial) ?_ ?_ ?_).mono (fun _ hc => hc) ?_
    fun _ hc => hc)
  · intro annotated kind e he c hc
    refine ⟨hc, r, .refl, fun hmeasured => ?_⟩
    obtain ⟨outline, hok⟩ := RecordOutline.ofRecord_ok settings hmeasured
    rw [he] at hok
    cases hok
  · intro outline annotated kind outlined spec hspec
    refine (resolveField_takes (H := fun _ _ => False) (U := fun _ _ _ => True) (N := True)
      fun name m hname hfound => ?_).mono (fun _ hc => hc) (fun _ _ h => ⟨h.1, trivial⟩)
      fun _ hc => hc
    exact hasked m (.of_groupName kind outlined hspec hname hfound)
  · intro annotated kind case hcase
    refine (resolveCase_takes (H := fun _ _ => False) (U := fun _ _ _ => True) (N := True) ?_
      fun resolved spec name m hok hgroup hfound => ?_).mono (fun _ hc => hc)
      (fun _ _ h => ⟨h.1, h.2.1, trivial⟩) fun _ hc => hc
    · intro e he c hc
      refine ⟨hc, r, .refl, fun hmeasured => ?_⟩
      obtain ⟨resolved, hok⟩ := EnumOutline.case_ok hmeasured hcase
      rw [he] at hok
      cases hok
    · exact hasked m (.of_caseGroup kind hcase hok hgroup hfound)
  · rintro c d ⟨hc, outcome, houtcome, rfl⟩
    exact ⟨hc, houtcome.closed⟩

/-- Whatever is derived has a result or reports an error, and nothing stops it but a span that can
be reached. -/
theorem deriveWithin_closed : ∀ (depth : Nat) (closed : List Key) (r : Record),
    Meets (Known fun _ d => d.Closed) (registry.Stops r) Derivation.Closed
      (deriveWithin registry settings depth closed r)
  | 0, closed, r => by
    rw [deriveWithin]
    refine deriveCached_meets (Q := fun _ d => d.Closed) (deriveNew_closed fun m _ => ?_)
    exact Meets.pure trivial
  | depth + 1, closed, r => by
    rw [deriveWithin]
    refine deriveCached_meets (Q := fun _ d => d.Closed) (deriveNew_closed fun m hm => ?_)
    split
    · exact Meets.pure trivial
    · refine ((deriveWithin_closed depth _ m).mono ?_ fun _ hd => hd).bind fun _ _ =>
        Meets.pure trivial
      exact fun h => h.of_refers hm

/-! ## Schemas -/

namespace Schema

variable {s t : Schema} {reference : Reference}

theorem deriveRecord_closed (h : Known (fun _ d => d.Closed) s.progress.cache) (r : Record) :
    Known (fun _ d => d.Closed) (s.deriveRecord r).2.progress.cache ∧
      (∀ d, (s.deriveRecord r).1 = .ok d → d.Closed) ∧
      ∀ e, (s.deriveRecord r).1 = .error e → s.registry.Stops r :=
  deriveWithin_closed s.registry.records.length [] r s.progress h

theorem Reachable.known_closed (h : s.Reachable) :
    Known (fun _ d => d.Closed) s.progress.cache := by
  refine (Reachable.keeps (P := fun t => Known (fun _ d => d.Closed) t.progress.cache)
    ?_ ?_ ?_ h).1
  · intro settings k d hd
    cases hd
  · intro t u r ht hr
    rw [(register_eq_ok hr).2.2]
    exact ht
  · intro t r ht _
    exact (deriveRecord_closed ht r).1

/-- A derivation is not stopped where the spans of the record and of all that it reaches have
lengths. -/
theorem Reachable.exists_deriveRecord (hs : s.Reachable)
    (hmeasured : ∀ m, Relation.ReflTransGen s.registry.Refers r m → m.Measured) :
    ∃ d, (s.deriveRecord r).1 = .ok d := by
  obtain ⟨-, -, hstops⟩ := deriveRecord_closed hs.known_closed r
  cases hoff : (s.deriveRecord r).1 with
  | ok d => exact ⟨d, rfl⟩
  | error e =>
    obtain ⟨m, hreach, hunmeasured⟩ := hstops e hoff
    exact absurd (hmeasured m hreach) hunmeasured

/-- The call registers no record but one whose spans have lengths. -/
def Call.IsMeasured : Call → Prop
  | .parse source => (source.toList.length : Int) ≤ RangeError.longest
  | .register r => r.Measured
  | _ => True

theorem Call.IsMeasured.registers {call : Call} (h : call.IsMeasured)
    (hr : call.Registers s r) : r.Measured := by
  cases call with
  | parse source =>
    obtain ⟨records, hread, hmem⟩ := hr
    exact Record.measured_of_readAll hread h hmem
  | register r' =>
    obtain rfl := hr
    exact h
  | decorate attr c =>
    obtain ⟨t, hc⟩ := hr
    obtain ⟨-, c, rfl, hrecord⟩ := registerClass_eq_ok hc
    exact RecordClass.measured_of_record hrecord
  | derive reference => cases hr
  | deriveAll => cases hr

/-- No derivation is stopped in a schema of texts and classes. -/
theorem run_derives {settings : Options} {calls : List Call}
    (hcalls : ∀ call ∈ calls, call.IsMeasured)
    (hr : (Schema.run { settings } calls).registry.record? reference = some r) :
    ∃ d t, (Schema.run { settings } calls).derive? reference = some (.ok d, t) := by
  have hs := (Reachable.empty settings).run calls
  have hkeyed := ((Intact.empty settings).run calls).keyed
  obtain ⟨d, hd⟩ := hs.exists_deriveRecord fun m hm =>
    run_records (fun call hcall _ _ => (hcalls call hcall).registers)
      (hkeyed.get?_of_reaches (hkeyed.get?_of_record? hr) hm)
  exact ⟨d, _, by rw [derive?, hr, Option.map_some, ← hd]⟩

end Schema

end RowSchema
