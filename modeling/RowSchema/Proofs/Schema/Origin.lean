import RowSchema.Proofs.Reader.Spans
import RowSchema.Proofs.Schema.Calls

/-! # Where records come from

Every record of a schema was read from a text, registered as it is or reflected from a class by one
of the calls, in the schema as it was then. Only those of classes are kept under a class. -/

namespace RowSchema

/-! ## Records of texts -/

open Grammar

/-- The records that a symbol stands for are those of no class. -/
def Grammar.Unreflected : (s : Symbol) → Located s.Value → Prop
  | .part .declarations, x | .part .declarationList, x => ∀ r ∈ x.value, r.reflected = none
  | .part .declaration, x => x.value.reflected = none
  | _, _ => True

theorem Grammar.Tree.unreflected {s : Symbol} (t : Tree Label s) : Unreflected s t.located := by
  refine Tree.induct (P := fun {s} t => Unreflected s t.located) ?_ ?_ t
  · intro k x
    trivial
  · intro n symbols p children hall
    cases p with
    | declarations =>
      cases children with
      | cons list rest => exact hall.1
    | declarationsEmpty => exact fun r hr => (List.not_mem_nil hr).elim
    | declarationFirst =>
      cases children with
      | cons d rest =>
        intro r hr
        obtain rfl := List.mem_singleton.mp hr
        exact hall.1
    | declarationMore =>
      cases children with
      | cons list rest =>
        cases rest with
        | cons d rest =>
          intro r hr
          rcases List.mem_append.mp hr with hr | hr
          · exact hall.1 r hr
          · obtain rfl := List.mem_singleton.mp hr
            exact hall.2.1
    | declarationAttributed | declarationPlain => rfl
    | _ => trivial

theorem Record.reflected_of_readAll {source : String} {records : List Record}
    (h : Record.readAll source = .ok records) {r : Record} (hr : r ∈ records) :
    r.reflected = none := by
  obtain ⟨pieces, -, hscan⟩ := Record.exists_cut_of_readAll h
  obtain ⟨t, -, rfl⟩ := (Record.readAll_eq_ok_iff hscan).mp h
  exact t.unreflected r hr

/-! ## Records of classes -/

section Classes

variable {registry : Registry} {r : Record}

/-- What a field of a class is reflected as. -/
structure ClassField.Reflected (f : ClassField) (field : Field) : Prop where
  name_eq : field.name = f.name
  bindingSpan_eq : field.bindingSpan = none
  groupClass_eq : (Attribute.named? "Columns" field.attributes).isSome = true →
    field.groupClass = f.hint.unwrap.base.class?

theorem ClassField.reflected_of_field {c : RecordClass} {f : ClassField} {field : Field}
    (h : f.field registry c = .ok field) : f.Reflected field := by
  unfold ClassField.field at h
  dsimp only at h
  split at h <;> cases h
  exact ⟨rfl, rfl, fun hgroup => if_pos hgroup⟩

/-- What a class is reflected as. -/
structure RecordClass.Reflected (c : RecordClass) (r : Record) : Prop where
  kind_eq : r.kind = .struct
  cases_eq : r.cases = []
  maker_eq : r.maker = some c.maker
  reflected_eq : r.reflected = some c.id
  fields : List.Forall₂ ClassField.Reflected c.fields r.fields

theorem RecordClass.reflected_of_record {attr : Attribute} {c : RecordClass}
    (h : c.record registry attr = .ok r) : c.Reflected r := by
  obtain ⟨fields, hfields, h⟩ := bind_eq_ok.mp h
  cases h
  have hreflected := (mapM_eq_ok.mp hfields).imp fun _ _ => ClassField.reflected_of_field
  exact ⟨rfl, rfl, rfl, rfl, hreflected⟩

end Classes

/-! ## Records of calls -/

namespace Schema

variable {s : Schema} {r : Record} {k : Key}

/-- The call is made of `s` and would register the record. -/
def Call.Registers (s : Schema) (r : Record) : Call → Prop
  | .parse source => ∃ records, Record.readAll source = .ok records ∧ r ∈ records
  | .register r' => r' = r
  | .decorate attr c => ∃ t, s.registerClass attr c = .ok (t, r)
  | .derive _ => False
  | .deriveAll => False

theorem register_origin {t : Schema} {r' : Record} (hr : s.register r' = .ok t)
    (h : t.registry.records.get? k = some r) :
    s.registry.records.get? k = some r ∨ r' = r := by
  rw [(Registry.register?_eq_some (register_eq_ok hr).1).2] at h
  rcases Dictionary.get?_put_eq h with ⟨-, rfl⟩ | h
  · exact .inr rfl
  · exact .inl h

theorem registerAll_origin {records : List Record}
    (h : (s.registerAll records).1.registry.records.get? k = some r) :
    s.registry.records.get? k = some r ∨ r ∈ records := by
  induction records generalizing s with
  | nil => exact .inl h
  | cons first rest ih =>
    rw [registerAll] at h
    cases hr : s.register first with
    | error e =>
      rw [hr] at h
      exact .inl h
    | ok t =>
      rw [hr] at h
      rcases ih h with hold | hmem
      · rcases register_origin hr hold with hold | rfl
        · exact .inl hold
        · exact .inr List.mem_cons_self
      · exact .inr (List.mem_cons_of_mem _ hmem)

theorem parse_origin {source : String}
    (h : (s.parse source).1.registry.records.get? k = some r) :
    s.registry.records.get? k = some r ∨
      ∃ records, Record.readAll source = .ok records ∧ r ∈ records := by
  unfold parse at h
  cases hread : Record.readAll source with
  | error e =>
    rw [hread] at h
    exact .inl h
  | ok records =>
    have hall : (s.registerAll records).1.registry.records.get? k = some r := by
      rw [hread] at h
      dsimp only at h
      split at h <;> next heq => rwa [heq]
    exact (registerAll_origin hall).imp_right fun hmem => ⟨records, rfl, hmem⟩

/-- What is registered after a call was so before, or is registered by the call. -/
theorem after_origin (hkeyed : s.registry.Keyed) {call : Call}
    (h : (s.after call).registry.records.get? k = some r) :
    s.registry.records.get? k = some r ∨ call.Registers s r := by
  cases call with
  | parse source => exact parse_origin h
  | register r' =>
    rw [after] at h
    cases hr : s.register r' with
    | error e =>
      rw [hr] at h
      exact .inl h
    | ok t =>
      rw [hr] at h
      exact register_origin hr h
  | decorate attr c =>
    rw [after] at h
    cases hc : s.registerClass attr c with
    | error e =>
      rw [hc] at h
      exact .inl h
    | ok pair =>
      obtain ⟨t, r'⟩ := pair
      rw [hc] at h
      refine (register_origin (registerClass_eq_ok hc).1 h).imp_right ?_
      rintro rfl
      exact ⟨t, hc⟩
  | derive reference =>
    refine .inl ?_
    rw [after] at h
    cases hd : s.derive? reference with
    | none =>
      rw [hd] at h
      exact h
    | some pair =>
      rw [hd] at h
      rwa [← (extends_derive? hkeyed hd).registry_eq]
  | deriveAll =>
    refine .inl ?_
    rwa [← (extends_deriveAll hkeyed rfl).registry_eq]

/-- Every record of a schema that started out empty was registered by one of its calls. -/
theorem run_origin {settings : Options} {calls : List Call}
    (h : (Schema.run { settings } calls).registry.records.get? k = some r) :
    ∃ earlier call later, calls = earlier ++ call :: later ∧
      call.Registers (Schema.run { settings } earlier) r := by
  induction calls using List.reverseRecOn with
  | nil => cases h
  | append_singleton calls call ih =>
    rw [run_append] at h
    have hkeyed := ((Intact.empty settings).run calls).keyed
    rcases after_origin hkeyed h with hold | hnew
    · obtain ⟨earlier, call', later, rfl, hregisters⟩ := ih hold
      exact ⟨earlier, call', later ++ [call], by simp, hregisters⟩
    · exact ⟨calls, call, [], rfl, hnew⟩

/-- What holds of every record that a call registers holds of all records. -/
theorem run_records {P : Record → Prop} {settings : Options} {calls : List Call}
    (step : ∀ call ∈ calls, ∀ t r, call.Registers t r → P r)
    (h : (Schema.run { settings } calls).registry.records.get? k = some r) : P r := by
  obtain ⟨earlier, call, later, rfl, hregisters⟩ := run_origin h
  exact step call (List.mem_append_right _ List.mem_cons_self) _ r hregisters

end Schema

end RowSchema
