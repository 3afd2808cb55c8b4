import RowSchema.Proofs.Reader.Removal
import RowSchema.Proofs.Schema.FixIts

/-! # Fix-its carried out

A fix-it of a derivation announces an edit. Where its replacement is put in place of its span, the
text is read again as the records after that edit, if the replacement can be read back. A string
with a line break in it is not written so that it can be. -/

namespace RowSchema

namespace Record

/-- The fix-it announces the edit of what stands at the span. Its replacement is written from the
arguments. -/
inductive Announces (r : Record) : FixIt → Span → Edit → List Argument → Prop
  | argument {a : Attribute} {i : Nat} {b : Argument} {s : Span} (ha : a ∈ r.allAttributes)
      (hb : a.arguments[i]? = some b) (hs : a.span = some s) :
      Announces r ⟨"Remove '" ++ b.source ++ "'", a.sourceWithout i, some s⟩ s
        (Edit.removeArgument s i) (a.arguments.eraseIdx i)
  | whole {a : Attribute} {s : Span} (ha : a ∈ r.allAttributes) (hs : a.span = some s) :
      Announces r ⟨"Remove '" ++ a.source ++ "'", "", some s⟩ s (Edit.removeAttribute s) []
  | keyword {f : Field} {s : Span} (hf : f ∈ r.fields) (hmutable : f.isMutable = true)
      (hs : f.bindingSpan = some s) :
      Announces r ⟨"Replace 'var' with 'let'", "let", some s⟩ s (Edit.declareLet s) []

variable {r : Record} {fix : FixIt} {s : Span} {a : Attribute}

theorem mem_allAttributes_of_field {f : Field} (hf : f ∈ r.fields) (ha : a ∈ f.attributes) :
    a ∈ r.allAttributes :=
  List.mem_append_right _ (List.mem_append_left _ (List.mem_flatMap.mpr ⟨f, hf, ha⟩))

theorem mem_allAttributes_of_case {c : Case} (hc : c ∈ r.cases) (ha : a ∈ c.attributes) :
    a ∈ r.allAttributes :=
  List.mem_append_right _ (List.mem_append_right _ (List.mem_flatMap.mpr ⟨c, hc, ha⟩))

theorem announces_of_attribute (ha : a ∈ r.allAttributes) (h : a.Suggests fix)
    (hs : fix.span = some s) : ∃ e arguments, r.Announces fix s e arguments := by
  cases h with
  | @argument i b hb =>
    have hspan : a.span = some s := hs
    have hfix : removeArgument a i b =
        ⟨"Remove '" ++ b.source ++ "'", a.sourceWithout i, some s⟩ := by
      rw [removeArgument, hspan]
    rw [hfix]
    exact ⟨_, _, .argument ha hb hspan⟩

/-- Each fix-it about the record announces an edit, but the one that asks for a type. -/
theorem Suggests.announces (h : r.Suggests fix) (hs : fix.span = some s)
    (hplaceholder : fix.replacement ≠ ": <#Type#>") :
    ∃ e arguments, r.Announces fix s e arguments := by
  cases h with
  | argument ha h => exact announces_of_attribute (List.mem_append_left _ ha) h hs
  | field hf h =>
    cases h with
    | argument ha h => exact announces_of_attribute (mem_allAttributes_of_field hf ha) h hs
    | @whole a ha =>
      have hspan : a.span = some s := hs
      rw [hspan]
      exact ⟨_, _, .whole (mem_allAttributes_of_field hf ha) hspan⟩
    | keyword hspan hmutable =>
      obtain rfl := Option.some.inj hs
      exact ⟨_, _, .keyword hf hmutable hspan⟩
  | case hc h =>
    cases h with
    | argument ha h => exact announces_of_attribute (mem_allAttributes_of_case hc ha) h hs
  | type => exact absurd rfl hplaceholder

/-- What a fix-it announces comes about where its replacement can be read back. -/
theorem Announces.exists_readAll {source : String} {records : List Record} {e : Edit}
    {arguments : List Argument} (h : r.Announces fix s e arguments)
    (hread : readAll source = .ok records) (hr : r ∈ records)
    (hrewritable : s.Rewritable source fix.replacement arguments) :
    ∃ edited, readAll (s.replaceIn source fix.replacement) = .ok edited ∧
      edited.map unplaced = records.map fun r => (e.record r).unplaced := by
  cases h with
  | argument ha hb hs => exact exists_readAll_removeArgument hread hr ha hs _ hrewritable
  | whole ha hs => exact exists_readAll_removeAttribute hread hr ha hs hrewritable.apart
  | keyword hf hmutable hs =>
    exact exists_readAll_declareLet hread hr hf hmutable hs hrewritable.apart

end Record

namespace Schema

/-- Each fix-it of the derivation of a record of a text announces an edit, but the one that asks
for a type. Where its replacement can be read back, the text with the replacement at the span of
the fix-it is read as the records after that edit, up to spans. -/
theorem Explored.readAll_fixIt {source : String} {records : List Record} {r : Record}
    {s t u : Schema} {reference : Reference} {d : Derivation Derived} {report : Diagnostic}
    {fix : FixIt} {span : Span} (hread : Record.readAll source = .ok records) (hr : r ∈ records)
    (hs : s.Filled) (h : s.Explored t) (hrecord : t.registry.record? reference = some r)
    (hd : t.derive? reference = some (.ok d, u)) (hreport : report ∈ d.diagnostics)
    (hfix : fix ∈ report.fixIts) (hspan : fix.span = some span)
    (hplaceholder : fix.replacement ≠ ": <#Type#>") :
    ∃ (e : Edit) (arguments : List Argument), r.Announces fix span e arguments ∧
      (span.Rewritable source fix.replacement arguments →
        ∃ edited, Record.readAll (span.replaceIn source fix.replacement) = .ok edited ∧
          edited.map Record.unplaced = records.map fun r => (e.record r).unplaced) := by
  obtain ⟨e, arguments, hannounces⟩ :=
    (h.suggested hs hrecord hd report hreport fix hfix).announces hspan hplaceholder
  exact ⟨e, arguments, hannounces, hannounces.exists_readAll hread hr⟩

/-- A table with a column whose attribute has an argument too many. The first argument, the name
of the column, ends at that offset. -/
def columnRecord (name : String) (stop : Nat) : Record where
  name := "A"
  span := some ⟨0, stop + 19⟩
  attributes := [{ name := "Table", span := some ⟨0, 6⟩ }]
  fields :=
    [{ name := "x", type := some { name := "Int" }
       attributes :=
         [{ name := "Column", span := some ⟨16, stop + 7⟩
            arguments :=
              [⟨none, .string name, some ⟨24, stop⟩⟩,
                ⟨some "c", .integer 1, some ⟨stop + 2, stop + 6⟩⟩] }]
       span := some ⟨16, stop + 18⟩, bindingSpan := some ⟨stop + 8, stop + 11⟩
       nameSpan := some ⟨stop + 12, stop + 13⟩ }]

/-- The argument is taken out of a text in which nothing stands in the way. -/
theorem readAll_fixIt_column :
    let source := "@Table struct A\x7b@Column(\"b\", c: 1) var x: Int\x7d"
    let r := columnRecord "b" 27
    let s := (registerAll {} [r]).1
    let fix : FixIt := ⟨"Remove 'c: 1'", "@Column(\"b\")", some ⟨16, 34⟩⟩
    ∃ (u : Schema) (d : Derivation Derived) (report : Diagnostic),
      Record.readAll source = .ok [r] ∧ s.Filled ∧ s.registry.record? (.name "A") = some r ∧
      s.derive? (.name "A") = some (.ok d, u) ∧ report ∈ d.diagnostics ∧ fix ∈ report.fixIts ∧
      ∃ (e : Edit) (arguments edited : _), r.Announces fix ⟨16, 34⟩ e arguments ∧
        Record.readAll (Span.replaceIn ⟨16, 34⟩ source fix.replacement) = .ok edited ∧
        edited.map Record.unplaced = [r].map fun r => (e.record r).unplaced := by
  have hread : Record.readAll "@Table struct A\x7b@Column(\"b\", c: 1) var x: Int\x7d" =
      .ok [columnRecord "b" 27] := by
    rw [Record.readAll]
    conv in Token.scan _ => cbv
    rfl
  have hblank : ("@Table struct A\x7b@Column(\"b\", c: 1) var x: Int\x7d".toList.drop
      (34 : Int).toNat).head?.any Token.isNameChar = false := by
    decide
  have hnone : ((Token.scan "@Table struct A\x7b@Column(\"b\", c: 1) var x: Int\x7d").1.all
      fun token => token.kind != .float) = true := by
    conv in Token.scan _ => cbv
    rfl
  intro source r s fix
  have hs : s.Filled := (Filled.empty {}).registerAll _
  have hrecord : s.registry.record? (.name "A") = some r := rfl
  obtain ⟨u, d, report, hd, hreport, hfix⟩ : ∃ (u : Schema) (d : Derivation Derived)
      (report : Diagnostic), s.derive? (.name "A") = some (.ok d, u) ∧ report ∈ d.diagnostics ∧
        fix ∈ report.fixIts := ⟨_, _, _, rfl, List.mem_cons_self, List.mem_cons_self⟩
  have hrewritable (arguments : List Argument) :
      Span.Rewritable ⟨16, 34⟩ source fix.replacement arguments := by
    refine ⟨by decide, ?_, fun token htoken x hx => ?_⟩
    · rintro ⟨-, -, -, hafter⟩
      rw [hblank] at hafter
      cases hafter
    · have hfloat := List.all_eq_true.mp hnone token htoken
      rw [Token.kind, hx] at hfloat
      cases hfloat
  obtain ⟨e, arguments, hannounces, hall⟩ := Explored.readAll_fixIt hread List.mem_cons_self hs
    .start hrecord hd hreport hfix rfl (by decide)
  obtain ⟨edited, hedited, hsame⟩ := hall (hrewritable arguments)
  exact ⟨u, d, report, hread, hs, hrecord, hd, hreport, hfix, e, arguments, edited, hannounces,
    hedited, hsame⟩

/-- Not every fix-it can be carried out: where a line breaks in a string of another argument, the
text with the replacement is not read. -/
theorem not_readAll_fixIt : ¬ ∀ (source : String) (records : List Record) (r : Record)
    (s t u : Schema) (reference : Reference) (d : Derivation Derived) (report : Diagnostic)
    (fix : FixIt) (span : Span), Record.readAll source = .ok records → r ∈ records → s.Filled →
      s.Explored t → t.registry.record? reference = some r →
      t.derive? reference = some (.ok d, u) → report ∈ d.diagnostics → fix ∈ report.fixIts →
      fix.span = some span → fix.replacement ≠ ": <#Type#>" →
        ∃ edited, Record.readAll (span.replaceIn source fix.replacement) = .ok edited := by
  intro h
  have hread : Record.readAll "@Table struct A\x7b@Column(\"b\\n\", c: 1) var x: Int\x7d" =
      .ok [columnRecord "b\n" 29] := by
    rw [Record.readAll]
    conv in Token.scan _ => cbv
    rfl
  obtain ⟨edited, hedited⟩ := h _ [columnRecord "b\n" 29] (columnRecord "b\n" 29) _ _ _
    (.name "A") _ _ _ _ hread List.mem_cons_self
    ((Filled.empty {}).registerAll [columnRecord "b\n" 29]) .start rfl rfl List.mem_cons_self
    List.mem_cons_self rfl (by decide)
  have hillegal : Record.readAll "@Table struct A\x7b@Column(\"b\n\") var x: Int\x7d" =
      .error (.illegal '"' 24) := by
    rw [Record.readAll]
    conv in Token.scan _ => cbv
    rfl
  have hsource : Span.replaceIn ⟨16, 36⟩ "@Table struct A\x7b@Column(\"b\\n\", c: 1) var x: Int\x7d"
      "@Column(\"b\n\")" = "@Table struct A\x7b@Column(\"b\n\") var x: Int\x7d" := by
    cbv
  have hfound : Record.readAll "@Table struct A\x7b@Column(\"b\n\") var x: Int\x7d" = .ok edited :=
    hsource ▸ hedited
  rw [hillegal] at hfound
  cases hfound

end Schema

end RowSchema
