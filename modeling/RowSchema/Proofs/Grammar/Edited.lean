import Mathlib.Data.List.ReduceOption
import RowSchema.Proofs.Grammar.Spans
import RowSchema.Proofs.Record.Edit

/-! # Values up to spans and an edit

What a derivation declares may differ from what another one does by an edit and otherwise in spans
only. Every production keeps this: if the values of its symbols are so related, the values of the
part are. -/

namespace RowSchema

namespace Grammar

/-- The binding without spans. -/
def Binding.unplaced (b : Binding) : Binding :=
  { b with nameSpan := ⟨0, 0⟩, default := b.default.map Expr.unplaced }

/-- The declaration without spans. -/
def FieldDecl.unplaced (d : FieldDecl) : FieldDecl :=
  { d with first := d.first.unplaced, more := d.more.map Binding.unplaced, keyword := ⟨0, 0⟩ }

/-- The member without spans. -/
def memberUnplaced : Field ⊕ Case → Field ⊕ Case := Sum.map Field.unplaced Case.unplaced

end Grammar

open Grammar

namespace Edit

def fieldDecl (e : Edit) (d : FieldDecl) : FieldDecl :=
  { d with isMutable := d.isMutable && e.staysMutable (some d.keyword) }

def member (e : Edit) : Field ⊕ Case → Field ⊕ Case := Sum.map e.field e.case

/-- The second value is what the edit makes of the first, up to spans. -/
def Edits (e : Edit) : (s : Symbol) → Located s.Value → Located s.Value → Prop
  | .part .declarations, x, y | .part .declarationList, x, y =>
    y.value.map Record.unplaced = x.value.map fun r => (e.record r).unplaced
  | .part .declaration, x, y => y.value.unplaced = (e.record x.value).unplaced
  | .part .recordBody, x, y =>
    y.value.map (List.map memberUnplaced) =
      x.value.map (List.map fun m => memberUnplaced (e.member m))
  | .part .memberList, x, y =>
    y.value.map (Option.map (List.map memberUnplaced)) =
      x.value.map (Option.map (List.map fun m => memberUnplaced (e.member m)))
  | .part .member, x, y =>
    y.value.map (List.map memberUnplaced) =
      x.value.map (List.map fun m => memberUnplaced (e.member m))
  | .part .attributeList, x, y =>
    y.value.map Attribute.unplaced = (e.attributes x.value).map Attribute.unplaced
  | .part .attributeItem, x, y =>
    some y.value.unplaced = (e.revised x.value).map Attribute.unplaced
  | .part .argumentList, x, y =>
    Argument.unplacedAll y.value = Argument.unplacedAll x.value
  | .part .argument, x, y => y.value.unplaced = x.value.unplaced
  | .part .fieldDecl, x, y => y.value.unplaced = (e.fieldDecl x.value).unplaced
  | .part .bindingKeyword, x, y => y.value = (x.value && e.staysMutable (some x.span))
  | .part .bindingList, x, y =>
    y.value.1.unplaced = x.value.1.unplaced ∧
      y.value.2.map Binding.unplaced = x.value.2.map Binding.unplaced
  | .part .binding, x, y => y.value.unplaced = x.value.unplaced
  | .part .caseDecl, x, y | .part .caseList, x, y =>
    y.value.map Case.unplaced = x.value.map Case.unplaced
  | .part .caseItem, x, y => y.value.unplaced = x.value.unplaced
  | .part .payloadList, x, y => y.value.map Payload.unplaced = x.value.map Payload.unplaced
  | .part .payload, x, y => y.value.unplaced = x.value.unplaced
  | .part .expression, x, y | .part .literal, x, y | .part .postfixExpr, x, y
  | .part .arrayLiteral, x, y => y.value.unplaced = x.value.unplaced
  | .part .expressionList, x, y => Expr.unplacedAll y.value = Expr.unplacedAll x.value
  | .part _, x, y => y.value = x.value
  | .token _, x, y => y.value = x.value

/-- The values are so related one by one. -/
def EditsAll (e : Edit) : {symbols : List Symbol} → Values symbols → Values symbols → Prop
  | [], _, _ => True
  | s :: _, ⟨x, xs⟩, ⟨y, ys⟩ => e.Edits s x y ∧ e.EditsAll xs ys

/-- The edit leaves an attribute and the keyword of a field as they are. -/
def Keeps (e : Edit) : (n : Nonterminal) → Located n.Value → Prop
  | .attributeItem, x => e.revised x.value = some x.value
  | .bindingKeyword, x => e.staysMutable (some x.span) = true
  | _, _ => True

end Edit

namespace Grammar

/-! ## Parts of productions -/

theorem unplaced_memberOf (base : Expr) (name : String) :
    (memberOf base name).unplaced = memberOf base.unplaced name := by
  cases base with
  | reference path =>
    simp only [memberOf, Expr.unplaced]
    split <;> rfl
  | array elements =>
    simp only [memberOf]
    rw [Expr.source_unplaced]
    rfl
  | call callee arguments =>
    simp only [memberOf]
    rw [Expr.source_unplaced]
    rfl
  | _ => rfl

theorem unplaced_optionalMemberOf (base : Expr) (name : String) :
    (optionalMemberOf base name).unplaced = optionalMemberOf base.unplaced name := by
  cases base with
  | reference path =>
    simp only [optionalMemberOf, Expr.unplaced]
    split <;> rfl
  | array elements =>
    simp only [optionalMemberOf]
    rw [Expr.source_unplaced]
    rfl
  | call callee arguments =>
    simp only [optionalMemberOf]
    rw [Expr.source_unplaced]
    rfl
  | _ => rfl

variable {e : Edit}

theorem unplaced_field {d d' : FieldDecl} {attributes attributes' : List Attribute}
    {span span' : Span} (hd : d'.unplaced = (e.fieldDecl d).unplaced)
    (hattributes : attributes'.map Attribute.unplaced =
      (e.attributes attributes).map Attribute.unplaced) :
    memberUnplaced (.inl (d'.field attributes' span')) =
      memberUnplaced (e.member (.inl (d.field attributes span))) := by
  simp only [FieldDecl.unplaced, Binding.unplaced, Edit.fieldDecl, FieldDecl.mk.injEq,
    Binding.mk.injEq] at hd
  obtain ⟨⟨hname, -, htype, hdefault, hcomputed⟩, hmore, hmutable, -, hstatic⟩ := hd
  have hlength : d'.more.length = d.more.length := by
    simpa using congrArg List.length hmore
  simp only [memberUnplaced, Edit.member, Sum.map_inl, Field.unplaced, Edit.field, FieldDecl.field,
    hname, htype, hdefault, hcomputed, hlength, hmutable, hstatic, hattributes]

theorem unplaced_casesWith {cases cases' : List Case} {attributes attributes' : List Attribute}
    (hcases : cases'.map Case.unplaced = cases.map Case.unplaced)
    (hattributes : attributes'.map Attribute.unplaced =
      (e.attributes attributes).map Attribute.unplaced) :
    (casesWith cases' attributes').map memberUnplaced =
      (casesWith cases attributes).map fun m => memberUnplaced (e.member m) := by
  have hshared (cs : List Case) (as : List Attribute) :
      (casesWith cs as).map memberUnplaced = (cs.map Case.unplaced).map fun c =>
        .inr { c with attributes := as.map Attribute.unplaced } := by
    simp only [casesWith, List.map_map]
    rfl
  have hedited : (casesWith cases attributes).map (fun m => memberUnplaced (e.member m)) =
      (casesWith cases (e.attributes attributes)).map memberUnplaced := by
    simp only [casesWith, List.map_map]
    rfl
  rw [hedited, hshared, hshared, hcases, hattributes]

theorem unplaced_recordOf {header : Kind × String} {attributes attributes' : List Attribute}
    {groups groups' : List (List (Field ⊕ Case))} {span span' : Span}
    (hattributes : attributes'.map Attribute.unplaced =
      (e.attributes attributes).map Attribute.unplaced)
    (hgroups : groups'.map (List.map memberUnplaced) =
      groups.map (List.map fun m => memberUnplaced (e.member m))) :
    (recordOf header attributes' groups' span').unplaced =
      (e.record (recordOf header attributes groups span)).unplaced := by
  have hmembers := congrArg List.flatten hgroups
  simp only [← List.map_flatten] at hmembers
  have hfields := congrArg (List.filterMap Sum.getLeft?) hmembers
  have hcases := congrArg (List.filterMap Sum.getRight?) hmembers
  have hleft (f : Field → Field) (c : Case → Case) (ms : List (Field ⊕ Case)) :
      (ms.map (Sum.map f c)).filterMap Sum.getLeft? = (ms.filterMap Sum.getLeft?).map f := by
    rw [List.filterMap_map, List.map_filterMap]
    refine List.filterMap_congr fun m _ => ?_
    cases m <;> rfl
  have hright (f : Field → Field) (c : Case → Case) (ms : List (Field ⊕ Case)) :
      (ms.map (Sum.map f c)).filterMap Sum.getRight? = (ms.filterMap Sum.getRight?).map c := by
    rw [List.filterMap_map, List.map_filterMap]
    refine List.filterMap_congr fun m _ => ?_
    cases m <;> rfl
  have hboth (m : Field ⊕ Case) : memberUnplaced (e.member m) =
      Sum.map (fun f => (e.field f).unplaced) (fun c => (e.case c).unplaced) m := by
    cases m <;> rfl
  simp only [hboth] at hfields hcases
  simp only [memberUnplaced, hleft, hright] at hfields hcases
  simp only [Record.unplaced, Edit.record, recordOf, hattributes, List.map_map,
    Function.comp_def, hfields, hcases]

theorem unplaced_attributes_singleton {a a' : Attribute}
    (h : some a'.unplaced = (e.revised a).map Attribute.unplaced) :
    [a'].map Attribute.unplaced = (e.attributes [a]).map Attribute.unplaced := by
  cases hrevised : e.revised a with
  | none => simp [hrevised] at h
  | some b =>
    have hb : a'.unplaced = b.unplaced := by simpa [hrevised] using h
    simp [Edit.attributes, hrevised, hb]

/-! ## Productions -/

/-- Values related by an edit are put together to values so related, unless the edit changes the
very part that they make up. -/
theorem edits_action {n : Nonterminal} {symbols : List Symbol} (p : Production n symbols)
    (xs ys : Values symbols) (h : e.EditsAll xs ys) (hkeeps : e.Keeps n ⟨action p xs, xs.span⟩) :
    e.Edits (.part n) ⟨action p xs, xs.span⟩ ⟨action p ys, ys.span⟩ := by
  cases p with
  | declarations =>
    obtain ⟨x, ⟨⟩⟩ := xs
    obtain ⟨y, ⟨⟩⟩ := ys
    exact h.1
  | declarationsEmpty => rfl
  | declarationFirst =>
    obtain ⟨x, ⟨⟩⟩ := xs
    obtain ⟨y, ⟨⟩⟩ := ys
    exact congrArg (fun r => [r]) h.1
  | declarationMore =>
    obtain ⟨records, r, ⟨⟩⟩ := xs
    obtain ⟨records', r', ⟨⟩⟩ := ys
    obtain ⟨hrecords, hr, _⟩ := h
    simp only [Edit.Edits] at hrecords hr
    simp only [Edit.Edits, action, List.map_append, List.map_cons, List.map_nil, hrecords, hr]
  | declarationAttributed =>
    obtain ⟨attributes, header, body, ⟨⟩⟩ := xs
    obtain ⟨attributes', header', body', ⟨⟩⟩ := ys
    obtain ⟨hattributes, hheader, hbody, _⟩ := h
    have hheader : header'.value = header.value := hheader
    simp only [Edit.Edits, action, hheader]
    exact unplaced_recordOf hattributes hbody
  | declarationPlain =>
    obtain ⟨header, body, ⟨⟩⟩ := xs
    obtain ⟨header', body', ⟨⟩⟩ := ys
    obtain ⟨hheader, hbody, _⟩ := h
    have hheader : header'.value = header.value := hheader
    simp only [Edit.Edits, action, hheader]
    exact unplaced_recordOf rfl hbody
  | header =>
    obtain ⟨kind, name, ⟨⟩⟩ := xs
    obtain ⟨kind', name', ⟨⟩⟩ := ys
    exact Prod.ext h.1 h.2.1
  | headerConforming =>
    obtain ⟨kind, name, colon, list, ⟨⟩⟩ := xs
    obtain ⟨kind', name', colon', list', ⟨⟩⟩ := ys
    exact Prod.ext h.1 h.2.1
  | structKeyword | enumKeyword | classKeyword => rfl
  | conformanceFirst | conformanceMore => rfl
  | body =>
    obtain ⟨opening, members, closing, ⟨⟩⟩ := xs
    obtain ⟨opening', members', closing', ⟨⟩⟩ := ys
    have hmembers := congrArg List.reduceOption h.2.1
    simpa only [Edit.Edits, action, List.reduceOption_map] using hmembers
  | bodyEmpty => rfl
  | memberFirst =>
    obtain ⟨m, ⟨⟩⟩ := xs
    obtain ⟨m', ⟨⟩⟩ := ys
    exact congrArg (fun m => [m]) h.1
  | memberMore =>
    obtain ⟨members, m, ⟨⟩⟩ := xs
    obtain ⟨members', m', ⟨⟩⟩ := ys
    obtain ⟨hmembers, hm, _⟩ := h
    simp only [Edit.Edits] at hmembers hm
    simp only [Edit.Edits, action, List.map_append, List.map_cons, List.map_nil, hmembers, hm]
  | memberSeparator => rfl
  | memberField =>
    obtain ⟨d, ⟨⟩⟩ := xs
    obtain ⟨d', ⟨⟩⟩ := ys
    exact congrArg (fun m => some [m]) (unplaced_field h.1 rfl)
  | memberFieldAttributed =>
    obtain ⟨attributes, d, ⟨⟩⟩ := xs
    obtain ⟨attributes', d', ⟨⟩⟩ := ys
    exact congrArg (fun m => some [m]) (unplaced_field h.2.1 h.1)
  | memberCase =>
    obtain ⟨cases, ⟨⟩⟩ := xs
    obtain ⟨cases', ⟨⟩⟩ := ys
    exact congrArg some (unplaced_casesWith h.1 rfl)
  | memberCaseAttributed =>
    obtain ⟨attributes, cases, ⟨⟩⟩ := xs
    obtain ⟨attributes', cases', ⟨⟩⟩ := ys
    exact congrArg some (unplaced_casesWith h.2.1 h.1)
  | attributeFirst =>
    obtain ⟨a, ⟨⟩⟩ := xs
    obtain ⟨a', ⟨⟩⟩ := ys
    exact unplaced_attributes_singleton h.1
  | attributeMore =>
    obtain ⟨attributes, a, ⟨⟩⟩ := xs
    obtain ⟨attributes', a', ⟨⟩⟩ := ys
    obtain ⟨hattributes, ha, _⟩ := h
    simp only [Edit.Edits] at hattributes
    simp only [Edit.Edits, action, Edit.attributes_append, List.map_append, hattributes]
    exact congrArg _ (unplaced_attributes_singleton ha)
  | attributeBare | attributeEmpty =>
    obtain ⟨sign, name, rest⟩ := xs
    obtain ⟨sign', name', rest'⟩ := ys
    obtain ⟨_, hname, _⟩ := h
    have hname : name'.value = name.value := hname
    simp only [Edit.Keeps, action] at hkeeps
    simp only [Edit.Edits, action, hkeeps, hname]
    rfl
  | attributeArguments =>
    obtain ⟨sign, name, opening, arguments, closing, ⟨⟩⟩ := xs
    obtain ⟨sign', name', opening', arguments', closing', ⟨⟩⟩ := ys
    obtain ⟨_, hname, _, harguments, _⟩ := h
    have hname : name'.value = name.value := hname
    simp only [Edit.Keeps, action] at hkeeps
    simp only [Edit.Edits] at harguments
    simp only [Edit.Edits, action, hkeeps, hname, Option.map_some, Attribute.unplaced, harguments]
  | argumentFirst =>
    obtain ⟨a, ⟨⟩⟩ := xs
    obtain ⟨a', ⟨⟩⟩ := ys
    exact congrArg (fun a => [a]) h.1
  | argumentMore =>
    obtain ⟨arguments, comma, a, ⟨⟩⟩ := xs
    obtain ⟨arguments', comma', a', ⟨⟩⟩ := ys
    obtain ⟨harguments, _, ha, _⟩ := h
    simp only [Edit.Edits, Argument.unplacedAll_eq_map] at harguments ha
    simp only [Edit.Edits, action, Argument.unplacedAll_eq_map, List.map_append, harguments,
      List.map_cons, ha]
  | argumentPositional =>
    obtain ⟨x, ⟨⟩⟩ := xs
    obtain ⟨y, ⟨⟩⟩ := ys
    have hvalue : y.value.unplaced = x.value.unplaced := h.1
    simp only [Edit.Edits, action, Argument.unplaced, hvalue]
  | argumentLabeled =>
    obtain ⟨label, colon, x, ⟨⟩⟩ := xs
    obtain ⟨label', colon', y, ⟨⟩⟩ := ys
    obtain ⟨hlabel, _, hvalue, _⟩ := h
    have hlabel : label'.value = label.value := hlabel
    have hvalue : y.value.unplaced = x.value.unplaced := hvalue
    simp only [Edit.Edits, action, Argument.unplaced, hlabel, hvalue]
  | field =>
    obtain ⟨keyword, bindings, ⟨⟩⟩ := xs
    obtain ⟨keyword', bindings', ⟨⟩⟩ := ys
    obtain ⟨hkeyword, ⟨hfirst, hmore⟩, _⟩ := h
    simp only [Edit.Edits] at hkeyword
    simp only [Edit.Edits, action, FieldDecl.unplaced, Edit.fieldDecl, hkeyword, hfirst, hmore]
  | fieldStatic =>
    obtain ⟨static, keyword, bindings, ⟨⟩⟩ := xs
    obtain ⟨static', keyword', bindings', ⟨⟩⟩ := ys
    obtain ⟨_, hkeyword, ⟨hfirst, hmore⟩, _⟩ := h
    simp only [Edit.Edits] at hkeyword
    simp only [Edit.Edits, action, FieldDecl.unplaced, Edit.fieldDecl, hkeyword, hfirst, hmore]
  | letKeyword => rfl
  | varKeyword => exact hkeeps.symm
  | bindingFirst =>
    obtain ⟨b, ⟨⟩⟩ := xs
    obtain ⟨b', ⟨⟩⟩ := ys
    exact ⟨h.1, rfl⟩
  | bindingMore =>
    obtain ⟨bindings, comma, b, ⟨⟩⟩ := xs
    obtain ⟨bindings', comma', b', ⟨⟩⟩ := ys
    obtain ⟨⟨hfirst, hmore⟩, _, hb, _⟩ := h
    have hb : b'.value.unplaced = b.value.unplaced := hb
    refine ⟨hfirst, ?_⟩
    simp only [action, List.map_append, hmore, List.map_cons, List.map_nil, hb]
  | bindingName =>
    obtain ⟨name, ⟨⟩⟩ := xs
    obtain ⟨name', ⟨⟩⟩ := ys
    have hname : name'.value = name.value := h.1
    simp only [Edit.Edits, action, Binding.unplaced, hname]
  | bindingTyped =>
    obtain ⟨name, colon, t, ⟨⟩⟩ := xs
    obtain ⟨name', colon', t', ⟨⟩⟩ := ys
    obtain ⟨hname, _, ht, _⟩ := h
    have hname : name'.value = name.value := hname
    have ht : t'.value = t.value := ht
    simp only [Edit.Edits, action, Binding.unplaced, hname, ht]
  | bindingInitialized =>
    obtain ⟨name, equals, x, ⟨⟩⟩ := xs
    obtain ⟨name', equals', y, ⟨⟩⟩ := ys
    obtain ⟨hname, _, hvalue, _⟩ := h
    have hname : name'.value = name.value := hname
    have hvalue : y.value.unplaced = x.value.unplaced := hvalue
    simp only [Edit.Edits, action, Binding.unplaced, hname, Option.map_some, hvalue]
  | bindingTypedInitialized =>
    obtain ⟨name, colon, t, equals, x, ⟨⟩⟩ := xs
    obtain ⟨name', colon', t', equals', y, ⟨⟩⟩ := ys
    obtain ⟨hname, _, ht, _, hvalue, _⟩ := h
    have hname : name'.value = name.value := hname
    have ht : t'.value = t.value := ht
    have hvalue : y.value.unplaced = x.value.unplaced := hvalue
    simp only [Edit.Edits, action, Binding.unplaced, hname, ht, Option.map_some, hvalue]
  | bindingComputed =>
    obtain ⟨name, colon, t, block, ⟨⟩⟩ := xs
    obtain ⟨name', colon', t', block', ⟨⟩⟩ := ys
    obtain ⟨hname, _, ht, _⟩ := h
    have hname : name'.value = name.value := hname
    have ht : t'.value = t.value := ht
    simp only [Edit.Edits, action, Binding.unplaced, hname, ht]
  | cases =>
    obtain ⟨keyword, cases, ⟨⟩⟩ := xs
    obtain ⟨keyword', cases', ⟨⟩⟩ := ys
    exact h.2.1
  | caseFirst =>
    obtain ⟨c, ⟨⟩⟩ := xs
    obtain ⟨c', ⟨⟩⟩ := ys
    exact congrArg (fun c => [c]) h.1
  | caseMore =>
    obtain ⟨cases, comma, c, ⟨⟩⟩ := xs
    obtain ⟨cases', comma', c', ⟨⟩⟩ := ys
    obtain ⟨hcases, _, hc, _⟩ := h
    simp only [Edit.Edits] at hcases hc
    simp only [Edit.Edits, action, List.map_append, hcases, List.map_cons, List.map_nil, hc]
  | caseBare | caseEmpty =>
    obtain ⟨name, rest⟩ := xs
    obtain ⟨name', rest'⟩ := ys
    have hname : name'.value = name.value := h.1
    simp only [Edit.Edits, action, Case.unplaced, hname]
  | casePayloads =>
    obtain ⟨name, opening, payloads, closing, ⟨⟩⟩ := xs
    obtain ⟨name', opening', payloads', closing', ⟨⟩⟩ := ys
    obtain ⟨hname, _, hpayloads, _⟩ := h
    have hname : name'.value = name.value := hname
    simp only [Edit.Edits] at hpayloads
    simp only [Edit.Edits, action, Case.unplaced, hname, hpayloads]
  | payloadFirst =>
    obtain ⟨x, ⟨⟩⟩ := xs
    obtain ⟨y, ⟨⟩⟩ := ys
    exact congrArg (fun x => [x]) h.1
  | payloadMore =>
    obtain ⟨payloads, comma, x, ⟨⟩⟩ := xs
    obtain ⟨payloads', comma', y, ⟨⟩⟩ := ys
    obtain ⟨hpayloads, _, hx, _⟩ := h
    simp only [Edit.Edits] at hpayloads hx
    simp only [Edit.Edits, action, List.map_append, hpayloads, List.map_cons, List.map_nil, hx]
  | payload =>
    obtain ⟨t, ⟨⟩⟩ := xs
    obtain ⟨t', ⟨⟩⟩ := ys
    have ht : t'.value = t.value := h.1
    simp only [Edit.Edits, action, Payload.unplaced, ht]
  | payloadDefault =>
    obtain ⟨t, equals, x, ⟨⟩⟩ := xs
    obtain ⟨t', equals', y, ⟨⟩⟩ := ys
    obtain ⟨ht, _, hvalue, _⟩ := h
    have ht : t'.value = t.value := ht
    have hvalue : y.value.unplaced = x.value.unplaced := hvalue
    simp only [Edit.Edits, action, Payload.unplaced, ht, Option.map_some, hvalue]
  | payloadLabeled =>
    obtain ⟨label, colon, t, ⟨⟩⟩ := xs
    obtain ⟨label', colon', t', ⟨⟩⟩ := ys
    obtain ⟨hlabel, _, ht, _⟩ := h
    have hlabel : label'.value = label.value := hlabel
    have ht : t'.value = t.value := ht
    simp only [Edit.Edits, action, Payload.unplaced, hlabel, ht]
  | payloadLabeledDefault =>
    obtain ⟨label, colon, t, equals, x, ⟨⟩⟩ := xs
    obtain ⟨label', colon', t', equals', y, ⟨⟩⟩ := ys
    obtain ⟨hlabel, _, ht, _, hvalue, _⟩ := h
    have hlabel : label'.value = label.value := hlabel
    have ht : t'.value = t.value := ht
    have hvalue : y.value.unplaced = x.value.unplaced := hvalue
    simp only [Edit.Edits, action, Payload.unplaced, hlabel, ht, Option.map_some, hvalue]
  | type | baseNamed | dottedFirst =>
    obtain ⟨x, ⟨⟩⟩ := xs
    obtain ⟨y, ⟨⟩⟩ := ys
    have hx : y.value = x.value := h.1
    simp only [Edit.Edits, action, hx]
  | typeOptional | typeVariadic =>
    obtain ⟨t, sign, ⟨⟩⟩ := xs
    obtain ⟨t', sign', ⟨⟩⟩ := ys
    have ht : t'.value = t.value := h.1
    simp only [Edit.Edits, action, ht]
  | baseArray =>
    obtain ⟨opening, t, closing, ⟨⟩⟩ := xs
    obtain ⟨opening', t', closing', ⟨⟩⟩ := ys
    have ht : t'.value = t.value := h.2.1
    simp only [Edit.Edits, action, ht]
  | dottedMore =>
    obtain ⟨path, dot, name, ⟨⟩⟩ := xs
    obtain ⟨path', dot', name', ⟨⟩⟩ := ys
    obtain ⟨hpath, _, hname, _⟩ := h
    have hpath : path'.value = path.value := hpath
    have hname : name'.value = name.value := hname
    simp only [Edit.Edits, action, hpath, hname]
  | expressionLiteral | expressionPostfix | expressionArray =>
    obtain ⟨x, ⟨⟩⟩ := xs
    obtain ⟨y, ⟨⟩⟩ := ys
    exact h.1
  | expressionMember =>
    obtain ⟨dot, name, ⟨⟩⟩ := xs
    obtain ⟨dot', name', ⟨⟩⟩ := ys
    have hname : name'.value = name.value := h.2.1
    simp only [Edit.Edits, action, hname]
  | literalString | literalInteger | literalFloat | postfixName =>
    obtain ⟨x, ⟨⟩⟩ := xs
    obtain ⟨y, ⟨⟩⟩ := ys
    have hx : y.value = x.value := h.1
    simp only [Edit.Edits, action, hx]
  | literalTrue | literalFalse | literalNil => rfl
  | postfixMember =>
    obtain ⟨base, dot, name, ⟨⟩⟩ := xs
    obtain ⟨base', dot', name', ⟨⟩⟩ := ys
    obtain ⟨hbase, _, hname, _⟩ := h
    have hbase : base'.value.unplaced = base.value.unplaced := hbase
    have hname : name'.value = name.value := hname
    simp only [Edit.Edits, action, unplaced_memberOf, hbase, hname]
  | postfixOptional =>
    obtain ⟨base, question, dot, name, ⟨⟩⟩ := xs
    obtain ⟨base', question', dot', name', ⟨⟩⟩ := ys
    obtain ⟨hbase, _, _, hname, _⟩ := h
    have hbase : base'.value.unplaced = base.value.unplaced := hbase
    have hname : name'.value = name.value := hname
    simp only [Edit.Edits, action, unplaced_optionalMemberOf, hbase, hname]
  | postfixCall =>
    obtain ⟨base, opening, closing, ⟨⟩⟩ := xs
    obtain ⟨base', opening', closing', ⟨⟩⟩ := ys
    have hbase : base'.value.unplaced = base.value.unplaced := h.1
    simp only [Edit.Edits, action, Expr.source_eq_of_unplaced hbase]
  | postfixCallArguments =>
    obtain ⟨base, opening, arguments, closing, ⟨⟩⟩ := xs
    obtain ⟨base', opening', arguments', closing', ⟨⟩⟩ := ys
    obtain ⟨hbase, _, harguments, _⟩ := h
    have hbase : base'.value.unplaced = base.value.unplaced := hbase
    simp only [Edit.Edits] at harguments
    simp only [Edit.Edits, action, Expr.source_eq_of_unplaced hbase, Expr.unplaced, harguments]
  | arrayEmpty => rfl
  | array =>
    obtain ⟨opening, elements, closing, ⟨⟩⟩ := xs
    obtain ⟨opening', elements', closing', ⟨⟩⟩ := ys
    exact congrArg Expr.array h.2.1
  | arrayTrailing =>
    obtain ⟨opening, elements, comma, closing, ⟨⟩⟩ := xs
    obtain ⟨opening', elements', comma', closing', ⟨⟩⟩ := ys
    exact congrArg Expr.array h.2.1
  | expressionFirst =>
    obtain ⟨x, ⟨⟩⟩ := xs
    obtain ⟨y, ⟨⟩⟩ := ys
    exact congrArg (fun x => [x]) h.1
  | expressionMore =>
    obtain ⟨elements, comma, x, ⟨⟩⟩ := xs
    obtain ⟨elements', comma', y, ⟨⟩⟩ := ys
    obtain ⟨helements, _, hx, _⟩ := h
    simp only [Edit.Edits, Expr.unplacedAll_eq_map] at helements hx
    simp only [Edit.Edits, action, Expr.unplacedAll_eq_map, List.map_append, helements,
      List.map_cons, hx]
  | blockEmpty | block | blockFirst | blockMore | blockNested | blockToken => rfl

end Grammar

end RowSchema
