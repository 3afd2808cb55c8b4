import Mathlib.Data.List.Forall2
import Mathlib.Data.List.ReduceOption
import RowSchema.Proofs.Grammar.Spans
import RowSchema.Proofs.Record.Placed

/-! # What a derivation declares, and where

Each production puts its value at the span of its symbols, and the values of these stand in that
span. So whatever a derivation declares stands where it is written. -/

namespace RowSchema.Grammar

/-- The first binding of a field stands in the span, up to its default. -/
structure Binding.PlacedIn (source : String) (outer : Span) (b : Binding) : Prop where
  name : b.nameSpan.Inside outer ∧ b.nameSpan.textIn source = b.name
  default : ∀ e, b.default = some e → Argument.PlacedIn outer e.inner

structure FieldDecl.PlacedIn (source : String) (outer : Span) (d : FieldDecl) : Prop where
  first : d.first.PlacedIn source outer
  keyword : d.keyword.Inside outer ∧
    d.keyword.textIn source = if d.isMutable then "var" else "let"

def PayloadsIn (outer : Span) (payloads : List Payload) : Prop :=
  ∀ p ∈ payloads, ∃ s, s.Inside outer ∧ p.Placed s

def CasesIn (outer : Span) (cases : List Case) : Prop :=
  ∀ c ∈ cases, ∃ s, s.Inside outer ∧ c.Placed s

/-- The member stands in the span, and so do the attributes of a case. -/
def MemberIn (source : String) (outer : Span) : Field ⊕ Case → Prop
  | .inl f => ∃ s, s.Inside outer ∧ f.Placed source s
  | .inr c => (∃ s, s.Inside outer ∧ c.Placed s) ∧ Attribute.PlacedIn source outer c.attributes

/-- The records stand in the span, one after another. -/
def RecordsIn (source : String) (outer : Span) (records : List Record) : Prop :=
  ∃ spans : List Span, List.Forall₂ (Record.Placed source) records spans ∧
    spans.Pairwise Span.Before ∧ ∀ s ∈ spans, s.Inside outer

/-- What a symbol declares stands where the symbol does. -/
def Placed (source : String) : (s : Symbol) → Located s.Value → Prop
  | .token .atSign, x => x.span.textIn source = "@"
  | .token .word, x => x.span.textIn source = x.value
  | .token (.keyword k), x => x.span.textIn source = k.text
  | .token _, _ => True
  | .part .declarations, x | .part .declarationList, x => RecordsIn source x.span x.value
  | .part .declaration, x => Record.Placed source x.value x.span
  | .part .recordBody, x => ∀ group ∈ x.value, ∀ m ∈ group, MemberIn source x.span m
  | .part .memberList, x =>
    ∀ group, some group ∈ x.value → ∀ m ∈ group, MemberIn source x.span m
  | .part .member, x => ∀ group, x.value = some group → ∀ m ∈ group, MemberIn source x.span m
  | .part .attributeList, x => Attribute.PlacedIn source x.span x.value
  | .part .attributeItem, x => Attribute.Placed source x.value x.span
  | .part .argumentList, x => Argument.PlacedIn x.span (Argument.inner x.value)
  | .part .argument, x => Argument.PlacedIn x.span (Argument.inner [x.value])
  | .part .fieldDecl, x => FieldDecl.PlacedIn source x.span x.value
  | .part .bindingKeyword, x => x.span.textIn source = if x.value then "var" else "let"
  | .part .bindingList, x => Binding.PlacedIn source x.span x.value.1
  | .part .binding, x => Binding.PlacedIn source x.span x.value
  | .part .caseDecl, x | .part .caseList, x => CasesIn x.span x.value
  | .part .caseItem, x => Case.Placed x.value x.span
  | .part .payloadList, x => PayloadsIn x.span x.value
  | .part .payload, x => Payload.Placed x.value x.span
  | .part .expression, x | .part .literal, x | .part .postfixExpr, x | .part .arrayLiteral, x =>
    Argument.PlacedIn x.span (Expr.inner x.value)
  | .part .expressionList, x => Argument.PlacedIn x.span (Expr.inners x.value)
  | .part _, _ => True

section

variable {source : String} {s outer : Span}

theorem Binding.PlacedIn.mono {b : Binding} (h : b.PlacedIn source s) (hs : s.Inside outer) :
    b.PlacedIn source outer :=
  ⟨⟨h.name.1.trans hs, h.name.2⟩, fun e he => (h.default e he).mono hs⟩

theorem PayloadsIn.mono {payloads : List Payload} (h : PayloadsIn s payloads)
    (hs : s.Inside outer) : PayloadsIn outer payloads := by
  intro p hp
  obtain ⟨t, hin, hplaced⟩ := h p hp
  exact ⟨t, hin.trans hs, hplaced⟩

theorem CasesIn.mono {cases : List Case} (h : CasesIn s cases) (hs : s.Inside outer) :
    CasesIn outer cases := by
  intro c hc
  obtain ⟨t, hin, hplaced⟩ := h c hc
  exact ⟨t, hin.trans hs, hplaced⟩

theorem MemberIn.mono {m : Field ⊕ Case} (h : MemberIn source s m) (hs : s.Inside outer) :
    MemberIn source outer m := by
  cases m with
  | inl f =>
    obtain ⟨t, hin, hplaced⟩ := h
    exact ⟨t, hin.trans hs, hplaced⟩
  | inr c =>
    obtain ⟨⟨t, hin, hplaced⟩, hattributes⟩ := h
    exact ⟨⟨t, hin.trans hs, hplaced⟩, hattributes.mono hs⟩

/-- A record after others. -/
theorem RecordsIn.snoc {records : List Record} {r : Record} {t : Span}
    (h : RecordsIn source s records) (hr : r.Placed source t) (hs : s.Inside outer)
    (ht : t.Inside outer) (hbefore : s.Before t) : RecordsIn source outer (records ++ [r]) := by
  obtain ⟨spans, hplaced, hpairs, hin⟩ := h
  refine ⟨spans ++ [t], List.rel_append hplaced (.cons hr .nil), ?_, ?_⟩
  · rw [List.pairwise_append]
    refine ⟨hpairs, List.pairwise_singleton _ _, ?_⟩
    intro u hu v hv
    obtain rfl := List.mem_singleton.mp hv
    exact Int.le_trans (hin u hu).stop hbefore
  · intro u hu
    rcases List.mem_append.mp hu with hu | hu
    · exact (hin u hu).trans hs
    · obtain rfl := List.mem_singleton.mp hu
      exact ht

end

/-- A text at a span that begins with the sign of an attribute begins with that sign. -/
theorem head?_textIn {source : String} (sign : Span) {span : Span} (hstart : span.start = sign.start)
    (hproper : span.start < span.stop) (h : sign.textIn source = "@") :
    (span.textIn source).toList.head? = some '@' := by
  have hlist : (source.toList.drop sign.start.toNat).take (sign.stop - sign.start).toNat =
      ['@'] := by
    have htext := congrArg String.toList h
    rwa [Span.textIn, String.toList_ofList] at htext
  have hhead : (source.toList.drop sign.start.toNat).head? = some '@' := by
    have hprefix := List.take_prefix (sign.stop - sign.start).toNat
      (source.toList.drop sign.start.toNat)
    rw [hlist] at hprefix
    obtain ⟨rest, hrest⟩ := hprefix
    rw [← hrest]
    rfl
  have hpositive : (span.stop - span.start).toNat ≠ 0 := by omega
  rw [Span.textIn, String.toList_ofList, hstart, List.head?_take, if_neg (by rwa [← hstart]), hhead]

/-! ## Productions -/

theorem inner_memberOf (base : Expr) (name : String) : (memberOf base name).inner = [] := by
  unfold memberOf
  split
  · split <;> rfl
  · rfl

theorem inner_optionalMemberOf (base : Expr) (name : String) :
    (optionalMemberOf base name).inner = [] := by
  unfold optionalMemberOf
  split
  · split <;> rfl
  · rfl

theorem FieldDecl.PlacedIn.mono {source : String} {s outer : Span} {d : FieldDecl}
    (h : d.PlacedIn source s) (hs : s.Inside outer) : d.PlacedIn source outer :=
  ⟨h.first.mono hs, h.keyword.1.trans hs, h.keyword.2⟩

theorem placedIn_argument {label : Option String} {e : Expr} {span : Span}
    (he : Argument.PlacedIn span e.inner) (hspan : span.start < span.stop) :
    Argument.PlacedIn span (Argument.inner [⟨label, e, some span⟩]) := by
  intro b hb
  rcases List.mem_cons.mp hb with rfl | hb
  · exact ⟨span, rfl, Int.le_refl _, hspan, Int.le_refl _⟩
  · exact he b (by simpa [Argument.inner] using hb)

theorem memberIn_field {source : String} {d : FieldDecl} {attributes : List Attribute}
    {span : Span} (hd : d.PlacedIn source span)
    (hattributes : Attribute.PlacedIn source span attributes) (hspan : span.start < span.stop) :
    ∀ group, some [Sum.inl (d.field attributes span)] = some group →
      ∀ m ∈ group, MemberIn source span m := by
  intro group hgroup m hm
  obtain rfl := Option.some.inj hgroup
  obtain rfl := List.mem_singleton.mp hm
  exact ⟨span, ⟨Int.le_refl _, hspan, Int.le_refl _⟩, rfl, hattributes,
    ⟨d.keyword, rfl, hd.keyword⟩, ⟨d.first.nameSpan, rfl, hd.first.name⟩, hd.first.default⟩

theorem memberIn_cases {source : String} {cases : List Case} {attributes : List Attribute}
    {span : Span} (hcases : CasesIn span cases)
    (hattributes : Attribute.PlacedIn source span attributes) :
    ∀ group, some (casesWith cases attributes) = some group →
      ∀ m ∈ group, MemberIn source span m := by
  intro group hgroup m hm
  obtain rfl := Option.some.inj hgroup
  obtain ⟨c, hc, rfl⟩ := List.mem_map.mp hm
  obtain ⟨s, hin, hplaced⟩ := hcases c hc
  exact ⟨⟨s, hin, hplaced.span_eq, hplaced.payloads⟩, hattributes⟩

theorem placed_recordOf {source : String} {header : Kind × String} {attributes : List Attribute}
    {groups : List (List (Field ⊕ Case))} {span : Span}
    (hattributes : Attribute.PlacedIn source span attributes)
    (hgroups : ∀ group ∈ groups, ∀ m ∈ group, MemberIn source span m) :
    (recordOf header attributes groups span).Placed source span := by
  refine ⟨rfl, hattributes, fun f hf => ?_, fun c hc => ?_⟩
  · obtain ⟨m, hm, hleft⟩ := List.mem_filterMap.mp hf
    obtain ⟨group, hgroup, hmem⟩ := List.mem_flatten.mp hm
    obtain rfl := Sum.getLeft?_eq_some_iff.mp hleft
    exact hgroups group hgroup _ hmem
  · obtain ⟨m, hm, hright⟩ := List.mem_filterMap.mp hc
    obtain ⟨group, hgroup, hmem⟩ := List.mem_flatten.mp hm
    obtain rfl := Sum.getRight?_eq_some_iff.mp hright
    exact hgroups group hgroup _ hmem

/-- Every production puts what it declares where its symbols stand. -/
theorem placed_action {source : String} {n : Nonterminal} {symbols : List Symbol}
    (p : Production n symbols) (xs : Values symbols) (hall : xs.All (Placed source))
    (horder : xs.InOrder) : Placed source (.part n) ⟨action p xs, xs.span⟩ := by
  cases p with
  | declarations =>
    obtain ⟨records, ⟨⟩⟩ := xs
    exact hall.1
  | declarationsEmpty => exact ⟨[], .nil, .nil, fun s hs => nomatch hs⟩
  | declarationFirst =>
    obtain ⟨r, ⟨⟩⟩ := xs
    refine ⟨[r.span], .cons hall.1 .nil, List.pairwise_singleton _ _, fun s hs => ?_⟩
    obtain rfl := List.mem_singleton.mp hs
    exact ⟨Int.le_refl _, horder, Int.le_refl _⟩
  | declarationMore =>
    obtain ⟨records, r, ⟨⟩⟩ := xs
    obtain ⟨hrecords, hr, _⟩ := hall
    obtain ⟨hfirst, hlast, _⟩ := horder.inside
    exact hrecords.snoc hr hfirst hlast horder.2.1
  | declarationAttributed =>
    obtain ⟨attributes, header, body, ⟨⟩⟩ := xs
    obtain ⟨hattributes, _, hbody, _⟩ := hall
    obtain ⟨hfirst, _, hlast, _⟩ := horder.inside
    exact placed_recordOf (hattributes.mono hfirst) fun group hgroup m hm =>
      (hbody group hgroup m hm).mono hlast
  | declarationPlain =>
    obtain ⟨header, body, ⟨⟩⟩ := xs
    obtain ⟨_, hbody, _⟩ := hall
    obtain ⟨_, hlast, _⟩ := horder.inside
    exact placed_recordOf .nil fun group hgroup m hm => (hbody group hgroup m hm).mono hlast
  | body =>
    obtain ⟨opening, members, closing, ⟨⟩⟩ := xs
    obtain ⟨_, hmembers, _⟩ := hall
    obtain ⟨_, hin, _⟩ := horder.inside
    exact fun group hgroup m hm =>
      (hmembers group (List.reduceOption_mem_iff.mp hgroup) m hm).mono hin
  | bodyEmpty => exact fun group hgroup => nomatch hgroup
  | memberFirst =>
    obtain ⟨member, ⟨⟩⟩ := xs
    exact fun group hgroup => hall.1 group (List.mem_singleton.mp hgroup).symm
  | memberMore =>
    obtain ⟨members, member, ⟨⟩⟩ := xs
    obtain ⟨hmembers, hmember, _⟩ := hall
    obtain ⟨hfirst, hlast, _⟩ := horder.inside
    intro group hgroup m hm
    rcases List.mem_append.mp hgroup with hgroup | hgroup
    · exact (hmembers group hgroup m hm).mono hfirst
    · exact (hmember group (List.mem_singleton.mp hgroup).symm m hm).mono hlast
  | memberSeparator => exact fun group hgroup => nomatch hgroup
  | memberField =>
    obtain ⟨d, ⟨⟩⟩ := xs
    exact memberIn_field hall.1 .nil horder
  | memberFieldAttributed =>
    obtain ⟨attributes, d, ⟨⟩⟩ := xs
    obtain ⟨hattributes, hd, _⟩ := hall
    obtain ⟨hfirst, hlast, _⟩ := horder.inside
    exact memberIn_field (hd.mono hlast) (hattributes.mono hfirst)
      (horder.proper (List.cons_ne_nil _ _))
  | memberCase =>
    obtain ⟨cases, ⟨⟩⟩ := xs
    exact memberIn_cases hall.1 .nil
  | memberCaseAttributed =>
    obtain ⟨attributes, cases, ⟨⟩⟩ := xs
    obtain ⟨hattributes, hcases, _⟩ := hall
    obtain ⟨hfirst, hlast, _⟩ := horder.inside
    exact memberIn_cases (hcases.mono hlast) (hattributes.mono hfirst)
  | attributeFirst =>
    obtain ⟨a, ⟨⟩⟩ := xs
    intro b hb
    obtain rfl := List.mem_singleton.mp hb
    exact ⟨a.span, ⟨Int.le_refl _, horder, Int.le_refl _⟩, hall.1⟩
  | attributeMore =>
    obtain ⟨attributes, a, ⟨⟩⟩ := xs
    obtain ⟨hattributes, ha, _⟩ := hall
    obtain ⟨hfirst, hlast, _⟩ := horder.inside
    intro b hb
    rcases List.mem_append.mp hb with hb | hb
    · exact hattributes.mono hfirst b hb
    · obtain rfl := List.mem_singleton.mp hb
      exact ⟨a.span, hlast, ha⟩
  | attributeBare =>
    obtain ⟨sign, name, ⟨⟩⟩ := xs
    exact ⟨rfl, head?_textIn sign.span rfl (horder.proper (List.cons_ne_nil _ _)) hall.1, .nil⟩
  | attributeEmpty =>
    obtain ⟨sign, name, opening, closing, ⟨⟩⟩ := xs
    exact ⟨rfl, head?_textIn sign.span rfl (horder.proper (List.cons_ne_nil _ _)) hall.1, .nil⟩
  | attributeArguments =>
    obtain ⟨sign, name, opening, arguments, closing, ⟨⟩⟩ := xs
    obtain ⟨hsign, _, _, harguments, _⟩ := hall
    obtain ⟨_, _, _, hin, _⟩ := horder.inside
    exact ⟨rfl, head?_textIn sign.span rfl (horder.proper (List.cons_ne_nil _ _)) hsign,
      harguments.mono hin⟩
  | argumentFirst =>
    obtain ⟨a, ⟨⟩⟩ := xs
    exact hall.1
  | argumentMore =>
    obtain ⟨arguments, comma, a, ⟨⟩⟩ := xs
    obtain ⟨harguments, _, ha, _⟩ := hall
    obtain ⟨hfirst, _, hlast, _⟩ := horder.inside
    show Argument.PlacedIn _ (Argument.inner (arguments.value ++ [a.value]))
    rw [Argument.inner_append]
    exact (harguments.mono hfirst).append (ha.mono hlast)
  | argumentPositional =>
    obtain ⟨e, ⟨⟩⟩ := xs
    exact placedIn_argument hall.1 horder
  | argumentLabeled =>
    obtain ⟨name, colon, e, ⟨⟩⟩ := xs
    obtain ⟨_, _, he, _⟩ := hall
    obtain ⟨_, _, hin, _⟩ := horder.inside
    exact placedIn_argument (he.mono hin) (horder.proper (List.cons_ne_nil _ _))
  | field =>
    obtain ⟨keyword, bindings, ⟨⟩⟩ := xs
    obtain ⟨hkeyword, hbindings, _⟩ := hall
    obtain ⟨hfirst, hlast, _⟩ := horder.inside
    exact ⟨hbindings.mono hlast, hfirst, hkeyword⟩
  | fieldStatic =>
    obtain ⟨static, keyword, bindings, ⟨⟩⟩ := xs
    obtain ⟨_, hkeyword, hbindings, _⟩ := hall
    obtain ⟨_, hin, hlast, _⟩ := horder.inside
    exact ⟨hbindings.mono hlast, hin, hkeyword⟩
  | letKeyword =>
    obtain ⟨keyword, ⟨⟩⟩ := xs
    exact hall.1
  | varKeyword =>
    obtain ⟨keyword, ⟨⟩⟩ := xs
    exact hall.1
  | bindingFirst =>
    obtain ⟨b, ⟨⟩⟩ := xs
    exact hall.1
  | bindingMore =>
    obtain ⟨bindings, comma, b, ⟨⟩⟩ := xs
    obtain ⟨hfirst, _⟩ := horder.inside
    exact hall.1.mono hfirst
  | bindingName =>
    obtain ⟨name, ⟨⟩⟩ := xs
    exact ⟨⟨⟨Int.le_refl _, horder, Int.le_refl _⟩, hall.1⟩, fun e he => nomatch he⟩
  | bindingTyped =>
    obtain ⟨name, colon, t, ⟨⟩⟩ := xs
    obtain ⟨hfirst, _⟩ := horder.inside
    exact ⟨⟨hfirst, hall.1⟩, fun e he => nomatch he⟩
  | bindingInitialized =>
    obtain ⟨name, equals, e, ⟨⟩⟩ := xs
    obtain ⟨hname, _, he, _⟩ := hall
    obtain ⟨hfirst, _, hlast, _⟩ := horder.inside
    refine ⟨⟨hfirst, hname⟩, fun e' he' => ?_⟩
    obtain rfl := Option.some.inj he'
    exact he.mono hlast
  | bindingTypedInitialized =>
    obtain ⟨name, colon, t, equals, e, ⟨⟩⟩ := xs
    obtain ⟨hname, _, _, _, he, _⟩ := hall
    obtain ⟨hfirst, _, _, _, hlast, _⟩ := horder.inside
    refine ⟨⟨hfirst, hname⟩, fun e' he' => ?_⟩
    obtain rfl := Option.some.inj he'
    exact he.mono hlast
  | bindingComputed =>
    obtain ⟨name, colon, t, block, ⟨⟩⟩ := xs
    obtain ⟨hfirst, _⟩ := horder.inside
    exact ⟨⟨hfirst, hall.1⟩, fun e he => nomatch he⟩
  | cases =>
    obtain ⟨keyword, cases, ⟨⟩⟩ := xs
    obtain ⟨_, hcases, _⟩ := hall
    obtain ⟨_, hlast, _⟩ := horder.inside
    exact hcases.mono hlast
  | caseFirst =>
    obtain ⟨c, ⟨⟩⟩ := xs
    intro c' hc'
    obtain rfl := List.mem_singleton.mp hc'
    exact ⟨c.span, ⟨Int.le_refl _, horder, Int.le_refl _⟩, hall.1⟩
  | caseMore =>
    obtain ⟨cases, comma, c, ⟨⟩⟩ := xs
    obtain ⟨hcases, _, hc, _⟩ := hall
    obtain ⟨hfirst, _, hlast, _⟩ := horder.inside
    intro c' hc'
    rcases List.mem_append.mp hc' with hc' | hc'
    · exact hcases.mono hfirst c' hc'
    · obtain rfl := List.mem_singleton.mp hc'
      exact ⟨c.span, hlast, hc⟩
  | caseBare => exact ⟨rfl, fun p hp => nomatch hp⟩
  | caseEmpty => exact ⟨rfl, fun p hp => nomatch hp⟩
  | casePayloads =>
    obtain ⟨name, opening, payloads, closing, ⟨⟩⟩ := xs
    obtain ⟨_, _, hpayloads, _⟩ := hall
    obtain ⟨_, _, hin, _⟩ := horder.inside
    exact ⟨rfl, hpayloads.mono hin⟩
  | payloadFirst =>
    obtain ⟨x, ⟨⟩⟩ := xs
    intro x' hx'
    obtain rfl := List.mem_singleton.mp hx'
    exact ⟨x.span, ⟨Int.le_refl _, horder, Int.le_refl _⟩, hall.1⟩
  | payloadMore =>
    obtain ⟨payloads, comma, x, ⟨⟩⟩ := xs
    obtain ⟨hpayloads, _, hx, _⟩ := hall
    obtain ⟨hfirst, _, hlast, _⟩ := horder.inside
    intro x' hx'
    rcases List.mem_append.mp hx' with hx' | hx'
    · exact hpayloads.mono hfirst x' hx'
    · obtain rfl := List.mem_singleton.mp hx'
      exact ⟨x.span, hlast, hx⟩
  | payload => exact ⟨rfl, fun e he => nomatch he⟩
  | payloadDefault =>
    obtain ⟨t, equals, e, ⟨⟩⟩ := xs
    obtain ⟨_, _, he, _⟩ := hall
    obtain ⟨_, _, hlast, _⟩ := horder.inside
    refine ⟨rfl, fun e' he' => ?_⟩
    obtain rfl := Option.some.inj he'
    exact he.mono hlast
  | payloadLabeled => exact ⟨rfl, fun e he => nomatch he⟩
  | payloadLabeledDefault =>
    obtain ⟨name, colon, t, equals, e, ⟨⟩⟩ := xs
    obtain ⟨_, _, _, _, he, _⟩ := hall
    obtain ⟨_, _, _, _, hlast, _⟩ := horder.inside
    refine ⟨rfl, fun e' he' => ?_⟩
    obtain rfl := Option.some.inj he'
    exact he.mono hlast
  | expressionLiteral | expressionPostfix | expressionArray =>
    obtain ⟨e, ⟨⟩⟩ := xs
    exact hall.1
  | expressionMember => exact .nil
  | literalString | literalInteger | literalFloat | literalTrue | literalFalse | literalNil =>
    exact .nil
  | postfixName => exact .nil
  | postfixMember =>
    obtain ⟨base, dot, name, ⟨⟩⟩ := xs
    show Argument.PlacedIn _ (memberOf base.value name.value).inner
    rw [inner_memberOf]
    exact .nil
  | postfixOptional =>
    obtain ⟨base, question, dot, name, ⟨⟩⟩ := xs
    show Argument.PlacedIn _ (optionalMemberOf base.value name.value).inner
    rw [inner_optionalMemberOf]
    exact .nil
  | postfixCall =>
    exact .nil
  | postfixCallArguments =>
    obtain ⟨base, opening, arguments, closing, ⟨⟩⟩ := xs
    obtain ⟨_, _, harguments, _⟩ := hall
    obtain ⟨_, _, hin, _⟩ := horder.inside
    exact harguments.mono hin
  | arrayEmpty => exact .nil
  | array =>
    obtain ⟨opening, elements, closing, ⟨⟩⟩ := xs
    obtain ⟨_, helements, _⟩ := hall
    obtain ⟨_, hin, _⟩ := horder.inside
    exact helements.mono hin
  | arrayTrailing =>
    obtain ⟨opening, elements, comma, closing, ⟨⟩⟩ := xs
    obtain ⟨_, helements, _⟩ := hall
    obtain ⟨_, hin, _⟩ := horder.inside
    exact helements.mono hin
  | expressionFirst =>
    obtain ⟨e, ⟨⟩⟩ := xs
    show Argument.PlacedIn _ (Expr.inner e.value ++ [])
    rw [List.append_nil]
    exact hall.1
  | expressionMore =>
    obtain ⟨elements, comma, e, ⟨⟩⟩ := xs
    obtain ⟨helements, _, he, _⟩ := hall
    obtain ⟨hfirst, _, hlast, _⟩ := horder.inside
    show Argument.PlacedIn _ (Expr.inners (elements.value ++ [e.value]))
    rw [Expr.inners_append]
    refine (helements.mono hfirst).append ?_
    show Argument.PlacedIn _ (Expr.inner e.value ++ [])
    rw [List.append_nil]
    exact he.mono hlast
  | _ => trivial

/-! ## Derivations -/

mutual

/-- Whatever a derivation declares stands where its tokens do, if these stand one after another. -/
theorem Tree.placed {source : String} : {s : Symbol} → (t : Tree Label s) →
    (∀ x ∈ t.leaves, Placed source (.token x.1) x.2) → InOrder t.leaves → Placed source s t.located
  | _, .leaf x, hleaves, _ => hleaves ⟨_, x⟩ (List.mem_singleton.mpr rfl)
  | _, .node p children, hleaves, horder =>
    placed_action p children.values (children.placed hleaves horder)
      (children.inOrder (symbols_ne_declarations p) horder)

theorem Forest.placed {source : String} : {symbols : List Symbol} → (f : Forest Label symbols) →
    (∀ x ∈ f.leaves, Placed source (.token x.1) x.2) → InOrder f.leaves →
      f.values.All (Placed source)
  | _, .nil, _, _ => trivial
  | _, .cons first rest, hleaves, horder =>
    ⟨first.placed (fun x hx => hleaves x (List.mem_append_left _ hx)) horder.append.1,
      rest.placed (fun x hx => hleaves x (List.mem_append_right _ hx)) horder.append.2.1⟩

end

end RowSchema.Grammar
