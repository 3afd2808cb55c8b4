import Mathlib.Data.List.Induction
import RowSchema.Proofs.Grammar.Bare
import RowSchema.Proofs.Token.Written

/-! # Declaration text read back

The declaration text of an expression is derived again, and what is derived is that expression but
for spans. The text need not be the one that the expression was read from. -/

namespace RowSchema.Grammar

open Token

/-- What a token says can be written down so that it is read back. -/
def Legible : (k : Terminal) → k.Content → Prop
  | .word, name => IsWord name
  | .float, x => Decimal.ReadsBack x
  | _, _ => True

/-- The declaration text of an expression, an argument or a list of them. -/
def Nonterminal.text : (n : Nonterminal) → n.Value → String
  | .expression, e | .literal, e | .postfixExpr, e | .arrayLiteral, e => Expr.source e
  | .argument, a => Argument.source a
  | .expressionList, es => ", ".intercalate (Expr.sources es)
  | .argumentList, as => ", ".intercalate (Argument.sources as)
  | _, _ => ""

/-- The text begins with what comes after an expression. -/
def Closes (after : List Char) : Prop := ∃ c ∈ [',', ')', ']'], after.head? = some c

/-- What may come after the text of a part. More may come after what another postfix could come
after. -/
def Nonterminal.Follows (after : List Char) : Nonterminal → Prop
  | .postfixExpr => after.head?.any isNameChar = false
  | _ => Closes after

/-- The declaration text of a value is derived again, unless a line breaks in it. -/
def Rereads (n : Nonterminal) (x : n.Value) : Prop :=
  '\n' ∉ (n.text x).toList → ∃ t : Of Label n, ({} : Edit).Edits (.part n) ⟨x, ⟨0, 0⟩⟩ t.located ∧
    ∀ after, n.Follows after → Lexes (n.text x) (contents t.leaves) after

/-- The text of each expression and each argument in the value is derived again. -/
def Writable : (s : Symbol) → Located s.Value → Prop
  | .token k, x => Legible k x.value
  | .part .expression, x => Rereads .expression x.value
  | .part .literal, x => Rereads .literal x.value
  | .part .postfixExpr, x => Rereads .postfixExpr x.value
  | .part .arrayLiteral, x => Rereads .arrayLiteral x.value
  | .part .argument, x => Rereads .argument x.value
  | .part .expressionList, x => x.value ≠ [] ∧ ∀ e ∈ x.value, Rereads .expression e
  | .part .argumentList, x => x.value ≠ [] ∧ ∀ a ∈ x.value, Rereads .argument a
  | .part _, _ => True

section

variable {after : List Char}

theorem Closes.not_any {p : Char → Bool} (hp : [',', ')', ']'].any p = false)
    (h : Closes after) : after.head?.any p = false := by
  obtain ⟨c, hc, hafter⟩ := h
  rw [hafter]
  simpa using List.any_eq_false.mp hp c hc

theorem Closes.name (h : Closes after) : after.head?.any isNameChar = false :=
  h.not_any rfl

theorem Closes.digit (h : Closes after) : after.head?.any Text.isDigit = false :=
  h.not_any rfl

theorem Closes.point (h : Closes after) : after.head? ≠ some '.' := by
  have hany := h.not_any (p := (· == '.')) rfl
  intro hpoint
  rw [hpoint] at hany
  cases hany

theorem closes_cons {c : Char} {rest : List Char} (hc : c ∈ [',', ')', ']']) : Closes (c :: rest) :=
  ⟨c, hc, rfl⟩

theorem lexes_atSign : Lexes "@" [⟨.atSign, ()⟩] after :=
  lexes_sign (l := .atSign) rfl rfl

theorem lexes_openParen : Lexes "(" [⟨.openParen, ()⟩] after :=
  lexes_sign (l := .openParen) rfl rfl

theorem lexes_closeParen : Lexes ")" [⟨.closeParen, ()⟩] after :=
  lexes_sign (l := .closeParen) rfl rfl

theorem lexes_openBracket : Lexes "[" [⟨.openBracket, ()⟩] after :=
  lexes_sign (l := .openBracket) rfl rfl

theorem lexes_closeBracket : Lexes "]" [⟨.closeBracket, ()⟩] after :=
  lexes_sign (l := .closeBracket) rfl rfl

theorem lexes_ellipsis : Lexes "..." [⟨.ellipsis, ()⟩] after := by
  have hpoints : "...".toList = '.' :: ['.', '.'] := rfl
  exact lexes_piece (l := .ellipsis) hpoints (piece?_of_symbol? rfl)

theorem lexes_openBrace : Lexes "\x7b" [⟨.openBrace, ()⟩] after :=
  lexes_sign (l := .openBrace) rfl rfl

theorem lexes_closeBrace : Lexes "\x7d" [⟨.closeBrace, ()⟩] after :=
  lexes_sign (l := .closeBrace) rfl rfl

theorem lexes_question : Lexes "?" [⟨.question, ()⟩] after :=
  lexes_sign (l := .question) rfl rfl

theorem lexes_comma : Lexes ", " [⟨.comma, ()⟩] after := by
  have hsign : Lexes "," [⟨.comma, ()⟩] (" ".toList ++ after) := lexes_sign (l := .comma) rfl rfl
  exact hsign.append lexes_blank

theorem lexes_colon : Lexes ": " [⟨.colon, ()⟩] after := by
  have hsign : Lexes ":" [⟨.colon, ()⟩] (" ".toList ++ after) := lexes_sign (l := .colon) rfl rfl
  exact hsign.append lexes_blank

end

theorem not_mem_append {c : Char} {s s' : String} :
    c ∉ (s ++ s').toList ↔ c ∉ s.toList ∧ c ∉ s'.toList := by
  rw [String.toList_append, List.mem_append, not_or]

theorem source_memberOf (base : Expr) (name : String) :
    (memberOf base name).source = base.source ++ "." ++ name := by
  cases base with
  | reference path =>
    simp only [memberOf]
    split
    · next h =>
      obtain rfl : name = "self" := by simpa using h
      simp [Expr.source, TypeRef.text, String.append_assoc]
    · rfl
  | _ => rfl

theorem source_optionalMemberOf (base : Expr) (name : String) :
    (optionalMemberOf base name).source = base.source ++ "?." ++ name := by
  cases base with
  | reference path =>
    simp only [optionalMemberOf]
    split
    · next h =>
      obtain rfl : name = "self" := by simpa using h
      simp [Expr.source, TypeRef.text, String.append_assoc]
    · rfl
  | _ => rfl

/-- Values that are the same but for spans are put together to values so related. -/
theorem same_action {n : Nonterminal} {symbols : List Symbol} (p : Production n symbols)
    (xs ys : Values symbols) (h : ({} : Edit).EditsAll xs ys) :
    ({} : Edit).Edits (.part n) ⟨action p xs, xs.span⟩ ⟨action p ys, ys.span⟩ :=
  edits_action p xs ys h (by cases n <;> first | rfl | trivial)

/-! ## Lists -/

theorem intercalate_concat {sep s : String} {l : List String} (h : l ≠ []) :
    sep.intercalate (l ++ [s]) = sep.intercalate l ++ sep ++ s := by
  induction l with
  | nil => exact absurd rfl h
  | cons t l ih =>
    cases l with
    | nil => simp
    | cons u l =>
      rw [List.cons_append, List.cons_append, String.intercalate_cons_cons, ← List.cons_append,
        ih (List.cons_ne_nil u l), String.intercalate_cons_cons]
      simp only [String.append_assoc]

/-- Items whose texts are derived make a list whose text is derived. -/
theorem exists_list {list item : Nonterminal} (first : Production list [.part item])
    (more : Production list [.part list, .token .comma, .part item]) {α : Type}
    {source : α → String} {P : α → Of Label item → Prop} {Q : List α → Of Label list → Prop}
    (hfirst : ∀ a t, P a t → Q [a] (.of1 first t))
    (hmore : ∀ as ts a t, Q as ts → P a t → Q (as ++ [a]) (.of3 more ts (.leaf ⟨(), ⟨0, 0⟩⟩) t))
    {as : List α} (hne : as ≠ [])
    (h : ∀ a ∈ as, '\n' ∉ (source a).toList →
      ∃ t, P a t ∧ ∀ after, Closes after → Lexes (source a) (contents t.leaves) after)
    (hline : '\n' ∉ (", ".intercalate (as.map source)).toList) :
    ∃ t, Q as t ∧ ∀ after, Closes after →
      Lexes (", ".intercalate (as.map source)) (contents t.leaves) after := by
  induction as using List.reverseRecOn with
  | nil => exact absurd rfl hne
  | append_singleton as a ih =>
    have ha := h a (List.mem_append_right _ List.mem_cons_self)
    by_cases has : as = []
    · subst has
      obtain ⟨t, hP, hlexes⟩ := ha (by simpa using hline)
      exact ⟨.of1 first t, hfirst a t hP, by simpa using hlexes⟩
    · have htext : ", ".intercalate ((as ++ [a]).map source) =
          ", ".intercalate (as.map source) ++ ", " ++ source a := by
        rw [List.map_append, List.map_singleton, intercalate_concat (by simpa using has)]
      rw [htext, not_mem_append, not_mem_append] at hline
      obtain ⟨ts, hQ, hlist⟩ := ih has (fun b hb => h b (List.mem_append_left _ hb)) hline.1.1
      obtain ⟨t, hP, hitem⟩ := ha hline.2
      refine ⟨.of3 more ts (.leaf ⟨(), ⟨0, 0⟩⟩) t, hmore as ts a t hQ hP, fun after hafter => ?_⟩
      rw [htext]
      have hall := ((hlist _ (closes_cons (by decide))).append lexes_comma).append
        (hitem after hafter)
      simpa [contents] using hall

theorem rereads_argumentList {as : List Argument} (hne : as ≠ [])
    (h : ∀ a ∈ as, Rereads .argument a) : Rereads .argumentList as := by
  simp only [Rereads, Nonterminal.text, Argument.sources_eq_map]
  exact exists_list .argumentFirst .argumentMore (fun a t ht => congrArg (fun a => [a]) ht)
    (fun as ts a t hts ht => same_action .argumentMore ⟨⟨as, ⟨0, 0⟩⟩, ⟨(), ⟨0, 0⟩⟩, ⟨a, ⟨0, 0⟩⟩, ()⟩
      ⟨ts.located, ⟨(), ⟨0, 0⟩⟩, t.located, ()⟩ ⟨hts, rfl, ht, trivial⟩) hne h

theorem rereads_expressionList {es : List Expr} (hne : es ≠ [])
    (h : ∀ e ∈ es, Rereads .expression e) : Rereads .expressionList es := by
  simp only [Rereads, Nonterminal.text, Expr.sources_eq_map]
  exact exists_list .expressionFirst .expressionMore (fun e t ht => congrArg (fun e => [e]) ht)
    (fun es ts e t hts ht => same_action .expressionMore
      ⟨⟨es, ⟨0, 0⟩⟩, ⟨(), ⟨0, 0⟩⟩, ⟨e, ⟨0, 0⟩⟩, ()⟩
      ⟨ts.located, ⟨(), ⟨0, 0⟩⟩, t.located, ()⟩ ⟨hts, rfl, ht, trivial⟩) hne h

/-- A comma at the end of an array is not written again. -/
theorem rereads_array {es : List Expr} (hne : es ≠ []) (h : ∀ e ∈ es, Rereads .expression e) :
    Rereads .arrayLiteral (.array es) := by
  intro hline
  have htext : Nonterminal.text .arrayLiteral (.array es) =
    "[" ++ Nonterminal.text .expressionList es ++ "]" := rfl
  rw [htext, not_mem_append, not_mem_append] at hline
  obtain ⟨ts, hts, hlist⟩ := rereads_expressionList hne h hline.1.2
  refine ⟨.of3 .array (.leaf ⟨(), ⟨0, 0⟩⟩) ts (.leaf ⟨(), ⟨0, 0⟩⟩), same_action .array
    ⟨⟨(), ⟨0, 0⟩⟩, ⟨es, ⟨0, 0⟩⟩, ⟨(), ⟨0, 0⟩⟩, ()⟩ ⟨⟨(), ⟨0, 0⟩⟩, ts.located, ⟨(), ⟨0, 0⟩⟩, ()⟩
    ⟨rfl, hts, rfl, trivial⟩, fun after _ => ?_⟩
  have hclose : Closes (']' :: after) := closes_cons (by decide)
  have hall := (lexes_openBracket.append (hlist _ hclose)).append lexes_closeBracket
  rw [htext]
  simpa [contents] using hall

/-! ## Productions -/

/-- A part that consists of another one is derived again if that one is. -/
theorem Rereads.only {n m : Nonterminal} {x : m.Value} {y : n.Value} (h : Rereads m x)
    (p : Production n [.part m]) (htext : n.text y = m.text x)
    (hedits : ∀ t : Of Label m, ({} : Edit).Edits (.part m) ⟨x, ⟨0, 0⟩⟩ t.located →
      ({} : Edit).Edits (.part n) ⟨y, ⟨0, 0⟩⟩ (Tree.of1 p t).located)
    (hfollows : ∀ after, n.Follows after → m.Follows after) : Rereads n y := by
  intro hline
  rw [htext] at hline ⊢
  obtain ⟨t, ht, hlexes⟩ := h hline
  refine ⟨.of1 p t, hedits t ht, fun after hafter => ?_⟩
  simpa using hlexes after (hfollows after hafter)

/-- Where the parts of a production can be read back, so can what they make up. -/
theorem writable_action {n : Nonterminal} {symbols : List Symbol} (p : Production n symbols)
    (xs : Values symbols) (h : xs.All Writable) : Writable (.part n) ⟨action p xs, xs.span⟩ := by
  cases p with
  | argumentFirst =>
    obtain ⟨a, ⟨⟩⟩ := xs
    exact ⟨List.cons_ne_nil _ _, List.forall_mem_singleton.mpr h.1⟩
  | argumentMore =>
    obtain ⟨arguments, comma, a, ⟨⟩⟩ := xs
    obtain ⟨⟨_, harguments⟩, _, ha, _⟩ := h
    exact ⟨List.append_ne_nil_of_right_ne_nil _ (List.cons_ne_nil _ _),
      List.forall_mem_append.mpr ⟨harguments, List.forall_mem_singleton.mpr ha⟩⟩
  | argumentPositional =>
    obtain ⟨x, ⟨⟩⟩ := xs
    exact h.1.only .argumentPositional rfl
      (fun t ht => same_action .argumentPositional ⟨x, ()⟩ ⟨t.located, ()⟩
        ⟨ht, trivial⟩) fun _ => id
  | argumentLabeled =>
    obtain ⟨label, colon, x, ⟨⟩⟩ := xs
    obtain ⟨hlabel, _, hx, _⟩ := h
    intro hline
    have htext : Nonterminal.text .argument (action .argumentLabeled ⟨label, colon, x, ()⟩) =
      label.value ++ ": " ++ Nonterminal.text .expression x.value := rfl
    rw [htext, not_mem_append] at hline
    obtain ⟨t, ht, hlexes⟩ := hx hline.2
    refine ⟨.of3 .argumentLabeled (.leaf label) (.leaf colon) t, same_action .argumentLabeled
      ⟨label, colon, x, ()⟩ ⟨label, colon, t.located, ()⟩ ⟨rfl, rfl, ht, trivial⟩,
      fun after hafter => ?_⟩
    have hall := ((lexes_word hlabel rfl).append lexes_colon).append (hlexes after hafter)
    rw [htext]
    simpa [contents] using hall
  | expressionFirst =>
    obtain ⟨e, ⟨⟩⟩ := xs
    exact ⟨List.cons_ne_nil _ _, List.forall_mem_singleton.mpr h.1⟩
  | expressionMore =>
    obtain ⟨elements, comma, e, ⟨⟩⟩ := xs
    obtain ⟨⟨_, helements⟩, _, he, _⟩ := h
    exact ⟨List.append_ne_nil_of_right_ne_nil _ (List.cons_ne_nil _ _),
      List.forall_mem_append.mpr ⟨helements, List.forall_mem_singleton.mpr he⟩⟩
  | expressionLiteral =>
    obtain ⟨x, ⟨⟩⟩ := xs
    exact h.1.only .expressionLiteral rfl (fun _ => id) fun _ => id
  | expressionPostfix =>
    obtain ⟨x, ⟨⟩⟩ := xs
    exact h.1.only .expressionPostfix rfl (fun _ => id) fun _ => Closes.name
  | expressionArray =>
    obtain ⟨x, ⟨⟩⟩ := xs
    exact h.1.only .expressionArray rfl (fun _ => id) fun _ => id
  | expressionMember =>
    obtain ⟨dot, name, ⟨⟩⟩ := xs
    obtain ⟨_, hname, _⟩ := h
    exact fun _ => ⟨.of2 .expressionMember (.leaf dot) (.leaf name), rfl,
      fun after hafter => lexes_member hname hafter.name⟩
  | literalString =>
    obtain ⟨x, ⟨⟩⟩ := xs
    exact fun hline => ⟨.of1 .literalString (.leaf x), rfl,
      fun after _ => lexes_string fun hmem => hline (mem_declared hmem)⟩
  | literalInteger =>
    obtain ⟨x, ⟨⟩⟩ := xs
    exact fun _ => ⟨.of1 .literalInteger (.leaf x), rfl,
      fun after hafter => lexes_integer x.value hafter.digit hafter.point⟩
  | literalFloat =>
    obtain ⟨x, ⟨⟩⟩ := xs
    exact fun _ => ⟨.of1 .literalFloat (.leaf x), rfl,
      fun after hafter => lexes_float h.1 hafter.digit⟩
  | literalTrue =>
    obtain ⟨x, ⟨⟩⟩ := xs
    exact fun _ => ⟨.of1 .literalTrue (.leaf x), rfl,
      fun after hafter => lexes_keyword .trueWord hafter.name⟩
  | literalFalse =>
    obtain ⟨x, ⟨⟩⟩ := xs
    exact fun _ => ⟨.of1 .literalFalse (.leaf x), rfl,
      fun after hafter => lexes_keyword .falseWord hafter.name⟩
  | literalNil =>
    obtain ⟨x, ⟨⟩⟩ := xs
    exact fun _ => ⟨.of1 .literalNil (.leaf x), rfl,
      fun after hafter => lexes_keyword .nilWord hafter.name⟩
  | postfixName =>
    obtain ⟨name, ⟨⟩⟩ := xs
    exact fun _ => ⟨.of1 .postfixName (.leaf name), rfl, fun after hafter => lexes_word h.1 hafter⟩
  | postfixMember =>
    obtain ⟨base, dot, name, ⟨⟩⟩ := xs
    obtain ⟨hbase, _, hname, _⟩ := h
    intro hline
    have htext : Nonterminal.text .postfixExpr (action .postfixMember ⟨base, dot, name, ()⟩) =
        Nonterminal.text .postfixExpr base.value ++ ("." ++ name.value) :=
      (source_memberOf base.value name.value).trans (String.append_assoc ..)
    rw [htext, not_mem_append] at hline
    obtain ⟨t, ht, hlexes⟩ := hbase hline.1
    refine ⟨.of3 .postfixMember t (.leaf dot) (.leaf name), same_action .postfixMember
      ⟨base, dot, name, ()⟩ ⟨t.located, dot, name, ()⟩ ⟨ht, rfl, rfl, trivial⟩,
      fun after hafter => ?_⟩
    have hbefore := hlexes (("." ++ name.value).toList ++ after) (by rw [String.toList_append]; rfl)
    have hall := hbefore.append (lexes_member hname hafter)
    rw [htext]
    simpa [contents] using hall
  | postfixOptional =>
    obtain ⟨base, question, dot, name, ⟨⟩⟩ := xs
    obtain ⟨hbase, _, _, hname, _⟩ := h
    intro hline
    have htext : Nonterminal.text .postfixExpr
        (action .postfixOptional ⟨base, question, dot, name, ()⟩) =
        Nonterminal.text .postfixExpr base.value ++ "?" ++ ("." ++ name.value) := by
      refine (source_optionalMemberOf base.value name.value).trans ?_
      simp only [String.append_assoc]
      rfl
    rw [htext, not_mem_append, not_mem_append] at hline
    obtain ⟨t, ht, hlexes⟩ := hbase hline.1.1
    refine ⟨.of4 .postfixOptional t (.leaf question) (.leaf dot) (.leaf name),
      same_action .postfixOptional ⟨base, question, dot, name, ()⟩
        ⟨t.located, question, dot, name, ()⟩ ⟨ht, rfl, rfl, rfl, trivial⟩,
      fun after hafter => ?_⟩
    have hbefore := hlexes ("?".toList ++ (("." ++ name.value).toList ++ after)) rfl
    have hall := (hbefore.append lexes_question).append (lexes_member hname hafter)
    rw [htext]
    simpa [contents] using hall
  | postfixCall =>
    obtain ⟨base, opening, closing, ⟨⟩⟩ := xs
    intro hline
    have htext : Nonterminal.text .postfixExpr (action .postfixCall ⟨base, opening, closing, ()⟩) =
        Nonterminal.text .postfixExpr base.value ++ "(" ++ ")" :=
      congrArg (· ++ ")") (String.append_empty (s := base.value.source ++ "("))
    rw [htext, not_mem_append, not_mem_append] at hline
    obtain ⟨t, ht, hlexes⟩ := h.1 hline.1.1
    refine ⟨.of3 .postfixCall t (.leaf opening) (.leaf closing), same_action .postfixCall
      ⟨base, opening, closing, ()⟩ ⟨t.located, opening, closing, ()⟩ ⟨ht, rfl, rfl, trivial⟩,
      fun after hafter => ?_⟩
    have hbefore := hlexes ("(".toList ++ (")".toList ++ after)) rfl
    have hall := (hbefore.append lexes_openParen).append lexes_closeParen
    rw [htext]
    simpa [contents] using hall
  | postfixCallArguments =>
    obtain ⟨base, opening, arguments, closing, ⟨⟩⟩ := xs
    obtain ⟨hbase, _, ⟨hne, harguments⟩, _⟩ := h
    intro hline
    have htext : Nonterminal.text .postfixExpr
        (action .postfixCallArguments ⟨base, opening, arguments, closing, ()⟩) =
      Nonterminal.text .postfixExpr base.value ++ "(" ++
        Nonterminal.text .argumentList arguments.value ++ ")" := rfl
    rw [htext, not_mem_append, not_mem_append, not_mem_append] at hline
    obtain ⟨t, ht, hlexes⟩ := hbase hline.1.1.1
    obtain ⟨ts, hts, hlist⟩ := rereads_argumentList hne harguments hline.1.2
    refine ⟨.of4 .postfixCallArguments t (.leaf opening) ts (.leaf closing),
      same_action .postfixCallArguments ⟨base, opening, arguments, closing, ()⟩
        ⟨t.located, opening, ts.located, closing, ()⟩ ⟨ht, rfl, hts, rfl, trivial⟩,
      fun after hafter => ?_⟩
    have hclose : Closes (')' :: after) := closes_cons (by decide)
    have hbefore := hlexes ("(".toList ++
      ((Nonterminal.text .argumentList arguments.value).toList ++ (")".toList ++ after))) rfl
    have hall := ((hbefore.append lexes_openParen).append (hlist _ hclose)).append lexes_closeParen
    rw [htext]
    simpa [contents] using hall
  | arrayEmpty =>
    obtain ⟨opening, closing, ⟨⟩⟩ := xs
    exact fun _ => ⟨.of2 .arrayEmpty (.leaf opening) (.leaf closing), rfl, fun after _ =>
      lexes_openBracket.append lexes_closeBracket⟩
  | array =>
    obtain ⟨opening, elements, closing, ⟨⟩⟩ := xs
    obtain ⟨_, ⟨hne, helements⟩, _⟩ := h
    exact rereads_array hne helements
  | arrayTrailing =>
    obtain ⟨opening, elements, comma, closing, ⟨⟩⟩ := xs
    obtain ⟨_, ⟨hne, helements⟩, _⟩ := h
    exact rereads_array hne helements
  | _ => trivial

/-! ## Derivations -/

mutual

/-- Where the tokens of a derivation can be written down, what it derives is read back. -/
theorem Tree.writable : {s : Symbol} → (t : Tree Label s) →
    (∀ x ∈ t.leaves, Legible x.1 x.2.value) → Writable s t.located
  | _, .leaf x, h => h ⟨_, x⟩ (List.mem_singleton.mpr rfl)
  | _, .node p children, h => writable_action p children.values (children.writable h)

theorem Forest.writable : {symbols : List Symbol} → (f : Forest Label symbols) →
    (∀ x ∈ f.leaves, Legible x.1 x.2.value) → f.values.All Writable
  | _, .nil, _ => trivial
  | _, .cons first rest, h =>
    ⟨first.writable fun x hx => h x (List.mem_append_left _ hx),
      rest.writable fun x hx => h x (List.mem_append_right _ hx)⟩

end

/-- Each argument of a list has a derivation that the derivation of the list consists of. -/
def ArgumentsIn : {s : Symbol} → Tree Label s → Prop
  | .part .argumentList, t => ∀ a ∈ t.located.value,
    ∃ u : Of Label .argument, u.located.value = a ∧ u.leaves <:+: t.leaves
  | _, _ => True

theorem argumentsIn {s : Symbol} (t : Tree Label s) : ArgumentsIn t := by
  induction t using Tree.induct with
  | leaf x => trivial
  | node p children ih =>
    cases p with
    | argumentFirst =>
      match children with
      | .cons u .nil =>
        intro a ha
        obtain rfl : a = u.located.value := List.mem_singleton.mp ha
        exact ⟨u, rfl, [], [], by simp⟩
    | argumentMore =>
      match children, ih with
      | .cons ts (.cons comma (.cons u .nil)), ⟨hts, _⟩ =>
        intro a ha
        rcases List.mem_append.mp ha with ha | ha
        · obtain ⟨v, hv, hpart⟩ := hts a ha
          exact ⟨v, hv, hpart.trans (List.prefix_append _ _).isInfix⟩
        · obtain rfl : a = u.located.value := List.mem_singleton.mp ha
          exact ⟨u, rfl, ts.leaves ++ comma.leaves, [], by simp⟩
    | _ => trivial

/-! ## Attributes -/

/-- The name of an attribute is one of its tokens. -/
theorem exists_name (u : Of Label .attributeItem) :
    ∃ name : Label .word, ⟨.word, name⟩ ∈ u.leaves ∧ name.value = u.located.value.name := by
  cases u with
  | node p children =>
    cases p with
    | attributeBare | attributeEmpty | attributeArguments =>
      match children with
      | .cons _ (.cons (.leaf name) _) => exact ⟨name, by simp, rfl⟩

/-- Each argument of an attribute has a derivation that the one of the attribute consists of. -/
theorem exists_of_mem_arguments {b : Argument} (u : Of Label .attributeItem)
    (hb : b ∈ u.located.value.arguments) :
    ∃ v : Of Label .argument, v.located.value = b ∧ v.leaves <:+: u.leaves := by
  cases u with
  | node p children =>
    cases p with
    | attributeBare | attributeEmpty => cases hb
    | attributeArguments =>
      match children with
      | .cons sign (.cons name (.cons opening (.cons ts (.cons closing .nil)))) =>
        obtain ⟨v, hv, hpart⟩ := argumentsIn ts b hb
        refine ⟨v, hv, hpart.trans ?_⟩
        exact ⟨sign.leaves ++ (name.leaves ++ opening.leaves), closing.leaves, by simp⟩

/-- The text does not go on with a name where the other one begins. -/
def Apart (s : String) (after : List Char) : Prop :=
  ∀ last ∈ s.toList.getLast?, isNameChar last = true → after.head?.any isNameChar = false

/-- The text of an attribute is derived again, unless a line breaks in it. -/
theorem exists_attribute {name : String} {as : List Argument} (hname : IsWord name)
    (h : ∀ a ∈ as, Rereads .argument a) (hline : '\n' ∉ (Attribute.render name as).toList) :
    ∃ u : Of Label .attributeItem,
      u.located.value.unplaced = Attribute.unplaced { name, arguments := as } ∧
        ∀ after, Apart (Attribute.render name as) after →
          Lexes (Attribute.render name as) (contents u.leaves) after := by
  by_cases has : as = []
  · subst has
    refine ⟨.of2 .attributeBare (.leaf ⟨(), ⟨0, 0⟩⟩) (.leaf ⟨name, ⟨0, 0⟩⟩), rfl,
      fun after hafter => ?_⟩
    have hlast : after.head?.any isNameChar = false := by
      obtain ⟨⟨c, more, hchars, hstart, hmore⟩, -⟩ := hname
      obtain ⟨last, hlast⟩ : ∃ last, (c :: more).getLast? = some last :=
        ⟨_, List.getLast?_eq_some_getLast (List.cons_ne_nil c more)⟩
      refine hafter last ?_ (last_of_all hlast (isNameChar_of_isNameStart hstart) hmore)
      show last ∈ ("@" ++ name).toList.getLast?
      rw [String.toList_append, hchars, List.getLast?_append, hlast]
      rfl
    exact lexes_atSign.append (lexes_word hname hlast)
  · have htext : Attribute.render name as =
        "@" ++ name ++ "(" ++ Nonterminal.text .argumentList as ++ ")" :=
      if_neg (by simpa using has)
    rw [htext, not_mem_append, not_mem_append] at hline
    obtain ⟨ts, hts, hlist⟩ := rereads_argumentList has h hline.1.2
    refine ⟨.of5 .attributeArguments (.leaf ⟨(), ⟨0, 0⟩⟩) (.leaf ⟨name, ⟨0, 0⟩⟩)
      (.leaf ⟨(), ⟨0, 0⟩⟩) ts (.leaf ⟨(), ⟨0, 0⟩⟩), ?_, fun after _ => ?_⟩
    · have harguments : Argument.unplacedAll ts.located.value = Argument.unplacedAll as := hts
      exact congrArg (Attribute.mk name · none) harguments
    · have hclose : Closes (')' :: after) := closes_cons (by decide)
      have hall := (((lexes_atSign.append (lexes_word hname rfl)).append lexes_openParen).append
        (hlist _ hclose)).append lexes_closeParen
      rw [htext]
      simpa [contents] using hall

theorem lexes_let {after : List Char} (hafter : after.head?.any isNameChar = false) :
    Lexes "let" [⟨.keyword .letWord, ()⟩] after := lexes_keyword .letWord hafter

end RowSchema.Grammar
