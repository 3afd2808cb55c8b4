import RowSchema.Proofs.Grammar.Bare

/-! # Parts of a derivation

A part of a derivation stands between the tokens before it and those after it. Attributes and
keywords of fields are parts of declarations alone, and what can stand next to them is known. -/

namespace RowSchema.Grammar

/-- A property of a part, given the tokens of the text before it and after it. -/
abbrev PartProp :=
  (n : Nonterminal) → List (Sigma Label) → Of Label n → List (Sigma Label) → Prop

mutual

/-- The derivation, between those tokens, has a part with the property. -/
def Tree.Has (P : PartProp) : {s : Symbol} → List (Sigma Label) → Tree Label s →
    List (Sigma Label) → Prop
  | _, _, .leaf _, _ => False
  | .part n, front, .node p children, back =>
    P n front (.node p children) back ∨ children.Has P front back

def Forest.Has (P : PartProp) : {symbols : List Symbol} → List (Sigma Label) →
    Forest Label symbols → List (Sigma Label) → Prop
  | _, _, .nil, _ => False
  | _, front, .cons first rest, back =>
    first.Has P front (rest.leaves ++ back) ∨ rest.Has P (front ++ first.leaves) back

end

mutual

theorem Tree.Has.imp {P Q : PartProp} (h : ∀ n f u b, P n f u b → Q n f u b) :
    {s : Symbol} → {t : Tree Label s} → {front back : List (Sigma Label)} →
      t.Has P front back → t.Has Q front back
  | _, .leaf _, _, _, ht => ht
  | _, .node _ _, _, _, ht => Or.imp (h _ _ _ _) (Forest.Has.imp h) ht

theorem Forest.Has.imp {P Q : PartProp} (h : ∀ n f u b, P n f u b → Q n f u b) :
    {symbols : List Symbol} → {f : Forest Label symbols} → {front back : List (Sigma Label)} →
      f.Has P front back → f.Has Q front back
  | _, .nil, _, _, hf => hf
  | _, .cons _ _, _, _, hf => Or.imp (Tree.Has.imp h) (Forest.Has.imp h) hf

end

mutual

/-- The tokens of a part stand between those before it and those after it. -/
theorem Tree.Has.leaves {P : PartProp} : {s : Symbol} → {t : Tree Label s} →
    {front back : List (Sigma Label)} → t.Has P front back →
      t.Has (fun n f u b => P n f u b ∧ f ++ (u.leaves ++ b) = front ++ (t.leaves ++ back))
        front back
  | _, .node p children, front, back, h => by
    rcases h with h | h
    · exact .inl ⟨h, rfl⟩
    · exact .inr h.leaves

theorem Forest.Has.leaves {P : PartProp} : {symbols : List Symbol} → {f : Forest Label symbols} →
    {front back : List (Sigma Label)} → f.Has P front back →
      f.Has (fun n f' u b => P n f' u b ∧ f' ++ (u.leaves ++ b) = front ++ (f.leaves ++ back))
        front back
  | _, .cons first rest, front, back, h => by
    rcases h with h | h
    · left
      simpa only [Forest.leaves, List.append_assoc] using h.leaves
    · right
      simpa only [Forest.leaves, List.append_assoc] using h.leaves

end

mutual

/-- One part has the property, and so the derivation has each part that this one is. -/
theorem Tree.Has.exists_part {P : PartProp} : {s : Symbol} → {t : Tree Label s} →
    {front back : List (Sigma Label)} → t.Has P front back →
      ∃ n f u b, P n f u b ∧ ∀ Q : PartProp, Q n f u b → t.Has Q front back
  | _, .node _ _, _, _, h => by
    rcases h with h | h
    · exact ⟨_, _, _, _, h, fun _ => .inl⟩
    · obtain ⟨n, f, u, b, hP, hall⟩ := h.exists_part
      exact ⟨n, f, u, b, hP, fun Q hQ => .inr (hall Q hQ)⟩

theorem Forest.Has.exists_part {P : PartProp} : {symbols : List Symbol} →
    {f : Forest Label symbols} → {front back : List (Sigma Label)} → f.Has P front back →
      ∃ n f' u b, P n f' u b ∧ ∀ Q : PartProp, Q n f' u b → f.Has Q front back
  | _, .cons _ _, _, _, h => by
    rcases h with h | h
    · obtain ⟨n, f, u, b, hP, hall⟩ := h.exists_part
      exact ⟨n, f, u, b, hP, fun Q hQ => .inl (hall Q hQ)⟩
    · obtain ⟨n, f, u, b, hP, hall⟩ := h.exists_part
      exact ⟨n, f, u, b, hP, fun Q hQ => .inr (hall Q hQ)⟩

end

mutual

/-- Where no part has a property, an edit leaves everything as it is that changes only what has
that property. -/
theorem Tree.kept_of_not_has {e : Edit} {P : PartProp}
    (h : ∀ n f u b, ¬ P n f u b → e.Keeps n u.located) : {s : Symbol} → (t : Tree Label s) →
      {front back : List (Sigma Label)} → ¬ t.Has P front back → t.Kept e
  | _, .leaf _, _, _, _ => trivial
  | _, .node _ children, front, back, hnot =>
    ⟨h _ front _ back fun hp => hnot (.inl hp),
      children.kept_of_not_has h fun hp => hnot (.inr hp)⟩

theorem Forest.kept_of_not_has {e : Edit} {P : PartProp}
    (h : ∀ n f u b, ¬ P n f u b → e.Keeps n u.located) : {symbols : List Symbol} →
      (f : Forest Label symbols) → {front back : List (Sigma Label)} → ¬ f.Has P front back →
        f.Kept e
  | _, .nil, _, _, _ => trivial
  | _, .cons first rest, _, _, hnot =>
    ⟨first.kept_of_not_has h fun hp => hnot (.inl hp),
      rest.kept_of_not_has h fun hp => hnot (.inr hp)⟩

end

/-! ## Attributes and keywords of fields -/

/-- Whether a part is an attribute or the keyword of a field. -/
def Nonterminal.isTarget : Nonterminal → Bool
  | attributeItem | bindingKeyword => true
  | _ => false

/-- Whether neither attributes nor keywords of fields are part of what the symbol stands for. -/
def Symbol.isInner : Symbol → Bool
  | .part .declarations | .part .declarationList | .part .declaration | .part .recordBody
  | .part .memberList | .part .member | .part .attributeList | .part .attributeItem
  | .part .fieldDecl | .part .bindingKeyword => false
  | _ => true

theorem isInner_of_isTarget {n : Nonterminal} (h : n.isTarget = true) :
    (Symbol.part n).isInner = false := by
  cases n <;> first | rfl | cases h

theorem all_isInner {n : Nonterminal} {symbols : List Symbol} (p : Production n symbols)
    (hn : (Symbol.part n).isInner = true ∨ n.isTarget = true) :
    symbols.all Symbol.isInner = true := by
  cases p <;> first | rfl | (rcases hn with hn | hn <;> cases hn)

/-- The property is one of attributes and keywords of fields. -/
def PartProp.OfTargets (P : PartProp) : Prop := ∀ n f u b, P n f u b → n.isTarget = true

mutual

theorem Tree.not_has_of_isInner {P : PartProp} (hP : P.OfTargets) : {s : Symbol} →
    (t : Tree Label s) → {front back : List (Sigma Label)} → s.isInner = true →
      ¬ t.Has P front back
  | _, .leaf _, _, _, _ => id
  | .part n, .node p children, front, back, hn => by
    rintro (h | h)
    · rw [isInner_of_isTarget (hP _ _ _ _ h)] at hn
      cases hn
    · exact children.not_has_of_isInner hP (all_isInner p (.inl hn)) h

theorem Forest.not_has_of_isInner {P : PartProp} (hP : P.OfTargets) : {symbols : List Symbol} →
    (f : Forest Label symbols) → {front back : List (Sigma Label)} →
      symbols.all Symbol.isInner = true → ¬ f.Has P front back
  | _, .nil, _, _, _ => id
  | _, .cons first rest, front, back, hs => by
    rw [List.all_cons, Bool.and_eq_true] at hs
    rintro (h | h)
    · exact first.not_has_of_isInner hP hs.1 h
    · exact rest.not_has_of_isInner hP hs.2 h

end

/-! ## What stands next to them -/

/-- The last of the tokens is no operator. -/
def Calm (xs : List (Sigma Label)) : Prop := ∀ x ∈ xs.getLast?, x.1 ≠ .operator ∧ x.1 ≠ .equals

/-- The first of the tokens begins an attribute or a declaration. -/
def Opens (xs : List (Sigma Label)) : Prop :=
  ∃ x ∈ xs.head?, x.1 = .atSign ∨ ∃ k, x.1 = .keyword k

/-- Whether what the symbol stands for never ends with an operator. -/
def Symbol.isCalm : Symbol → Bool
  | .token .operator | .token .equals | .part .blockItem | .part .blockItems => false
  | _ => true

/-- Whether what the symbol stands for begins with the sign of an attribute or with a keyword. -/
def Symbol.opens : Symbol → Bool
  | .token .atSign | .token (.keyword _) | .part .attributeItem | .part .bindingKeyword
  | .part .fieldDecl | .part .caseDecl | .part .recordKeyword | .part .recordHeader => true
  | _ => false

/-- Whether what the symbol stands for ends with an attribute. -/
def Symbol.isAttributed : Symbol → Bool
  | .part .attributeItem | .part .attributeList => true
  | _ => false

/-- After each symbol that ends with an attribute comes one that opens something, if any. -/
def attributesLead : List Symbol → Bool
  | s :: s' :: rest => (!s.isAttributed || s'.opens) && attributesLead (s' :: rest)
  | _ => true

theorem all_isCalm {n : Nonterminal} {symbols : List Symbol} (p : Production n symbols)
    (hn : (Symbol.part n).isInner = false) : symbols.all Symbol.isCalm = true := by
  cases p <;> first | rfl | cases hn

theorem getLast?_isCalm {n : Nonterminal} {symbols : List Symbol} (p : Production n symbols)
    (hn : (Symbol.part n).isCalm = true) : symbols.getLast?.all Symbol.isCalm = true := by
  cases p <;> first | rfl | cases hn

theorem head?_opens {n : Nonterminal} {symbols : List Symbol} (p : Production n symbols)
    (hn : (Symbol.part n).opens = true) : symbols.head?.any Symbol.opens = true := by
  cases p <;> first | rfl | cases hn

theorem attributesLead_of_production {n : Nonterminal} {symbols : List Symbol}
    (p : Production n symbols) : attributesLead symbols = true := by
  cases p <;> rfl

/-- A part ends with an attribute only if it is a list of attributes. -/
theorem isAttributed_of_getLast? {n : Nonterminal} {symbols : List Symbol}
    (p : Production n symbols) (hn : (Symbol.part n).isInner = false)
    (h : symbols.getLast?.any Symbol.isAttributed = true) :
    (Symbol.part n).isAttributed = true := by
  cases p <;> first | rfl | cases h

mutual

/-- What a calm symbol stands for ends with no operator. -/
theorem Tree.calm : {s : Symbol} → (t : Tree Label s) → s ≠ .part .declarations →
    s.isCalm = true → ∀ front, Calm (front ++ t.leaves)
  | .token k, .leaf x, _, hs, front => by
    intro y hy
    obtain rfl : ⟨k, x⟩ = y := by simpa using hy
    constructor
    · rintro rfl
      cases hs
    · rintro rfl
      cases hs
  | .part n, .node p children, hn, hs, front =>
    children.calm (symbols_ne_declarations p)
      (symbols_ne_nil p fun h => hn (congrArg Symbol.part h)) (getLast?_isCalm p hs) front

theorem Forest.calm : {symbols : List Symbol} → (f : Forest Label symbols) →
    (∀ s ∈ symbols, s ≠ .part .declarations) → symbols ≠ [] →
      symbols.getLast?.all Symbol.isCalm = true → ∀ front, Calm (front ++ f.leaves)
  | _, .nil, _, hne, _, _ => absurd rfl hne
  | _, .cons first .nil, hs, _, hlast, front => by
    simpa using first.calm (hs _ List.mem_cons_self) (by simpa using hlast) front
  | _, .cons first (.cons second rest), hs, _, hlast, front => by
    rw [Forest.leaves, ← List.append_assoc]
    exact Forest.calm (.cons second rest) (fun s hmem => hs s (List.mem_cons_of_mem _ hmem))
      (List.cons_ne_nil _ _) (by simpa using hlast) (front ++ first.leaves)

end

mutual

theorem Tree.opens : {s : Symbol} → (t : Tree Label s) → s.opens = true → ∀ back,
    Opens (t.leaves ++ back)
  | .token .atSign, .leaf x, _, _ => ⟨⟨.atSign, x⟩, rfl, .inl rfl⟩
  | .token (.keyword k), .leaf x, _, _ => ⟨⟨.keyword k, x⟩, rfl, .inr ⟨k, rfl⟩⟩
  | .part _, .node p children, hs, back => children.opens (head?_opens p hs) back

theorem Forest.opens : {symbols : List Symbol} → (f : Forest Label symbols) →
    symbols.head?.any Symbol.opens = true → ∀ back, Opens (f.leaves ++ back)
  | _, .cons first rest, hs, back => by
    rw [Forest.leaves, List.append_assoc]
    exact first.opens (by simpa using hs) _

end

mutual

/-- Before an attribute or the keyword of a field stands no operator, and what comes after an
attribute opens something. -/
theorem Tree.Has.between {P : PartProp} (hP : P.OfTargets) : {s : Symbol} → {t : Tree Label s} →
    {front back : List (Sigma Label)} → t.Has P front back → Calm front →
      (s.isAttributed = true → Opens back) →
        t.Has (fun n f u b => P n f u b ∧ Calm f ∧ (n = .attributeItem → Opens b)) front back
  | .token _, .leaf _, _, _, h, _, _ => h
  | .part n, .node p children, front, back, h, hfront, hback => by
    rcases h with h | h
    · refine .inl ⟨h, hfront, ?_⟩
      rintro rfl
      exact hback rfl
    · right
      by_cases hinner : (Symbol.part n).isInner = true
      · exact absurd h (children.not_has_of_isInner hP (all_isInner p (.inl hinner)))
      · rw [Bool.not_eq_true] at hinner
        exact h.between hP (symbols_ne_declarations p) (all_isCalm p hinner)
          (attributesLead_of_production p) hfront
          fun hlast => hback (isAttributed_of_getLast? p hinner hlast)

theorem Forest.Has.between {P : PartProp} (hP : P.OfTargets) : {symbols : List Symbol} →
    {f : Forest Label symbols} → {front back : List (Sigma Label)} → f.Has P front back →
      (∀ s ∈ symbols, s ≠ .part .declarations) → symbols.all Symbol.isCalm = true →
      attributesLead symbols = true → Calm front →
      (symbols.getLast?.any Symbol.isAttributed = true → Opens back) →
        f.Has (fun n f u b => P n f u b ∧ Calm f ∧ (n = .attributeItem → Opens b)) front back
  | _, .cons first .nil, front, back, h, hs, hcalm, hlead, hfront, hback => by
    rcases h with h | h
    · exact .inl (h.between hP hfront fun hfirst => hback (by simpa using hfirst))
    · exact absurd h id
  | _, .cons first (.cons second rest), front, back, h, hs, hcalm, hlead, hfront, hback => by
    rw [List.all_cons, Bool.and_eq_true] at hcalm
    rw [attributesLead, Bool.and_eq_true] at hlead
    rcases h with h | h
    · refine .inl (h.between hP hfront fun hfirst => ?_)
      rw [Forest.leaves, List.append_assoc]
      exact second.opens (by simpa [hfirst] using hlead.1) _
    · exact .inr (h.between hP (fun s hmem => hs s (List.mem_cons_of_mem _ hmem)) hcalm.2 hlead.2
        (first.calm (hs _ List.mem_cons_self) hcalm.1 front) (by simpa using hback))

end

end RowSchema.Grammar
