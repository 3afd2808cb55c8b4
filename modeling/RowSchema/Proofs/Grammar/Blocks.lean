import RowSchema.Proofs.Grammar.Parts
import RowSchema.Proofs.Grammar.Printed
import RowSchema.Proofs.Reader.Block

/-! # Blocks and their braces

A block is what stands between a brace and the brace that matches it, whatever the tokens in
between are. So the block of a computed property can be exchanged for any other one. -/

namespace RowSchema.Grammar

open Reader

/-! ## Braces -/

/-- Inside of `d` blocks, the tokens close all these blocks, and no more than these. -/
def balanced : Nat → List Terminal → Bool
  | d, [] => d == 0
  | d, .openBrace :: ks => balanced (d + 1) ks
  | 0, .closeBrace :: _ => false
  | d + 1, .closeBrace :: ks => balanced d ks
  | d, _ :: ks => balanced d ks

@[simp] theorem balanced_nil (d : Nat) : balanced d [] = (d == 0) := by
  cases d <;> rfl

@[simp] theorem balanced_openBrace (d : Nat) (ks : List Terminal) :
    balanced d (.openBrace :: ks) = balanced (d + 1) ks := by
  cases d <;> rfl

@[simp] theorem balanced_zero_closeBrace (ks : List Terminal) :
    balanced 0 (.closeBrace :: ks) = false := rfl

@[simp] theorem balanced_succ_closeBrace (d : Nat) (ks : List Terminal) :
    balanced (d + 1) (.closeBrace :: ks) = balanced d ks := rfl

theorem balanced_of_isBrace {k : Terminal} (h : k.isBrace = false) (d : Nat) (ks : List Terminal) :
    balanced d (k :: ks) = balanced d ks := by
  cases k with
  | openBrace | closeBrace => cases h
  | _ => cases d <;> rfl

/-- After balanced tokens only one brace is the one that closes them. -/
theorem balanced_unique {d : Nat} {ks ks' rest rest' : List Terminal} (h : balanced d ks = true)
    (h' : balanced d ks' = true) (heq : ks ++ .closeBrace :: rest = ks' ++ .closeBrace :: rest') :
    ks = ks' := by
  have hfirst {d : Nat} {more : List Terminal} (h : balanced d [] = true)
      (h' : balanced d (.closeBrace :: more) = true) : False := by
    obtain rfl : d = 0 := by simpa using h
    cases h'
  induction ks generalizing d ks' with
  | nil =>
    cases ks' with
    | nil => rfl
    | cons k' ks' =>
      obtain ⟨rfl, -⟩ := List.cons.inj heq
      exact (hfirst h h').elim
  | cons k ks ih =>
    cases ks' with
    | nil =>
      obtain ⟨rfl, -⟩ := List.cons.inj heq
      exact (hfirst h' h).elim
    | cons k' ks' =>
      obtain ⟨rfl, hrest⟩ := List.cons.inj heq
      by_cases hk : k.isBrace = false
      · rw [balanced_of_isBrace hk] at h h'
        rw [ih h h' hrest]
      · cases k with
        | openBrace =>
          rw [balanced_openBrace] at h h'
          rw [ih h h' hrest]
        | closeBrace =>
          cases d with
          | zero => cases h
          | succ d => rw [ih h h' hrest]
        | _ => exact absurd rfl hk

/-! ## Blocks -/

variable {τ : Terminal → Type}

/-- The tokens of a part of a block leave open as many blocks as were open before. -/
def Level : {s : Symbol} → Tree τ s → Prop
  | .part .blockItem, t | .part .blockItems, t =>
    ∀ d ks, balanced d (t.kinds ++ ks) = balanced d ks
  | .part .block, t => ∃ (b : τ .openBrace) (inner : List (Sigma τ)) (c : τ .closeBrace),
      t.leaves = ⟨.openBrace, b⟩ :: (inner ++ [⟨.closeBrace, c⟩]) ∧
        ∀ d ks, balanced d (inner.map Sigma.fst ++ ks) = balanced d ks
  | _, _ => True

theorem level {s : Symbol} (t : Tree τ s) : Level t := by
  refine Tree.induct (fun _ => trivial) (fun p children ih => ?_) t
  cases p with
  | blockEmpty =>
    match children with
    | .cons (.leaf b) (.cons (.leaf c) .nil) => exact ⟨b, [], c, by simp, fun _ _ => rfl⟩
  | block =>
    match children, ih with
    | .cons (.leaf b) (.cons items (.cons (.leaf c) .nil)), ⟨_, hitems, _⟩ =>
      exact ⟨b, items.leaves, c, by simp, hitems⟩
  | blockFirst =>
    match children, ih with
    | .cons item .nil, ⟨hitem, _⟩ => simpa [Level, Tree.kinds] using hitem
  | blockMore =>
    match children, ih with
    | .cons items (.cons item .nil), ⟨hitems, hitem, _⟩ =>
      intro d ks
      have hall := (hitems d (item.kinds ++ ks)).trans (hitem d ks)
      simpa [Tree.kinds] using hall
  | blockNested =>
    match children, ih with
    | .cons inner .nil, ⟨⟨b, xs, c, hleaves, hxs⟩, _⟩ =>
      intro d ks
      have hinner := hxs (d + 1) (.closeBrace :: ks)
      simpa [Tree.kinds, hleaves] using hinner
  | blockToken k h =>
    match children with
    | .cons (.leaf x) .nil => exact fun d ks => by simp [Tree.kinds, balanced_of_isBrace h]
  | _ => trivial

/-- A block ends at the brace that matches the one it begins with. -/
theorem exists_balanced (t : Of τ .block) :
    ∃ (b : τ .openBrace) (inner : List (Sigma τ)) (c : τ .closeBrace),
      t.leaves = ⟨.openBrace, b⟩ :: (inner ++ [⟨.closeBrace, c⟩]) ∧
        balanced 0 (inner.map Sigma.fst) = true := by
  obtain ⟨b, inner, c, hleaves, hinner⟩ := level t
  refine ⟨b, inner, c, hleaves, ?_⟩
  simpa using hinner 0 []

/-- The reader of blocks takes balanced tokens up to the brace that closes the outermost block. -/
theorem exists_reads {xs : List (Sigma τ)} (c : τ .closeBrace) (block : OpenBlock τ)
    (outer : List (OpenBlock τ)) (h : balanced outer.length (xs.map Sigma.fst) = true) :
    ∃ t : Of τ .block, Reads BlockReader.feed (.inside block outer)
      (xs ++ [⟨.closeBrace, c⟩]) (.closed t) := by
  induction xs generalizing block outer with
  | nil =>
    obtain rfl : outer = [] := by simpa using h
    exact ⟨block.close c, .one rfl⟩
  | cons x xs ih =>
    obtain ⟨k, label⟩ := x
    by_cases hk : k.isBrace = false
    · rw [List.map_cons, balanced_of_isBrace hk] at h
      obtain ⟨t, hread⟩ := ih _ outer h
      exact ⟨t, .cons (BlockReader.feed_token block outer hk label) hread⟩
    · cases k with
      | openBrace =>
        rw [List.map_cons, balanced_openBrace] at h
        obtain ⟨t, hread⟩ := ih (label, none) (block :: outer) h
        exact ⟨t, .cons rfl hread⟩
      | closeBrace =>
        cases outer with
        | nil => cases h
        | cons around outer =>
          obtain ⟨t, hread⟩ := ih (around.add (.of1 .blockNested (block.close label))) outer h
          exact ⟨t, .cons rfl hread⟩
      | _ => exact absurd rfl hk

/-- Balanced tokens between braces are a block. -/
theorem exists_block {xs : List (Sigma τ)} (b : τ .openBrace) (c : τ .closeBrace)
    (h : balanced 0 (xs.map Sigma.fst) = true) :
    ∃ t : Of τ .block, t.leaves = ⟨.openBrace, b⟩ :: (xs ++ [⟨.closeBrace, c⟩]) := by
  obtain ⟨t, hread⟩ := exists_reads c (b, none) [] h
  have hleaves := Reads.leaves_eq (fun _ _ _ => BlockReader.leaves_feed) hread
  exact ⟨t, by simpa [BlockReader.leaves, OpenBlock.leaves] using hleaves⟩

/-! ## Blocks of computed properties -/

/-- The part is a computed property whose block stands between those tokens. -/
def IsComputed (front : List (Sigma Label)) (block : Of Label .block)
    (back : List (Sigma Label)) : PartProp := fun n f u b =>
  ∃ (name : Label .word) (colon : Label .colon) (type : Of Label .type),
    front = f ++ ⟨.word, name⟩ :: ⟨.colon, colon⟩ :: type.leaves ∧ back = b ∧
      (⟨n, u⟩ : Sigma (Of Label)) =
        ⟨.binding, .of4 .bindingComputed (.leaf name) (.leaf colon) type block⟩

variable {front back : List (Sigma Label)} {block : Of Label .block}

mutual

/-- Another block in place of the one of a computed property changes nothing but spans. -/
theorem Tree.Has.exists_computed (block' : Of Label .block) : {s : Symbol} → {t : Tree Label s} →
    {f b : List (Sigma Label)} → t.Has (IsComputed front block back) f b →
      ∃ t' : Tree Label s, t'.Has (IsComputed front block' back) f b ∧
        ({} : Edit).Edits s t.located t'.located
  | .token _, .leaf _, _, _, h => False.elim h
  | .part n, .node p children, f, b, h => by
    rcases h with ⟨name, colon, type, rfl, rfl, heq⟩ | h
    · obtain ⟨rfl, h⟩ := Sigma.mk.inj heq
      rw [eq_of_heq h]
      exact ⟨.of4 .bindingComputed (.leaf name) (.leaf colon) type block',
        .inl ⟨name, colon, type, rfl, rfl, rfl⟩, rfl⟩
    · obtain ⟨children', hhas, hedits⟩ := h.exists_computed block'
      exact ⟨.node p children', .inr hhas, same_action p _ _ hedits⟩

theorem Forest.Has.exists_computed (block' : Of Label .block) : {symbols : List Symbol} →
    {c : Forest Label symbols} → {f b : List (Sigma Label)} →
      c.Has (IsComputed front block back) f b →
      ∃ c' : Forest Label symbols, c'.Has (IsComputed front block' back) f b ∧
        ({} : Edit).EditsAll c.values c'.values
  | _, .nil, _, _, h => False.elim h
  | _, .cons first rest, f, b, h => by
    rcases h with h | h
    · obtain ⟨first', hhas, hedits⟩ := h.exists_computed block'
      exact ⟨.cons first' rest, .inl hhas, hedits, rest.edits_of_bare rest rest.kept_empty rfl⟩
    · obtain ⟨rest', hhas, hedits⟩ := h.exists_computed block'
      refine ⟨.cons first rest', .inr hhas, first.edits_of_bare first first.kept_empty rfl, hedits⟩

end

mutual

/-- What is said of the tokens by a computed property is said of any tokens that say the same. -/
theorem Tree.Has.computed_of_bare : {s : Symbol} → {t t' : Tree Label s} →
    {f b f' b' : List (Sigma Label)} → t.Has (IsComputed front block back) f b →
      t'.bare = t.bare → contents f' = contents f → contents b' = contents b →
      ∃ front' block' back', t'.Has (IsComputed front' block' back') f' b' ∧
        contents front' = contents front ∧ contents back' = contents back
  | .token _, .leaf _, .leaf _, _, _, _, _, h, _, _, _ => False.elim h
  | .part n, .node p children, .node p' children', f, b, f', b', h, hbare, hf, hb => by
    rw [Tree.bare, Tree.bare] at hbare
    obtain ⟨rfl, hp, hchildren⟩ := Tree.node.inj hbare
    obtain rfl := eq_of_heq hp
    rcases h with ⟨name, colon, type, rfl, rfl, heq⟩ | h
    · obtain ⟨rfl, hu⟩ := Sigma.mk.inj heq
      obtain ⟨rfl, hp, hparts⟩ := Tree.node.inj (eq_of_heq hu)
      obtain rfl := eq_of_heq hp
      rw [eq_of_heq hparts] at hchildren
      match children', eq_of_heq hchildren with
      | .cons (.leaf name') (.cons (.leaf colon') (.cons type' (.cons block' .nil))), hsame =>
        obtain ⟨hname, hsame⟩ := Forest.cons.inj hsame
        obtain ⟨hcolon, hsame⟩ := Forest.cons.inj hsame
        obtain ⟨htype, -⟩ := Forest.cons.inj hsame
        have hleaves : contents type'.leaves = contents type.leaves := by
          rw [← type'.leaves_bare, ← type.leaves_bare, htype]
        have hvalue : name'.value = name.value := Tree.leaf.inj hname
        refine ⟨_, block', _, .inl ⟨name', colon', type', rfl, rfl, rfl⟩, ?_, hb⟩
        rw [contents_append, contents_append, hf]
        simpa [contents, hvalue] using hleaves
    · obtain ⟨front', block', back', hhas, hcontents⟩ :=
        h.computed_of_bare (eq_of_heq hchildren) hf hb
      exact ⟨front', block', back', .inr hhas, hcontents⟩

theorem Forest.Has.computed_of_bare : {symbols : List Symbol} → {c c' : Forest Label symbols} →
    {f b f' b' : List (Sigma Label)} → c.Has (IsComputed front block back) f b →
      c'.bare = c.bare → contents f' = contents f → contents b' = contents b →
      ∃ front' block' back', c'.Has (IsComputed front' block' back') f' b' ∧
        contents front' = contents front ∧ contents back' = contents back
  | _, .nil, .nil, _, _, _, _, h, _, _, _ => False.elim h
  | _, .cons first rest, .cons first' rest', f, b, f', b', h, hbare, hf, hb => by
    rw [Forest.bare, Forest.bare] at hbare
    obtain ⟨hfirst, hrest⟩ := Forest.cons.inj hbare
    rcases h with h | h
    · have hback : contents (rest'.leaves ++ b') = contents (rest.leaves ++ b) := by
        rw [contents_append, contents_append, ← rest'.leaves_bare, ← rest.leaves_bare, hrest, hb]
      obtain ⟨front', block', back', hhas, hcontents⟩ := h.computed_of_bare hfirst hf hback
      exact ⟨front', block', back', .inl hhas, hcontents⟩
    · have hfront : contents (f' ++ first'.leaves) = contents (f ++ first.leaves) := by
        rw [contents_append, contents_append, ← first'.leaves_bare, ← first.leaves_bare, hfirst, hf]
      obtain ⟨front', block', back', hhas, hcontents⟩ := h.computed_of_bare hrest hfront hb
      exact ⟨front', block', back', .inr hhas, hcontents⟩

end

/-- Around the block of a computed property stand all other tokens. -/
theorem Tree.Has.leaves_computed {s : Symbol} {t : Tree Label s} {f b : List (Sigma Label)}
    (h : t.Has (IsComputed front block back) f b) :
    f ++ (t.leaves ++ b) = front ++ (block.leaves ++ back) := by
  obtain ⟨n, f', u, b', ⟨⟨name, colon, type, rfl, rfl, heq⟩, hleaves⟩, -⟩ := h.leaves.exists_part
  obtain ⟨rfl, hu⟩ := Sigma.mk.inj heq
  rw [← hleaves, eq_of_heq hu]
  simp

/-! ## Computed fields -/

/-- A field is computed in what the symbol stands for. -/
def HasComputed : (s : Symbol) → s.Value → Prop
  | .part .declarations, records | .part .declarationList, records =>
    ∃ r ∈ records, ∃ f ∈ r.fields, f.isComputed = true
  | .part .declaration, r => ∃ f ∈ r.fields, f.isComputed = true
  | .part .recordBody, groups => ∃ g ∈ groups, ∃ f, .inl f ∈ g ∧ f.isComputed = true
  | .part .memberList, groups => ∃ g, some g ∈ groups ∧ ∃ f, .inl f ∈ g ∧ f.isComputed = true
  | .part .member, group => ∃ g, group = some g ∧ ∃ f, .inl f ∈ g ∧ f.isComputed = true
  | .part .fieldDecl, d => d.first.isComputed = true
  | .part .bindingList, bindings => bindings.1.isComputed = true
  | .part .binding, b => b.isComputed = true
  | _, _ => False

theorem exists_inl_of_mem_recordOf {header : Kind × String} {attributes : List Attribute}
    {groups : List (List (Field ⊕ Case))} {span : Span}
    (h : ∃ f ∈ (recordOf header attributes groups span).fields, f.isComputed = true) :
    ∃ g ∈ groups, ∃ f, .inl f ∈ g ∧ f.isComputed = true := by
  obtain ⟨f, hf, hcomputed⟩ := h
  obtain ⟨m, hm, hleft⟩ := List.mem_filterMap.mp hf
  obtain rfl := Sum.getLeft?_eq_some_iff.mp hleft
  obtain ⟨g, hg, hmem⟩ := List.mem_flatten.mp hm
  exact ⟨g, hg, f, hmem, hcomputed⟩

/-- The part is a computed property. -/
def IsAnyComputed : PartProp := fun n f u b =>
  ∃ front block back, IsComputed front block back n f u b

/-- Where a field is computed there is a computed property in the text. -/
theorem Tree.has_computed {s : Symbol} (t : Tree Label s) :
    HasComputed s t.located.value → ∀ f b, t.Has IsAnyComputed f b := by
  refine Tree.induct (P := fun {s} t => HasComputed s t.located.value →
    ∀ f b, t.Has IsAnyComputed f b) (fun _ h => h.elim) (fun p children ih h f b => ?_) t
  cases p with
  | bindingComputed =>
    match children with
    | .cons (.leaf name) (.cons (.leaf colon) (.cons type (.cons block .nil))) =>
      exact .inl ⟨_, block, _, name, colon, type, rfl, rfl, rfl⟩
  | declarations | bindingFirst =>
    match children, ih with
    | .cons x .nil, ⟨hx, _⟩ => exact .inr (.inl (hx h _ _))
  | declarationFirst =>
    match children, ih with
    | .cons d .nil, ⟨hd, _⟩ =>
      obtain ⟨r, hr, hcomputed⟩ := h
      obtain rfl := List.mem_singleton.mp hr
      exact .inr (.inl (hd hcomputed _ _))
  | declarationMore =>
    match children, ih with
    | .cons list (.cons d .nil), ⟨hlist, hd, _⟩ =>
      obtain ⟨r, hr, hcomputed⟩ := h
      rcases List.mem_append.mp hr with hr | hr
      · exact .inr (.inl (hlist ⟨r, hr, hcomputed⟩ _ _))
      · obtain rfl := List.mem_singleton.mp hr
        exact .inr (.inr (.inl (hd hcomputed _ _)))
  | declarationAttributed =>
    match children, ih with
    | .cons attributes (.cons header (.cons body .nil)), ⟨_, _, hbody, _⟩ =>
      exact .inr (.inr (.inr (.inl (hbody (exists_inl_of_mem_recordOf h) _ _))))
  | declarationPlain =>
    match children, ih with
    | .cons header (.cons body .nil), ⟨_, hbody, _⟩ =>
      exact .inr (.inr (.inl (hbody (exists_inl_of_mem_recordOf h) _ _)))
  | body =>
    match children, ih with
    | .cons b (.cons members (.cons c .nil)), ⟨_, hmembers, _⟩ =>
      obtain ⟨g, hg, hcomputed⟩ := h
      exact .inr (.inr (.inl (hmembers ⟨g, List.reduceOption_mem_iff.mp hg, hcomputed⟩ _ _)))
  | memberFirst =>
    match children, ih with
    | .cons m .nil, ⟨hm, _⟩ =>
      obtain ⟨g, hg, hcomputed⟩ := h
      exact .inr (.inl (hm ⟨g, (List.mem_singleton.mp hg).symm, hcomputed⟩ _ _))
  | memberMore =>
    match children, ih with
    | .cons members (.cons m .nil), ⟨hmembers, hm, _⟩ =>
      obtain ⟨g, hg, hcomputed⟩ := h
      rcases List.mem_append.mp hg with hg | hg
      · exact .inr (.inl (hmembers ⟨g, hg, hcomputed⟩ _ _))
      · exact .inr (.inr (.inl (hm ⟨g, (List.mem_singleton.mp hg).symm, hcomputed⟩ _ _)))
  | memberField =>
    match children, ih with
    | .cons d .nil, ⟨hd, _⟩ =>
      obtain ⟨g, hg, field, hfield, hcomputed⟩ := h
      obtain rfl := Option.some.inj hg
      obtain rfl := Sum.inl.inj (List.mem_singleton.mp hfield)
      exact .inr (.inl (hd hcomputed _ _))
  | memberFieldAttributed =>
    match children, ih with
    | .cons attributes (.cons d .nil), ⟨_, hd, _⟩ =>
      obtain ⟨g, hg, field, hfield, hcomputed⟩ := h
      obtain rfl := Option.some.inj hg
      obtain rfl := Sum.inl.inj (List.mem_singleton.mp hfield)
      exact .inr (.inr (.inl (hd hcomputed _ _)))
  | memberCase | memberCaseAttributed =>
    obtain ⟨g, hg, field, hfield, -⟩ := h
    obtain rfl := Option.some.inj hg
    obtain ⟨c, -, hc⟩ := List.mem_map.mp hfield
    cases hc
  | memberSeparator =>
    obtain ⟨g, hg, -⟩ := h
    cases hg
  | declarationsEmpty | bodyEmpty =>
    obtain ⟨r, hr, -⟩ := h
    cases hr
  | field =>
    match children, ih with
    | .cons keyword (.cons bindings .nil), ⟨_, hbindings, _⟩ =>
      exact .inr (.inr (.inl (hbindings h _ _)))
  | fieldStatic =>
    match children, ih with
    | .cons word (.cons keyword (.cons bindings .nil)), ⟨_, _, hbindings, _⟩ =>
      exact .inr (.inr (.inr (.inl (hbindings h _ _))))
  | bindingMore =>
    match children, ih with
    | .cons bindings (.cons comma (.cons b .nil)), ⟨hbindings, _⟩ =>
      exact .inr (.inl (hbindings h _ _))
  | _ => cases h

end RowSchema.Grammar
