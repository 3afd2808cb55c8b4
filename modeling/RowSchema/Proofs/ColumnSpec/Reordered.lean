import Mathlib.Data.List.Perm.Basic
import RowSchema.Proofs.Schema.Closed
import RowSchema.Proofs.Schema.Declared

/-! # Arguments in another order

The arguments of a column attribute are settled one by one, and no two of them settle the same. So
their order does not matter, except where a fix-it writes the attribute down again. -/

namespace RowSchema

/-! ## Outcomes side by side -/

/-- Both computations fail with the same error, or neither does and the results are related. -/
inductive SameOutcome {ε α β : Type} (R : α → β → Prop) : Except ε α → Except ε β → Prop
  | ok {a : α} {b : β} (related : R a b) : SameOutcome R (.ok a) (.ok b)
  | error (e : ε) : SameOutcome R (.error e) (.error e)

namespace SameOutcome

variable {ε α β γ δ : Type} {R : α → β → Prop} {S : γ → δ → Prop}

theorem map {f : α → γ} {g : β → δ} {x : Except ε α} {y : Except ε β} (h : SameOutcome R x y)
    (hmap : ∀ a b, R a b → S (f a) (g b)) : SameOutcome S (x.map f) (y.map g) := by
  cases h with
  | ok related => exact .ok (hmap _ _ related)
  | error e => exact .error e

theorem comp {T : α → δ → Prop} {P : β → δ → Prop} {x : Except ε α} {y : Except ε β}
    {z : Except ε δ} (h : SameOutcome R x y) (h' : SameOutcome P y z)
    (hcomp : ∀ a b d, R a b → P b d → T a d) : SameOutcome T x z := by
  cases h with
  | ok related =>
    cases h' with
    | ok related' => exact .ok (hcomp _ _ _ related related')
  | error e =>
    cases h' with
    | error => exact .error e

/-- Steps with the same outcomes have the same outcome together. -/
theorem mapM {f : γ → Except ε α} {g : δ → Except ε β} {l : List γ} {l' : List δ}
    (h : List.Forall₂ (fun c d => SameOutcome R (f c) (g d)) l l') :
    SameOutcome (List.Forall₂ R) (l.mapM f) (l'.mapM g) := by
  induction h with
  | nil => exact .ok .nil
  | @cons c d l l' hfirst _ ih =>
    rw [List.mapM_cons, List.mapM_cons]
    generalize f c = x at hfirst
    generalize g d = y at hfirst
    cases hfirst with
    | error e => exact .error e
    | ok hab =>
      generalize l.mapM f = xs at ih
      generalize l'.mapM g = ys at ih
      cases ih with
      | error e => exact .error e
      | ok hrest => exact .ok (.cons hab hrest)

/-- Steps that all fail with the same error, if they fail, may be taken in any order. -/
theorem mapM_perm {f : γ → Except ε α}
    (herror : ∀ c d e e', f c = .error e → f d = .error e' → e = e') {l l' : List γ}
    (h : l.Perm l') : SameOutcome List.Perm (l.mapM f) (l'.mapM f) := by
  induction h with
  | nil => exact .ok .nil
  | @cons c l l' _ ih =>
    rw [List.mapM_cons, List.mapM_cons]
    cases f c with
    | error e => exact .error e
    | ok a =>
      generalize l.mapM f = xs at ih
      generalize l'.mapM f = ys at ih
      cases ih with
      | error e => exact .error e
      | ok hrest => exact .ok (hrest.cons a)
  | swap c d l =>
    simp only [List.mapM_cons]
    cases hc : f c with
    | error e =>
      cases hd : f d with
      | error e' =>
        obtain rfl := herror c d e e' hc hd
        exact .error _
      | ok b => exact .error _
    | ok a =>
      cases f d with
      | error e' => exact .error e'
      | ok b =>
        cases l.mapM f with
        | error e' => exact .error e'
        | ok rest => exact .ok (.swap a b rest)
  | trans _ _ ih ih' => exact ih.comp ih' fun _ _ _ => .trans

end SameOutcome

/-! ## Permutations of arguments -/

/-- The items of a list and their numbers, as they stand in another order of the list. -/
theorem exists_zipIdx_perm {α : Type} {as as' : List α} (h : as.Perm as') :
    ∃ items, as.zipIdx.Perm items ∧ List.Forall₂ (fun x y => x.1 = y.1 ∧ as[x.2]? = some x.1 ∧
      as'[y.2]? = some y.1) items as'.zipIdx := by
  have hnumbers (as : List α) : List.Forall₂ (fun a x => a = x.1) as as.zipIdx := by
    rw [← List.forall₂_map_right_iff (f := Prod.fst), List.zipIdx_map_fst, List.forall₂_eq_eq_eq]
  obtain ⟨items, hitems, hperm⟩ := List.perm_comp_forall₂ h.symm (hnumbers as)
  refine ⟨items, hperm.symm, ?_⟩
  have hall := forall₂_comp hitems.flip (hnumbers as') fun x a y hx hy => hx.symm.trans hy
  have hleft : ∀ x ∈ items, as[x.2]? = some x.1 :=
    fun x hx => List.mem_zipIdx_iff_getElem?.mp (hperm.mem_iff.mp hx)
  have hright : ∀ y ∈ as'.zipIdx, as'[y.2]? = some y.1 :=
    fun y hy => List.mem_zipIdx_iff_getElem?.mp hy
  have hboth := (List.forall₂_and_left _ _).mpr
    ⟨hright, ((List.forall₂_and_left _ _).mpr ⟨hleft, hall⟩).flip⟩
  exact hboth.flip.imp fun x y h => ⟨h.2.2, h.2.1, h.1⟩

theorem perm_eraseIdx {α : Type} {as as' : List α} (h : as.Perm as') {i i' : Nat} {a : α}
    (hi : as[i]? = some a) (hi' : as'[i']? = some a) : (as.eraseIdx i).Perm (as'.eraseIdx i') := by
  obtain ⟨hlt, rfl⟩ := List.getElem?_eq_some_iff.mp hi
  obtain ⟨hlt', ha⟩ := List.getElem?_eq_some_iff.mp hi'
  have hleft := List.getElem_cons_eraseIdx_perm hlt
  have hright := List.getElem_cons_eraseIdx_perm hlt'
  rw [ha] at hright
  exact ((hleft.trans h).trans hright.symm).cons_inv

/-! ## Diagnostics -/

/-- The fix-its are the same but for the order of arguments: those of the attribute that is written
in place of another one, or those of the attribute that is to be removed as a whole. -/
inductive FixIt.Reordered : FixIt → FixIt → Prop
  | same (fix : FixIt) : Reordered fix fix
  | rewritten (message name : String) (span : Option Span) {as as' : List Argument}
      (perm : as.Perm as') :
      Reordered ⟨message, Attribute.render name as, span⟩ ⟨message, Attribute.render name as', span⟩
  | removed (name : String) (span : Option Span) {as as' : List Argument} (perm : as.Perm as') :
      Reordered ⟨"Remove '" ++ Attribute.render name as ++ "'", "", span⟩
        ⟨"Remove '" ++ Attribute.render name as' ++ "'", "", span⟩

/-- The diagnostics are the same but for the order of arguments in their fix-its. -/
structure Diagnostic.Reordered (d d' : Diagnostic) : Prop where
  same : { d' with fixIts := [] } = { d with fixIts := [] }
  fixIts : List.Forall₂ FixIt.Reordered d.fixIts d'.fixIts

theorem Diagnostic.Reordered.refl (d : Diagnostic) : d.Reordered d :=
  ⟨rfl, List.forall₂_same.mpr fun fix _ => .same fix⟩

theorem Diagnostic.reordered_same (ds : List Diagnostic) : List.Forall₂ Reordered ds ds :=
  List.forall₂_same.mpr fun d _ => .refl d

/-! ## Settings -/

/-- The label of the arguments that may settle that. -/
def Setting.label : Setting → Option String
  | columnName _ => none
  | representation _ => some "as"
  | key _ => some "primaryKey"
  | generated _ => some "generated"

/-- The claims are the same, by the same argument. -/
inductive KeyClaim.Moved (as as' : List Argument) : KeyClaim → KeyClaim → Prop
  | unclaimed : Moved as as' .unclaimed .unclaimed
  | disclaimed : Moved as as' .disclaimed .disclaimed
  | claimed {i i' : Nat} {a : Argument} (found : as[i]? = some a) (found' : as'[i']? = some a) :
      Moved as as' (.claimed i a.span) (.claimed i' a.span)

theorem KeyClaim.Moved.explicit?_eq {as as' : List Argument} {claim claim' : KeyClaim}
    (h : Moved as as' claim claim') : claim'.explicit? = claim.explicit? := by
  cases h <;> rfl

/-- The same is settled, by the same argument. -/
inductive Setting.Moved (as as' : List Argument) : Setting → Setting → Prop
  | columnName (name : String) : Moved as as' (.columnName name) (.columnName name)
  | representation (t : TypeRef) : Moved as as' (.representation t) (.representation t)
  | key {claim claim' : KeyClaim} (moved : KeyClaim.Moved as as' claim claim') :
      Moved as as' (.key claim) (.key claim')
  | generated (g : Generated) : Moved as as' (.generated g) (.generated g)

/-- The same comes of an argument, whatever the order of the arguments. -/
structure Finding.Reordered (as as' : List Argument) (f f' : Finding) : Prop where
  setting : Option.Rel (Setting.Moved as as') f.setting f'.setting
  diagnostics : List.Forall₂ Diagnostic.Reordered f.diagnostics f'.diagnostics

section

variable {as as' : List Argument} {attr : Attribute} {i i' : Nat} {argument : Argument}

theorem Finding.Reordered.settles {setting setting' : Setting}
    (h : Setting.Moved as as' setting setting') :
    Finding.Reordered as as' (.settles setting) (.settles setting') := ⟨.some h, .nil⟩

theorem Finding.Reordered.refuses {d d' : Diagnostic} (h : d.Reordered d') :
    Finding.Reordered as as' (.refuses d) (.refuses d') := ⟨.none, .cons h .nil⟩

theorem nameFinding_reordered (field : String) :
    Finding.Reordered as as' (nameFinding argument field) (nameFinding argument field) := by
  unfold nameFinding
  split
  · exact .settles (.columnName _)
  · exact .refuses (.refl _)

theorem representationFinding_reordered (field : String) :
    Finding.Reordered as as' (representationFinding argument field)
      (representationFinding argument field) := by
  unfold representationFinding
  split
  · exact .settles (.representation _)
  · exact .refuses (.refl _)

theorem generatedFinding_reordered (f : Field) :
    SameOutcome (Finding.Reordered as as') (generatedFinding f argument)
      (generatedFinding f argument) := by
  unfold generatedFinding
  split
  · exact .ok (.refuses (.refl _))
  · split
    · cases Span.orElse f.bindingSpan f.span with
      | error e => exact .error e
      | ok span => exact .ok (.refuses (.refl _))
    · exact .ok (.settles (.generated _))

variable (hperm : attr.arguments.Perm as') (hi : attr.arguments[i]? = some argument)
  (hi' : as'[i']? = some argument)

include hperm hi hi'

theorem misplaced_reordered (field : Option String) (message : String) :
    (misplaced attr i argument field message).Reordered
      (misplaced { attr with arguments := as' } i' argument field message) :=
  ⟨rfl, .cons (.rewritten _ _ _ (perm_eraseIdx hperm hi hi')) .nil⟩

theorem keyFinding_reordered (field : String) :
    Finding.Reordered attr.arguments as' (keyFinding field attr i argument)
      (keyFinding field { attr with arguments := as' } i' argument) := by
  unfold keyFinding
  split
  · exact .settles (.key (.claimed hi hi'))
  · refine ⟨.some (.key .disclaimed), ?_⟩
    split
    · exact .nil
    · obtain ⟨-, hfixIts⟩ := misplaced_reordered hperm hi hi' (some field)
        ("'primaryKey: false' has no effect on '" ++ field ++ "'")
      exact .cons ⟨rfl, hfixIts⟩ .nil
  · exact .refuses (.refl _)

theorem fieldFinding_reordered (role : Role) (f : Field) :
    SameOutcome (Finding.Reordered attr.arguments as') (fieldFinding role f attr i argument)
      (fieldFinding role f { attr with arguments := as' } i' argument) := by
  have hmisplaced (message : String) : SameOutcome (Finding.Reordered attr.arguments as')
      (.ok (.refuses (misplaced attr i argument (some f.name) message)) : Except RangeError Finding)
      (.ok (.refuses
        (misplaced { attr with arguments := as' } i' argument (some f.name) message))) :=
    .ok (.refuses (misplaced_reordered hperm hi hi' _ _))
  unfold fieldFinding
  dsimp only
  split
  · split
    · exact hmisplaced _
    · exact .ok (nameFinding_reordered _)
  · exact .ok (representationFinding_reordered _)
  · split
    · exact hmisplaced _
    · exact .ok (keyFinding_reordered hperm hi hi' _)
  · split
    · exact hmisplaced _
    · exact generatedFinding_reordered f
  · exact hmisplaced _

end

/-! ## What is settled once -/

theorem fieldFinding_label {role : Role} {f : Field} {attr : Attribute} {i : Nat}
    {argument : Argument} {finding : Finding}
    (h : fieldFinding role f attr i argument = .ok finding) :
    ∀ setting, finding.setting = some setting → setting.label = argument.label := by
  intro setting hsetting
  unfold fieldFinding at h
  dsimp only at h
  split at h
  · next hlabel =>
    split at h
    · cases h
      cases hsetting
    · cases h
      unfold nameFinding at hsetting
      split at hsetting <;> cases hsetting
      exact hlabel.symm
  · next hlabel =>
    cases h
    unfold representationFinding at hsetting
    split at hsetting <;> cases hsetting
    exact hlabel.symm
  · next hlabel =>
    split at h
    · cases h
      cases hsetting
    · cases h
      unfold keyFinding at hsetting
      split at hsetting <;> cases hsetting
      all_goals exact hlabel.symm
  · next hlabel =>
    split at h
    · cases h
      cases hsetting
    · unfold generatedFinding at h
      split at h
      · cases h
        cases hsetting
      · split at h
        · obtain ⟨span, -, h⟩ := bind_eq_ok.mp h
          cases h
          cases hsetting
        · cases h
          cases hsetting
          exact hlabel.symm
  · cases h
    cases hsetting

/-- The only error is that the keyword of the field is nowhere. -/
theorem fieldFinding_error {role : Role} {f : Field} {attr : Attribute} {i : Nat}
    {argument : Argument} {e : RangeError} (h : fieldFinding role f attr i argument = .error e) :
    Span.orElse f.bindingSpan f.span = .error e := by
  have hgenerated (h : generatedFinding f argument = .error e) :
      Span.orElse f.bindingSpan f.span = .error e := by
    unfold generatedFinding at h
    split at h
    · cases h
    · split at h
      · cases hspan : Span.orElse f.bindingSpan f.span with
        | error e' =>
          rw [hspan] at h
          cases h
          rfl
        | ok span =>
          rw [hspan] at h
          cases h
      · cases h
  unfold fieldFinding at h
  dsimp only at h
  split at h
  · split at h <;> cases h
  · cases h
  · split at h <;> cases h
  · split at h
    · cases h
    · exact hgenerated h
  · cases h

section

variable {as as' : List Argument} {found found₁ found' : List Finding}

/-- Arguments with labels of their own settle things of their own. -/
theorem nodup_labels {items : List (Argument × Nat)}
    {find : Argument × Nat → Except RangeError Finding}
    (hlabel : ∀ x finding, find x = .ok finding → ∀ setting, finding.setting = some setting →
      setting.label = x.1.label)
    (h : List.Forall₂ (fun x finding => find x = .ok finding) items found)
    (hnodup : (items.map (·.1.label)).Nodup) :
    ((found.filterMap Finding.setting).map Setting.label).Nodup := by
  refine hnodup.sublist ?_
  clear hnodup
  induction h with
  | nil => exact .slnil
  | @cons x finding items found hfirst _ ih =>
    rw [List.map_cons, List.filterMap_cons]
    cases hsetting : finding.setting with
    | none => exact ih.cons _
    | some setting =>
      rw [List.map_cons, hlabel x finding hfirst setting hsetting]
      exact ih.cons_cons _

theorem length_pick {settings : List Setting} {α : Type} {pick : Setting → Option α}
    {label : Option String} (hpick : ∀ s v, pick s = some v → s.label = label)
    (hnodup : (settings.map Setting.label).Nodup) : (settings.filterMap pick).length ≤ 1 := by
  induction settings with
  | nil => exact Nat.zero_le 1
  | cons s settings ih =>
    obtain ⟨hnotMem, hnodup⟩ := List.nodup_cons.mp hnodup
    rw [List.filterMap_cons]
    cases hs : pick s with
    | none => exact ih hnodup
    | some v =>
      have hnone : settings.filterMap pick = [] := by
        refine List.filterMap_eq_nil_iff.mpr fun s' hs' => ?_
        by_contra hsome
        obtain ⟨w, hw⟩ := Option.ne_none_iff_exists'.mp hsome
        refine hnotMem (List.mem_map.mpr ⟨s', hs', ?_⟩)
        rw [hpick s' w hw, hpick s v hs]
      rw [hnone]
      exact Nat.le_refl 1

section

variable (hnodup : ((found.filterMap Finding.setting).map Setting.label).Nodup)
  (hperm : found.Perm found₁) (h : List.Forall₂ (Finding.Reordered as as') found₁ found')

include hnodup hperm h

/-- What is settled once does not depend on the order. -/
theorem lastSetting?_reordered {α : Type} (pick : Setting → Option α) (R : α → α → Prop)
    (label : Option String) (hpick : ∀ s v, pick s = some v → s.label = label)
    (hmoved : ∀ s s', Setting.Moved as as' s s' → Option.Rel R (pick s) (pick s')) :
    Option.Rel R (lastSetting? found pick) (lastSetting? found' pick) := by
  have hlength := length_pick hpick hnodup
  rw [List.filterMap_filterMap] at hlength
  have hpicks := hperm.filterMap fun f => f.setting.bind pick
  have hrelated : List.Forall₂ R (found₁.filterMap fun f => f.setting.bind pick)
      (found'.filterMap fun f => f.setting.bind pick) := by
    refine List.rel_filterMap (fun f f' hf => ?_) h
    have hsetting := hf.setting
    generalize f.setting = setting at hsetting ⊢
    generalize f'.setting = setting' at hsetting ⊢
    cases hsetting with
    | none => exact .none
    | some hs => exact hmoved _ _ hs
  unfold lastSetting?
  generalize (found.filterMap fun f => f.setting.bind pick) = l at hlength hpicks
  generalize (found₁.filterMap fun f => f.setting.bind pick) = l₁ at hpicks hrelated
  generalize (found'.filterMap fun f => f.setting.bind pick) = l' at hrelated
  match l, hlength with
  | [], _ =>
    obtain rfl := List.nil_perm.mp hpicks
    cases hrelated
    exact .none
  | [v], _ =>
    obtain rfl := List.singleton_perm.mp hpicks
    cases hrelated with
    | cons hv hrest =>
      cases hrest
      exact .some hv

theorem lastSetting?_same {α : Type} (pick : Setting → Option α) (label : Option String)
    (hpick : ∀ s v, pick s = some v → s.label = label)
    (hsame : ∀ s s', Setting.Moved as as' s s' → pick s' = pick s) :
    lastSetting? found' pick = lastSetting? found pick := by
  have hrel := lastSetting?_reordered hnodup hperm h pick Eq label hpick fun s s' hs => by
    rw [hsame s s' hs]
    cases pick s with
    | none => exact .none
    | some v => exact .some rfl
  generalize lastSetting? found pick = x at hrel ⊢
  generalize lastSetting? found' pick = y at hrel ⊢
  cases hrel with
  | none => rfl
  | some heq => rw [heq]

theorem lastSetting?_columnName_same :
    lastSetting? found' Setting.columnName? = lastSetting? found Setting.columnName? :=
  lastSetting?_same hnodup hperm h _ none (fun s v hs => by cases s <;> first | rfl | cases hs)
    fun s s' hs => by cases hs <;> rfl

theorem lastSetting?_representation_same :
    lastSetting? found' Setting.representation? = lastSetting? found Setting.representation? :=
  lastSetting?_same hnodup hperm h _ (some "as")
    (fun s v hs => by cases s <;> first | rfl | cases hs) fun s s' hs => by cases hs <;> rfl

theorem lastSetting?_generated_same :
    lastSetting? found' Setting.generated? = lastSetting? found Setting.generated? :=
  lastSetting?_same hnodup hperm h _ (some "generated")
    (fun s v hs => by cases s <;> first | rfl | cases hs) fun s s' hs => by cases hs <;> rfl

theorem lastSetting?_key_moved : KeyClaim.Moved as as'
    ((lastSetting? found Setting.key?).getD .unclaimed)
    ((lastSetting? found' Setting.key?).getD .unclaimed) := by
  have hkey := lastSetting?_reordered hnodup hperm h Setting.key? (KeyClaim.Moved as as')
    (some "primaryKey") (fun s v hs => by cases s <;> first | rfl | cases hs)
    (fun s s' hs => by cases hs <;> constructor; assumption)
  generalize lastSetting? found Setting.key? = x at hkey
  generalize lastSetting? found' Setting.key? = y at hkey
  cases hkey with
  | none => exact .unclaimed
  | some hclaim => exact hclaim

end

end

/-! ## Specifications -/

/-- The specifications are the same, but that the same argument claims the key. -/
structure ColumnSpec.Reordered (as as' : List Argument) (s s' : ColumnSpec) : Prop where
  same : { s' with key := .unclaimed, attr := none } = { s with key := .unclaimed, attr := none }
  key : KeyClaim.Moved as as' s.key s'.key
  decision : s'.key.explicit? = s.key.explicit?
  attr : Option.Rel (fun a a' => a' = { a with arguments := a'.arguments } ∧
    a.arguments.Perm a'.arguments) s.attr s'.attr

/-- The same comes of a field, and the same is reported of it in some order. -/
structure Resolved.Reordered (as as' : List Argument) (r r' : Resolved) : Prop where
  spec : Option.Rel (ColumnSpec.Reordered as as') r.1 r'.1
  diagnostics : ∃ ds, r.2.Perm ds ∧ List.Forall₂ Diagnostic.Reordered ds r'.2

section

variable (role : Role) (f : Field) {column : Attribute} {as' : List Argument}
  (hperm : column.arguments.Perm as')

include hperm

/-- The arguments come to the same, one by one, where they stand. -/
theorem exists_findings_reordered : ∃ found₁ : Except RangeError (List Finding),
    SameOutcome List.Perm (findings (some column) (fieldFinding role f)) found₁ ∧
      SameOutcome (List.Forall₂ (Finding.Reordered column.arguments as')) found₁
        (findings (some { column with arguments := as' }) (fieldFinding role f)) := by
  obtain ⟨items, hitems, hnumbered⟩ := exists_zipIdx_perm hperm
  refine ⟨items.mapM fun x => fieldFinding role f column x.2 x.1, ?_, .mapM ?_⟩
  · refine .mapM_perm (fun x y e e' h h' => ?_) hitems
    exact Except.error.inj ((fieldFinding_error h).symm.trans (fieldFinding_error h'))
  · refine hnumbered.imp fun x y ⟨hsame, hx, hy⟩ => ?_
    rw [hsame] at hx ⊢
    exact fieldFinding_reordered hperm hx hy role f

theorem findings_reordered : SameOutcome (fun found found' => ∃ found₁, found.Perm found₁ ∧
      List.Forall₂ (Finding.Reordered column.arguments as') found₁ found')
    (findings (some column) (fieldFinding role f))
    (findings (some { column with arguments := as' }) (fieldFinding role f)) := by
  obtain ⟨found₁, hfirst, hsecond⟩ := exists_findings_reordered role f hperm
  exact hfirst.comp hsecond fun _ _ _ h h' => ⟨_, h, h'⟩

theorem ColumnSpec.ofOptions_reordered (hlabels : (column.arguments.map Argument.label).Nodup) :
    SameOutcome
      (fun p p' => Resolved.Reordered column.arguments as' (some p.1, p.2) (some p'.1, p'.2))
      (ColumnSpec.ofOptions role f (some column))
      (ColumnSpec.ofOptions role f (some { column with arguments := as' })) := by
  have hall := findings_reordered role f hperm
  have hnodup {found : List Finding}
      (h : findings (some column) (fieldFinding role f) = .ok found) :
      ((found.filterMap Finding.setting).map Setting.label).Nodup := by
    refine nodup_labels (fun x finding h => fieldFinding_label h) (mapM_eq_ok.mp h) ?_
    rw [← List.zipIdx_map_fst 0 column.arguments, List.map_map] at hlabels
    exact hlabels
  unfold ColumnSpec.ofOptions
  generalize findings (some column) (fieldFinding role f) = x at hall hnodup
  generalize findings (some { column with arguments := as' }) (fieldFinding role f) = y at hall
  cases hall with
  | error e => exact .error e
  | @ok found found' h =>
    obtain ⟨found₁, hfound, hrelated⟩ := h
    have hname := lastSetting?_columnName_same (hnodup rfl) hfound hrelated
    have hrepresentation := lastSetting?_representation_same (hnodup rfl) hfound hrelated
    have hgenerated := congrArg (Option.getD · .none)
      (lastSetting?_generated_same (hnodup rfl) hfound hrelated)
    have hkey := lastSetting?_key_moved (hnodup rfl) hfound hrelated
    refine .ok ⟨.some ⟨?_, hkey, hkey.explicit?_eq, .some ⟨rfl, hperm⟩⟩, _, hfound.flatMap_right _,
      List.rel_flatMap hrelated fun _ _ h => h.diagnostics⟩
    dsimp only
    congr 1

end

/-! ## Fields -/

section

variable {attrs before after : List Attribute} {column : Attribute}
  (hattrs : attrs = before ++ column :: after) (hname : column.name = "Column")

include hattrs hname

/-- The attribute of any other name is still the same. -/
theorem named?_other {as' : List Argument} {name : String} (hother : name ≠ "Column") :
    Attribute.named? name (before ++ { column with arguments := as' } :: after) =
      Attribute.named? name attrs := by
  have hnot : (column.name == name) = false := by
    rw [hname]
    exact beq_eq_false_iff_ne.mpr hother.symm
  rw [hattrs]
  simp only [Attribute.named?, List.find?_append, List.find?_cons, hnot]

theorem named?_column (as' : List Argument)
    (hfirst : Attribute.named? "Column" before = none) :
    Attribute.named? "Column" attrs = some column ∧
      Attribute.named? "Column" (before ++ { column with arguments := as' } :: after) =
        some { column with arguments := as' } := by
  have hsome : (column.name == "Column") = true := by rw [hname]; rfl
  unfold Attribute.named? at hfirst ⊢
  rw [hattrs]
  constructor <;>
    · rw [List.find?_append, hfirst, List.find?_cons, hsome]
      rfl

end

theorem groupDiagnostics_reordered {f : Field} {group column : Attribute} {as' : List Argument}
    (hperm : column.arguments.Perm as') :
    List.Forall₂ Diagnostic.Reordered (ColumnSpec.groupDiagnostics f group (some column))
      (ColumnSpec.groupDiagnostics f group (some { column with arguments := as' })) :=
  List.rel_append (Diagnostic.reordered_same _)
    (.cons ⟨rfl, .cons (.removed _ _ hperm) .nil⟩ .nil)

/-- The arguments of a field's column attribute, with labels of their own, may stand in any order:
the same column comes of the field, and the same is reported of it, but for the order of the reports
and of the arguments within the fix-its. -/
theorem ColumnSpec.ofField_reordered (role : Role) {f : Field} {before after : List Attribute}
    {column : Attribute} {as' : List Argument}
    (hattributes : f.attributes = before ++ column :: after) (hname : column.name = "Column")
    (hfirst : Attribute.named? "Column" before = none)
    (hlabels : (column.arguments.map Argument.label).Nodup) (hperm : column.arguments.Perm as') :
    SameOutcome (Resolved.Reordered column.arguments as') (ofField role f)
        (ofField role
          { f with attributes := before ++ { column with arguments := as' } :: after }) ∧
      ((∀ s, f.bindingSpan = some s → s.Measured) → ∃ r r', ofField role f = .ok r ∧
        ofField role { f with attributes := before ++ { column with arguments := as' } :: after } =
          .ok r' ∧ r.Reordered column.arguments as' r') := by
  have hsame : SameOutcome (Resolved.Reordered column.arguments as') (ofField role f)
      (ofField role
        { f with attributes := before ++ { column with arguments := as' } :: after }) := by
    obtain ⟨hcolumn, hcolumn'⟩ := named?_column hattributes hname as' hfirst
    unfold ofField
    dsimp only
    rw [hcolumn', hcolumn, named?_other hattributes hname (by decide),
      named?_other hattributes hname (by decide)]
    split
    · exact .ok ⟨.none, [], .nil, .nil⟩
    · rw [show structuralFault? role { f with
        attributes := before ++ { column with arguments := as' } :: after } =
          structuralFault? role f from rfl]
      split
      · exact .ok ⟨.none, _, .refl _, Diagnostic.reordered_same _⟩
      · split
        · exact .ok ⟨.some ⟨rfl, .unclaimed, rfl, .none⟩, _, .refl _, .nil⟩
        · split
          · exact .ok ⟨.some ⟨rfl, .unclaimed, rfl, .none⟩, _, .refl _,
              groupDiagnostics_reordered hperm⟩
          · exact (ofOptions_reordered role f hperm hlabels).map fun p p' h => h
  refine ⟨hsame, fun hmeasured => ?_⟩
  obtain ⟨r, hr⟩ := ofField_ok role hmeasured
  obtain ⟨r', hr'⟩ := ofField_ok role
    (f := { f with attributes := before ++ { column with arguments := as' } :: after }) hmeasured
  rw [hr, hr'] at hsame
  cases hsame with
  | ok related => exact ⟨r, r', hr, hr', related⟩

/-- The arguments of `@Column("at", as: Text.self)`. -/
def dueColumn : List Argument :=
  [⟨none, .string "at", none⟩, ⟨some "as", .type { name := "Text" }, none⟩]

/-- A column keeps its name and its representation, whichever of them is written first. -/
theorem ColumnSpec.ofField_reordered_due : ∃ r r',
    ofField .table { name := "due", attributes := [⟨"Column", dueColumn, none⟩] } = .ok r ∧
      ofField .table { name := "due", attributes := [⟨"Column", dueColumn.reverse, none⟩] } =
        .ok r' ∧ r.Reordered dueColumn dueColumn.reverse r' ∧
      r'.1.bind (·.columnName) = some "at" := by
  obtain ⟨r, r', hr, hr', hreordered⟩ := (ofField_reordered .table
    (f := { name := "due", attributes := [⟨"Column", dueColumn, none⟩] })
    (List.nil_append _).symm rfl rfl (by decide) (List.reverse_perm dueColumn).symm).2 nofun
  exact ⟨r, r', hr, hr', hreordered, by cases hr'; rfl⟩

/-- The diagnostic without what its fix-its write in place. -/
def Diagnostic.unreplaced (d : Diagnostic) : Diagnostic :=
  { d with fixIts := d.fixIts.map fun fix => { fix with replacement := "" } }

/-- Not only what a fix-it writes in place shows the order of the arguments: where the attribute is
to be removed as a whole, beside `@Columns`, the fix-it names it with them. -/
theorem ColumnSpec.not_ofField_unreplaced : ¬ ∀ (role : Role) (f : Field)
    (before after : List Attribute) (column : Attribute) (as' : List Argument) (r r' : Resolved),
    f.attributes = before ++ column :: after → column.name = "Column" →
    Attribute.named? "Column" before = none → (column.arguments.map Argument.label).Nodup →
    column.arguments.Perm as' → ofField role f = .ok r →
    ofField role { f with attributes := before ++ { column with arguments := as' } :: after } =
      .ok r' → (r.2.map Diagnostic.unreplaced).Perm (r'.2.map Diagnostic.unreplaced) := by
  intro h
  have hmasked := h .table { name := "due", attributes := [⟨"Columns", [], none⟩,
    ⟨"Column", dueColumn, none⟩] } [⟨"Columns", [], none⟩] [] ⟨"Column", dueColumn, none⟩
    dueColumn.reverse _ _ rfl rfl rfl (by decide) (List.reverse_perm dueColumn).symm rfl rfl
  revert hmasked
  decide

end RowSchema
