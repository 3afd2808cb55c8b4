import RowSchema.Proofs.Reader.Records

/-! # Readers can go on to an end

From every state that a reader comes to, some tokens lead to the end of what it reads: a name where
one may begin, and then the brackets, parentheses and braces that are open. So whatever has been
read is the beginning of a complete text. -/

namespace RowSchema.Reader

open Grammar

variable {τ : Terminal → Type} {α β : Type} {x : Sigma τ}

/-! ## States that can be completed -/

/-- Some tokens lead from the state to one where what is read may end. -/
def Completes (feed : α → Sigma τ → Option α) (ended : α → Prop) (r : α) : Prop :=
  ∃ xs r', Reads feed r xs r' ∧ ended r'

namespace Completes

variable {feed : α → Sigma τ → Option α} {ended : α → Prop} {r r' : α}

theorem now (h : ended r) : Completes feed ended r := ⟨[], r, .nil, h⟩

theorem step (hfeed : feed r x = some r') (h : Completes feed ended r') :
    Completes feed ended r := by
  obtain ⟨xs, last, hread, hlast⟩ := h
  exact ⟨x :: xs, last, .cons hfeed hread, hlast⟩

/-- A reader that hands every token on to the reader inside it. -/
theorem lift {outer : β → Sigma τ → Option β} {last : β → Prop} (wrap : α → β)
    (hwrap : ∀ r x r', feed r x = some r' → outer (wrap r) x = some (wrap r'))
    (h : Completes feed ended r) (hlast : ∀ r', ended r' → Completes outer last (wrap r')) :
    Completes outer last (wrap r) := by
  obtain ⟨xs, r', hread, hr'⟩ := h
  obtain ⟨ys, p, hread', hp⟩ := hlast r' hr'
  exact ⟨xs ++ ys, p, (hread.lift hwrap).append hread', hp⟩

end Completes

/-- What a step keeps, reading keeps. -/
theorem Reads.keeps {feed : α → Sigma τ → Option α} {P : α → Prop}
    (hstep : ∀ r x r', P r → feed r x = some r' → P r') {r r' : α} {xs : List (Sigma τ)}
    (h : Reads feed r xs r') (hr : P r) : P r' := by
  induction xs generalizing r with
  | nil =>
    obtain rfl : r = r' := by simpa [Reads] using h
    exact hr
  | cons x xs ih =>
    unfold Reads at h
    rw [List.foldlM_cons] at h
    obtain ⟨next, hnext, hrest⟩ := Option.bind_eq_some_iff.mp h
    exact ih hrest (hstep r x next hr hnext)

/-! ## Expressions

Only the reader of an attribute's arguments holds the parentheses of an attribute, and only as its
outermost frame. -/

/-- Whether a frame stands in an expression, and is not the parentheses of an attribute. -/
def Frame.IsInner : Frame τ → Prop
  | .array _ _ => True
  | .arguments callee _ _ => callee.isSome = true

namespace ExprReader

variable {attr : Bool} {f f' : Frame τ} {frames outer : List (Frame τ)} {r r' : ExprReader τ}

/-- The frames of an expression: inside the parentheses of an attribute, or not. -/
def Stands (attr : Bool) : List (Frame τ) → Prop
  | [] => attr = false
  | f :: outer => f.IsInner ∧ Stands attr outer ∨ ¬ f.IsInner ∧ outer = [] ∧ attr = true

/-- What holds of every reader of an expression, or of the arguments of an attribute. -/
def Sound (attr : Bool) (r : ExprReader τ) : Prop :=
  match r.part with
  | .closed _ _ => r.frames = [] ∧ attr = true
  | _ => Stands attr r.frames

/-- Where an expression, or the arguments of an attribute, may end. -/
def Ended (attr : Bool) (r : ExprReader τ) : Prop :=
  if attr then ∃ list c, r = ⟨[], .closed list c⟩ else ∃ e, r.expr? = some e

theorem Stands.of_push (h : Stands attr (f :: outer)) (hf : f.IsInner) : Stands attr outer := by
  rcases h with ⟨-, h⟩ | ⟨h, -, -⟩
  · exact h
  · exact absurd hf h

theorem Stands.replace (h : Stands attr (f :: outer)) (hf : f'.IsInner ↔ f.IsInner) :
    Stands attr (f' :: outer) := by
  simpa only [Stands, hf] using h

theorem Stands.push (h : Stands attr frames) (hf : f.IsInner) : Stands attr (f :: frames) :=
  .inl ⟨hf, h⟩

theorem Stands.close {callee : Option (Of τ .postfixExpr × τ .openParen)}
    {done : Listed τ .argumentList} {label : Option (Labelling τ)}
    (h : Stands attr (.arguments callee done label :: outer))
    (arguments : Option (Of τ .argumentList)) (c : τ .closeParen) :
    Sound attr ⟨outer, close callee arguments c⟩ := by
  rcases h with ⟨hcallee, h⟩ | ⟨hcallee, rfl, rfl⟩
  · obtain ⟨callee, rfl⟩ := Option.isSome_iff_exists.mp hcallee
    exact h
  · obtain rfl : callee = none := by simpa [Frame.IsInner] using hcallee
    exact ⟨rfl, rfl⟩

theorem sound_feedStart (h : Stands attr frames) (hfeed : feedStart frames x = some r') :
    Sound attr r' := by
  unfold feedStart at hfeed
  split at hfeed
  · obtain rfl := Option.some.inj hfeed
    exact h
  · obtain rfl := Option.some.inj hfeed
    exact h
  · obtain rfl := Option.some.inj hfeed
    exact h.push trivial
  · split at hfeed
    · obtain rfl := Option.some.inj hfeed
      exact Stands.of_push h trivial
    · cases hfeed
  · split at hfeed
    · obtain rfl := Option.some.inj hfeed
      exact h.close _ _
    · cases hfeed
  · obtain ⟨l, -, rfl⟩ := Option.map_eq_some_iff.mp hfeed
    exact h

theorem sound_feedEnd {e : Of τ .expression} (h : Stands attr frames)
    (hfeed : feedEnd frames e x = some r') : Sound attr r' := by
  unfold feedEnd at hfeed
  split at hfeed
  · obtain rfl := Option.some.inj hfeed
    exact h.replace Iff.rfl
  · obtain rfl := Option.some.inj hfeed
    exact Stands.of_push h trivial
  · obtain rfl := Option.some.inj hfeed
    exact h.replace Iff.rfl
  · obtain rfl := Option.some.inj hfeed
    exact h.close _ _
  · cases hfeed

theorem sound_feedPath {base : Of τ .postfixExpr} (h : Stands attr frames)
    (hfeed : feedPath frames base x = some r') : Sound attr r' := by
  unfold feedPath at hfeed
  split at hfeed
  · obtain rfl := Option.some.inj hfeed
    exact h
  · obtain rfl := Option.some.inj hfeed
    exact h
  · obtain rfl := Option.some.inj hfeed
    exact h.push rfl
  · exact sound_feedEnd h hfeed

theorem sound_feed (r : ExprReader τ) (x : Sigma τ) (r' : ExprReader τ) (h : r.Sound attr)
    (hfeed : r.feed x = some r') : r'.Sound attr := by
  obtain ⟨frames, part⟩ := r
  simp only [feed] at hfeed
  split at hfeed
  · exact sound_feedStart h hfeed
  · obtain rfl := Option.some.inj hfeed
    exact h
  · unfold feedName at hfeed
    split at hfeed
    · obtain rfl := Option.some.inj hfeed
      exact Stands.replace h Iff.rfl
    · exact sound_feedPath h hfeed
  · exact sound_feedPath h hfeed
  · obtain rfl := Option.some.inj hfeed
    exact h
  · obtain rfl := Option.some.inj hfeed
    exact h
  · obtain rfl := Option.some.inj hfeed
    exact h
  · exact sound_feedEnd h hfeed
  · cases hfeed

end ExprReader

/-! ## Declarations -/

/-- Every expression inside the reader of an attribute stands inside its parentheses. -/
def AttributeReader.Sound : AttributeReader τ → Prop
  | .arguments _ _ _ reader => reader.Sound true
  | _ => True

theorem AttributeReader.sound_feed (r : AttributeReader τ) (x : Sigma τ) (r' : AttributeReader τ)
    (h : r.Sound) (hfeed : r.feed x = some r') : r'.Sound := by
  unfold feed at hfeed
  split at hfeed
  · obtain rfl := Option.some.inj hfeed
    trivial
  · obtain rfl := Option.some.inj hfeed
    exact .inr ⟨by simp [Frame.IsInner], rfl, rfl⟩
  · obtain ⟨reader, hreader, rfl⟩ := Option.map_eq_some_iff.mp hfeed
    exact ExprReader.sound_feed _ _ _ h hreader
  · cases hfeed

def AttributesReader.Sound (r : AttributesReader τ) : Prop := r.current.Sound

theorem AttributesReader.sound_feed (r : AttributesReader τ) (x : Sigma τ)
    (r' : AttributesReader τ) (h : r.Sound) (hfeed : r.feed x = some r') : r'.Sound := by
  unfold feed at hfeed
  split at hfeed
  · next current hcurrent =>
    obtain rfl := Option.some.inj hfeed
    exact AttributeReader.sound_feed _ _ _ h hcurrent
  · split at hfeed
    · obtain rfl := Option.some.inj hfeed
      trivial
    · cases hfeed

/-- The default of an associated value stands alone. -/
def PayloadReader.Sound : PayloadReader τ → Prop
  | .value _ _ _ reader => reader.Sound false
  | _ => True

theorem PayloadReader.sound_feedType {label : Option (Labelling τ)} {reader : TypeReader τ}
    {r' : PayloadReader τ} (hfeed : feedType label reader x = some r') : r'.Sound := by
  unfold feedType at hfeed
  split at hfeed
  · obtain rfl := Option.some.inj hfeed
    trivial
  · split at hfeed
    · obtain rfl := Option.some.inj hfeed
      rfl
    · cases hfeed

theorem PayloadReader.sound_feed (r : PayloadReader τ) (x : Sigma τ) (r' : PayloadReader τ)
    (h : r.Sound) (hfeed : r.feed x = some r') : r'.Sound := by
  unfold feed at hfeed
  split at hfeed
  · obtain rfl := Option.some.inj hfeed
    trivial
  · exact sound_feedType hfeed
  · obtain rfl := Option.some.inj hfeed
    trivial
  · exact sound_feedType hfeed
  · exact sound_feedType hfeed
  · obtain ⟨reader, hreader, rfl⟩ := Option.map_eq_some_iff.mp hfeed
    exact ExprReader.sound_feed _ _ _ h hreader

def ItemPart.Sound : ItemPart τ → Prop
  | .payloads _ _ _ current => current.Sound
  | _ => True

theorem ItemPart.sound_feed (r : ItemPart τ) (x : Sigma τ) (r' : ItemPart τ) (h : r.Sound)
    (hfeed : r.feed x = some r') : r'.Sound := by
  unfold feed at hfeed
  split at hfeed
  · obtain rfl := Option.some.inj hfeed
    trivial
  · obtain rfl := Option.some.inj hfeed
    trivial
  · unfold feedPayloads at hfeed
    split at hfeed
    · next current hcurrent =>
      obtain rfl := Option.some.inj hfeed
      exact PayloadReader.sound_feed _ _ _ h hcurrent
    · split at hfeed
      · obtain rfl := Option.some.inj hfeed
        trivial
      · obtain rfl := Option.some.inj hfeed
        trivial
      · obtain rfl := Option.some.inj hfeed
        trivial
      · cases hfeed
  · cases hfeed

def CasesReader.Sound (r : CasesReader τ) : Prop := r.part.Sound

theorem CasesReader.sound_feed (r : CasesReader τ) (x : Sigma τ) (r' : CasesReader τ)
    (h : r.Sound) (hfeed : r.feed x = some r') : r'.Sound := by
  unfold feed at hfeed
  split at hfeed
  · next part hpart =>
    obtain rfl := Option.some.inj hfeed
    exact ItemPart.sound_feed _ _ _ h hpart
  · split at hfeed
    · obtain rfl := Option.some.inj hfeed
      trivial
    · cases hfeed

/-- The default of a binding stands alone. -/
def BindingReader.Sound : BindingReader τ → Prop
  | .value _ _ _ reader => reader.Sound false
  | _ => True

theorem BindingReader.sound_feed (r : BindingReader τ) (x : Sigma τ) (r' : BindingReader τ)
    (h : r.Sound) (hfeed : r.feed x = some r') : r'.Sound := by
  unfold feed at hfeed
  split at hfeed
  · obtain rfl := Option.some.inj hfeed
    trivial
  · obtain rfl := Option.some.inj hfeed
    trivial
  · obtain rfl := Option.some.inj hfeed
    rfl
  · split at hfeed
    · obtain rfl := Option.some.inj hfeed
      trivial
    · split at hfeed
      · obtain rfl := Option.some.inj hfeed
        rfl
      · obtain rfl := Option.some.inj hfeed
        trivial
      · cases hfeed
  · obtain ⟨reader, hreader, rfl⟩ := Option.map_eq_some_iff.mp hfeed
    exact ExprReader.sound_feed _ _ _ h hreader
  · obtain ⟨reader, -, rfl⟩ := Option.map_eq_some_iff.mp hfeed
    trivial
  · cases hfeed

def FieldReader.Sound (r : FieldReader τ) : Prop := r.current.Sound

theorem FieldReader.sound_feed (r : FieldReader τ) (x : Sigma τ) (r' : FieldReader τ)
    (h : r.Sound) (hfeed : r.feed x = some r') : r'.Sound := by
  unfold feed at hfeed
  split at hfeed
  · next current hcurrent =>
    obtain rfl := Option.some.inj hfeed
    exact BindingReader.sound_feed _ _ _ h hcurrent
  · split at hfeed
    · obtain rfl := Option.some.inj hfeed
      trivial
    · cases hfeed

def MemberReader.Sound : MemberReader τ → Prop
  | .attributes reader => reader.Sound
  | .field _ reader => reader.Sound
  | .cases _ reader => reader.Sound
  | _ => True

theorem MemberReader.sound_declarationStart {shared : Option (Of τ .attributeList)}
    {r : MemberReader τ} (h : declarationStart shared x = some r) : r.Sound := by
  unfold declarationStart at h
  split at h
  · obtain rfl := Option.some.inj h
    trivial
  · obtain rfl := Option.some.inj h
    trivial
  · obtain ⟨keyword, -, rfl⟩ := Option.map_eq_some_iff.mp h
    trivial

theorem MemberReader.sound_memberStart {r : MemberReader τ} (h : memberStart x = some r) :
    r.Sound := by
  unfold memberStart at h
  split at h
  · obtain rfl := Option.some.inj h
    trivial
  · obtain rfl := Option.some.inj h
    trivial
  · exact sound_declarationStart h

theorem MemberReader.sound_feed (r : MemberReader τ) (x : Sigma τ) (r' : MemberReader τ)
    (h : r.Sound) (hfeed : r.feed x = some r') : r'.Sound := by
  unfold feed at hfeed
  split at hfeed
  · cases hfeed
  · split at hfeed
    · next reader hreader =>
      obtain rfl := Option.some.inj hfeed
      exact AttributesReader.sound_feed _ _ _ h hreader
    · obtain ⟨done, -, hstart⟩ := Option.bind_eq_some_iff.mp hfeed
      exact sound_declarationStart hstart
  · obtain ⟨keyword, -, rfl⟩ := Option.map_eq_some_iff.mp hfeed
    trivial
  · obtain ⟨reader, hreader, rfl⟩ := Option.map_eq_some_iff.mp hfeed
    exact FieldReader.sound_feed _ _ _ h hreader
  · obtain ⟨reader, hreader, rfl⟩ := Option.map_eq_some_iff.mp hfeed
    exact CasesReader.sound_feed _ _ _ h hreader

/-- What holds of every reader inside the place that is being read. -/
def Place.Sound : Place τ → Prop
  | .attributes reader => reader.Sound
  | .body _ _ _ _ (some member) => member.Sound
  | _ => True

def RecordsReader.Sound (r : RecordsReader τ) : Prop := r.place.Sound

theorem RecordsReader.sound_feed (r : RecordsReader τ) (x : Sigma τ) (r' : RecordsReader τ)
    (h : r.Sound) (hfeed : r.feed x = some r') : r'.Sound := by
  obtain ⟨done, place⟩ := r
  simp only [feed] at hfeed
  split at hfeed
  case h_12 =>
    unfold feedBody at hfeed
    split at hfeed
    · next member hmember =>
      obtain rfl := Option.some.inj hfeed
      obtain ⟨current, rfl, hcurrent⟩ := Option.bind_eq_some_iff.mp hmember
      exact MemberReader.sound_feed _ _ _ h hcurrent
    · obtain ⟨members, -, hnext⟩ := Option.bind_eq_some_iff.mp hfeed
      split at hnext
      · obtain rfl := Option.some.inj hnext
        trivial
      · obtain ⟨member, hmember, rfl⟩ := Option.map_eq_some_iff.mp hnext
        exact MemberReader.sound_memberStart hmember
  case h_2 =>
    obtain ⟨keyword, -, rfl⟩ := Option.map_eq_some_iff.mp hfeed
    trivial
  case h_3 =>
    split at hfeed
    · next reader hreader =>
      obtain rfl := Option.some.inj hfeed
      exact AttributesReader.sound_feed _ _ _ h hreader
    · split at hfeed
      · obtain rfl := Option.some.inj hfeed
        trivial
      · cases hfeed
  case h_13 => cases hfeed
  all_goals
    obtain rfl := Option.some.inj hfeed
    trivial

/-! ## Going on to an end

A name that can be written down is enough to begin whatever may follow. -/

section

variable (fill : (k : Terminal) → τ k)

include fill

namespace TypeReader

theorem completes_of_type? {brackets : List (τ .openBracket)} {part : TypePart τ} {t : Of τ .type}
    (h : part.type? = some t) :
    Completes feed (fun r => ∃ t, r.type? = some t) ⟨brackets, part⟩ := by
  induction brackets generalizing part t with
  | nil => exact .now ⟨t, h⟩
  | cons b outer ih => exact .step (feed_closeBracket h b (fill .closeBracket)) (ih rfl)

theorem completes (r : TypeReader τ) : Completes feed (fun r => ∃ t, r.type? = some t) r := by
  obtain ⟨brackets, part⟩ := r
  cases part with
  | start => exact .step (x := ⟨.word, fill .word⟩) rfl (completes_of_type? fill rfl)
  | dot path d => exact .step (x := ⟨.word, fill .word⟩) rfl (completes_of_type? fill rfl)
  | name path => exact completes_of_type? fill rfl
  | array t => exact completes_of_type? fill rfl
  | suffixed t => exact completes_of_type? fill rfl

end TypeReader

theorem BlockReader.completes (r : BlockReader τ) :
    Completes feed (fun r => ∃ t, r.block? = some t) r := by
  cases r with
  | closed block => exact .now ⟨block, rfl⟩
  | inside block outer =>
    induction outer generalizing block with
    | nil => exact .step (x := ⟨.closeBrace, fill .closeBrace⟩) rfl (.now ⟨_, rfl⟩)
    | cons around outer ih =>
      exact .step (x := ⟨.closeBrace, fill .closeBrace⟩) rfl (ih _)

namespace ExprReader

variable {attr : Bool}

theorem completes_of_expr? {frames : List (Frame τ)} {part : ExprPart τ} {e : Of τ .expression}
    (h : Stands attr frames) (he : part.expr? = some e) :
    Completes feed (Ended attr) ⟨frames, part⟩ := by
  induction frames generalizing part e with
  | nil =>
    obtain rfl : attr = false := h
    exact .now ⟨e, he⟩
  | cons f outer ih =>
    cases f with
    | array b done =>
      have hclose : feed ⟨.array b done :: outer, part⟩ ⟨.closeBracket, fill .closeBracket⟩ =
          feedEnd (.array b done :: outer) e ⟨.closeBracket, fill .closeBracket⟩ :=
        feed_eq_feedEnd he rfl
      exact .step hclose (ih (Stands.of_push h trivial) rfl)
    | arguments callee done label =>
      have hclose : feed ⟨.arguments callee done label :: outer, part⟩
          ⟨.closeParen, fill .closeParen⟩ =
          feedEnd (.arguments callee done label :: outer) e ⟨.closeParen, fill .closeParen⟩ :=
        feed_eq_feedEnd he rfl
      rcases h with ⟨hcallee, h⟩ | ⟨hcallee, rfl, rfl⟩
      · obtain ⟨callee, rfl⟩ := Option.isSome_iff_exists.mp hcallee
        exact .step hclose (ih h rfl)
      · obtain rfl : callee = none := by simpa [Frame.IsInner] using hcallee
        exact .step hclose (.now ⟨_, _, rfl⟩)

theorem completes {r : ExprReader τ} (h : r.Sound attr) : Completes feed (Ended attr) r := by
  obtain ⟨frames, part⟩ := r
  have hword (base : Of τ .postfixExpr) (d : τ .dot) (h : Stands attr frames) :
      Completes feed (Ended attr) ⟨frames, .dot base d⟩ :=
    .step (x := ⟨.word, fill .word⟩) rfl (completes_of_expr? fill h rfl)
  cases part with
  | start => exact .step (x := ⟨.word, fill .word⟩) rfl (completes_of_expr? fill h rfl)
  | member d => exact .step (x := ⟨.word, fill .word⟩) rfl (completes_of_expr? fill h rfl)
  | name w => exact completes_of_expr? fill h rfl
  | path base => exact completes_of_expr? fill h rfl
  | dot base d => exact hword base d h
  | question base q =>
    refine .step (x := ⟨.dot, fill .dot⟩) rfl (.step (x := ⟨.word, fill .word⟩) rfl ?_)
    exact completes_of_expr? fill h rfl
  | questionDot base q d =>
    exact .step (x := ⟨.word, fill .word⟩) rfl (completes_of_expr? fill h rfl)
  | whole e => exact completes_of_expr? fill h rfl
  | closed list c =>
    obtain ⟨rfl, rfl⟩ := h
    exact .now ⟨list, c, rfl⟩

theorem completes_alone {r : ExprReader τ} (h : r.Sound false) :
    Completes feed (fun r => ∃ e, r.expr? = some e) r := by
  obtain ⟨xs, r', hread, he⟩ := completes fill h
  exact ⟨xs, r', hread, he⟩

end ExprReader

theorem AttributeReader.completes {r : AttributeReader τ} (h : r.Sound) :
    Completes feed (fun r => ∃ a, r.attribute? = some a) r := by
  cases r with
  | sign s => exact .step (x := ⟨.word, fill .word⟩) rfl (.now ⟨_, rfl⟩)
  | name s w => exact .now ⟨_, rfl⟩
  | arguments s w paren reader =>
    refine (ExprReader.completes fill h).lift (AttributeReader.arguments s w paren) ?_ ?_
    · intro r x r' hfeed
      simp [feed, hfeed]
    · rintro r' ⟨list, c, rfl⟩
      exact .now ⟨_, rfl⟩

theorem AttributesReader.completes {r : AttributesReader τ} (h : r.Sound) :
    Completes feed (fun r => ∃ list, r.attributes? = some list) r := by
  obtain ⟨done, current⟩ := r
  refine (AttributeReader.completes fill h).lift (AttributesReader.mk done) ?_ ?_
  · intro r x r' hfeed
    simp [feed, hfeed]
  · rintro r' ⟨a, ha⟩
    exact .now (by simp [attributes?, ha])

theorem PayloadReader.completes {r : PayloadReader τ} (h : r.Sound) :
    Completes feed (fun r => ∃ p, r.payload? = some p) r := by
  cases r with
  | start => exact .step (x := ⟨.word, fill .word⟩) rfl (.now ⟨_, rfl⟩)
  | word w => exact .now ⟨_, rfl⟩
  | type label reader =>
    refine (reader.completes fill).lift _ (fun _ _ _ => feed_type _ _ _) ?_
    rintro r' ⟨t, ht⟩
    exact .now (by simp [payload?, ht])
  | value label t equals reader =>
    refine (ExprReader.completes_alone fill h).lift _ (fun _ _ _ => feed_value _ _ _) ?_
    rintro r' ⟨e, he⟩
    exact .now (by simp [payload?, he])

theorem ItemPart.completes {r : ItemPart τ} (h : r.Sound) :
    Completes feed (fun r => ∃ item, r.item? = some item) r := by
  cases r with
  | start => exact .step (x := ⟨.word, fill .word⟩) rfl (.now ⟨_, rfl⟩)
  | name w => exact .now ⟨_, rfl⟩
  | payloads w paren done current =>
    refine (PayloadReader.completes fill h).lift _ (fun _ _ _ => feed_payloads _ _ _) ?_
    rintro r' ⟨p, hp⟩
    exact .step (feed_closeParen hp (fill .closeParen)) (.now ⟨_, rfl⟩)
  | closed item => exact .now ⟨item, rfl⟩

theorem CasesReader.completes {r : CasesReader τ} (h : r.Sound) :
    Completes feed (fun r => ∃ d, r.cases? = some d) r := by
  obtain ⟨keyword, done, part⟩ := r
  refine (ItemPart.completes fill h).lift (CasesReader.mk keyword done) ?_ ?_
  · intro r x r' hfeed
    simp [feed, hfeed]
  · rintro r' ⟨item, hitem⟩
    exact .now (by simp [cases?, items?, hitem])

theorem BindingReader.completes {r : BindingReader τ} (h : r.Sound) :
    Completes feed (fun r => ∃ b, r.binding? = some b) r := by
  cases r with
  | start => exact .step (x := ⟨.word, fill .word⟩) rfl (.now ⟨_, rfl⟩)
  | name w => exact .now ⟨_, rfl⟩
  | type w colon reader =>
    refine (reader.completes fill).lift _ (fun _ _ _ => feed_type _ _ _) ?_
    rintro r' ⟨t, ht⟩
    exact .now (by simp [binding?, ht])
  | value w declared equals reader =>
    refine (ExprReader.completes_alone fill h).lift _ (fun _ _ _ => feed_value _ _ _) ?_
    rintro r' ⟨e, he⟩
    exact .now (by simp [binding?, he])
  | block w colon t reader =>
    refine (reader.completes fill).lift _ (fun _ _ _ => feed_block _ _ _) ?_
    rintro r' ⟨block, hblock⟩
    exact .now (by simp [binding?, hblock])

theorem FieldReader.completes {r : FieldReader τ} (h : r.Sound) :
    Completes feed (fun r => ∃ d, r.field? = some d) r := by
  obtain ⟨static, keyword, done, current⟩ := r
  refine (BindingReader.completes fill h).lift (FieldReader.mk static keyword done) ?_ ?_
  · intro r x r' hfeed
    simp [feed, hfeed]
  · rintro r' ⟨b, hb⟩
    exact .now (by simp [field?, bindings?, hb])

namespace MemberReader

theorem completes_field {shared : Option (Of τ .attributeList)} {reader : FieldReader τ}
    (h : reader.Sound) :
    Completes feed (fun r => ∃ m, r.member? = some m) (.field shared reader) := by
  refine (FieldReader.completes fill h).lift _ (fun _ _ _ => feed_field _ _ _) ?_
  rintro r' ⟨d, hd⟩
  exact .now ⟨_, member?_field hd⟩

theorem completes_cases {shared : Option (Of τ .attributeList)} {reader : CasesReader τ}
    (h : reader.Sound) :
    Completes feed (fun r => ∃ m, r.member? = some m) (.cases shared reader) := by
  refine (CasesReader.completes fill h).lift _ (fun _ _ _ => feed_cases _ _ _) ?_
  rintro r' ⟨d, hd⟩
  exact .now ⟨_, member?_cases hd⟩

theorem completes {r : MemberReader τ} (h : r.Sound) :
    Completes feed (fun r => ∃ m, r.member? = some m) r := by
  cases r with
  | separator s => exact .now ⟨_, rfl⟩
  | attributes reader =>
    refine (AttributesReader.completes fill h).lift MemberReader.attributes ?_ ?_
    · intro r x r' hfeed
      simp [feed, hfeed]
    · rintro r' ⟨list, hlist⟩
      have hcase : feed (.attributes r') ⟨.keyword .caseWord, fill (.keyword .caseWord)⟩ =
          some (.cases (some list) { keyword := fill (.keyword .caseWord) }) := by
        have hnone : r'.feed ⟨.keyword .caseWord, fill (.keyword .caseWord)⟩ = none :=
          AttributesReader.feed_of_attributes? hlist (by simp) (by simp)
        simp [feed, hnone, hlist, declarationStart]
      exact .step hcase (completes_cases fill trivial)
  | static shared s =>
    exact .step (x := ⟨.keyword .letWord, fill (.keyword .letWord)⟩) rfl
      (completes_field fill trivial)
  | field shared reader => exact completes_field fill h
  | cases shared reader => exact completes_cases fill h

end MemberReader

namespace RecordsReader

variable {done : Option (Of τ .declarationList)} {shared : Option (Of τ .attributeList)}
  {header : Of τ .recordHeader} {brace : τ .openBrace}

theorem completes_body {before : Option (Of τ .memberList)} {current : Option (MemberReader τ)}
    (h : (Place.body shared header brace before current).Sound) :
    Completes feed (fun r => ∃ t, r.declarations? = some t)
      ⟨done, .body shared header brace before current⟩ := by
  cases current with
  | none =>
    have hmembers : Place.members? before (none : Option (MemberReader τ)) = some before := rfl
    have hclose := feed_closeBrace done shared header brace hmembers (fun _ _ => rfl)
      (fill .closeBrace)
    exact .step hclose (.now ⟨_, rfl⟩)
  | some member =>
    refine (MemberReader.completes fill h).lift
      (fun r => RecordsReader.mk done (.body shared header brace before (some r))) ?_ ?_
    · intro r x r' hfeed
      show feedBody _ shared header brace before (some r) x = _
      simp [feedBody, hfeed]
    · rintro r' ⟨m, hm⟩
      have hmembers : Place.members? before (some r') =
          some (some (append .memberFirst .memberMore before m)) := by
        simp [Place.members?, hm]
      have hclose := feed_closeBrace done shared header brace hmembers
        (fun x hx => MemberReader.feed_of_member? hm hx) (fill .closeBrace)
      exact .step hclose (.now ⟨_, rfl⟩)

theorem completes_keyword {keyword : Of τ .recordKeyword} :
    Completes feed (fun r => ∃ t, r.declarations? = some t) ⟨done, .keyword shared keyword⟩ :=
  .step (x := ⟨.word, fill .word⟩) rfl
    (.step (x := ⟨.openBrace, fill .openBrace⟩) rfl (completes_body fill trivial))

/-- Whatever has been read, some tokens go on to a complete text. -/
theorem completes {r : RecordsReader τ} (h : r.Sound) :
    Completes feed (fun r => ∃ t, r.declarations? = some t) r := by
  obtain ⟨done, place⟩ := r
  cases place with
  | top =>
    cases done with
    | none => exact .now ⟨_, rfl⟩
    | some list => exact .now ⟨_, rfl⟩
  | attributes reader =>
    refine (AttributesReader.completes fill h).lift
      (fun r => RecordsReader.mk done (.attributes r)) ?_ ?_
    · intro r x r' hfeed
      simp [feed, hfeed]
    · rintro r' ⟨list, hlist⟩
      have hstruct : feed ⟨done, .attributes r'⟩
          ⟨.keyword .structWord, fill (.keyword .structWord)⟩ =
          some ⟨done, .keyword (some list)
            (.of1 .structKeyword (.leaf (fill (.keyword .structWord))))⟩ := by
        have hnone : r'.feed ⟨.keyword .structWord, fill (.keyword .structWord)⟩ = none :=
          AttributesReader.feed_of_attributes? hlist (by simp) (by simp)
        simp [feed, hnone, hlist, recordKeyword?]
      exact .step hstruct (completes_keyword fill)
  | keyword shared keyword => exact completes_keyword fill
  | name heading =>
    exact .step (x := ⟨.openBrace, fill .openBrace⟩) rfl (completes_body fill trivial)
  | conformance heading colon list =>
    exact .step (x := ⟨.word, fill .word⟩) rfl
      (.step (x := ⟨.openBrace, fill .openBrace⟩) rfl (completes_body fill trivial))
  | conformanceName heading colon list path =>
    exact .step (x := ⟨.openBrace, fill .openBrace⟩) rfl (completes_body fill trivial)
  | conformanceDot heading colon list path d =>
    exact .step (x := ⟨.word, fill .word⟩) rfl
      (.step (x := ⟨.openBrace, fill .openBrace⟩) rfl (completes_body fill trivial))
  | body shared header brace before current => exact completes_body fill h

end RecordsReader

end

end RowSchema.Reader
