import RowSchema.Proofs.Reader.Reads
import RowSchema.Reader.Expr

/-! # Expressions

The reader of expressions and argument lists holds all that it has read, and it reads every
expression and every argument list. -/

namespace RowSchema.Reader

open Grammar

variable {τ : Terminal → Type}

/-! ## What has been read -/

/-- The tokens of a callee and of the parenthesis after it. -/
def calleeLeaves : Option (Of τ .postfixExpr × τ .openParen) → List (Sigma τ)
  | none => []
  | some (callee, paren) => callee.leaves ++ [⟨.openParen, paren⟩]

/-- The tokens of a label and of its colon. -/
def labelLeaves : Option (Labelling τ) → List (Sigma τ)
  | none => []
  | some (w, colon) => [⟨.word, w⟩, ⟨.colon, colon⟩]

def Frame.leaves : Frame τ → List (Sigma τ)
  | array b done => ⟨.openBracket, b⟩ :: done.leaves
  | arguments callee done label => calleeLeaves callee ++ (done.leaves ++ labelLeaves label)

/-- The tokens that the part consists of. -/
def ExprPart.leaves : ExprPart τ → List (Sigma τ)
  | start => []
  | member d => [⟨.dot, d⟩]
  | name w => [⟨.word, w⟩]
  | path base => base.leaves
  | dot base d => base.leaves ++ [⟨.dot, d⟩]
  | question base q => base.leaves ++ [⟨.question, q⟩]
  | questionDot base q d => base.leaves ++ [⟨.question, q⟩, ⟨.dot, d⟩]
  | whole e => e.leaves
  | closed arguments paren => optionLeaves arguments ++ [⟨.closeParen, paren⟩]

/-- The tokens that have been read. -/
def ExprReader.leaves (r : ExprReader τ) : List (Sigma τ) :=
  r.frames.reverse.flatMap Frame.leaves ++ r.part.leaves

theorem ExprPart.leaves_of_base? {part : ExprPart τ} {e : Of τ .postfixExpr}
    (h : part.base? = some e) : e.leaves = part.leaves := by
  cases part with
  | name w =>
    obtain rfl := Option.some.inj h
    simp [leaves]
  | path base =>
    obtain rfl := Option.some.inj h
    rfl
  | _ => cases h

theorem ExprPart.leaves_of_expr? {part : ExprPart τ} {e : Of τ .expression}
    (h : part.expr? = some e) : e.leaves = part.leaves := by
  unfold expr? at h
  split at h
  · obtain rfl := Option.some.inj h
    rfl
  · obtain ⟨base, hbase, rfl⟩ := Option.map_eq_some_iff.mp h
    simp [leaves_of_base? hbase]

theorem leaves_of_literal? {x : Sigma τ} {l : Of τ .literal} (h : literal? x = some l) :
    l.leaves = [x] := by
  unfold literal? at h
  split at h <;> first
    | (obtain rfl := Option.some.inj h; simp)
    | cases h

@[simp] theorem leaves_argumentOf (label : Option (Labelling τ)) (e : Of τ .expression) :
    (argumentOf label e).leaves = labelLeaves label ++ e.leaves := by
  cases label <;> simp [argumentOf, labelLeaves]

@[simp] theorem leaves_arrayOf (b : τ .openBracket) (done : Listed τ .expressionList)
    (c : τ .closeBracket) :
    (arrayOf b done c).leaves = ⟨.openBracket, b⟩ :: (done.leaves ++ [⟨.closeBracket, c⟩]) := by
  cases done <;> simp [arrayOf, Listed.leaves]

namespace ExprReader

variable {r r' : ExprReader τ} {frames : List (Frame τ)} {part : ExprPart τ} {x : Sigma τ}

@[simp] theorem leaves_close (callee : Option (Of τ .postfixExpr × τ .openParen))
    (arguments : Option (Of τ .argumentList)) (c : τ .closeParen) :
    (close callee arguments c).leaves =
      calleeLeaves callee ++ (optionLeaves arguments ++ [⟨.closeParen, c⟩]) := by
  cases callee <;> cases arguments <;>
    simp [close, callOf, calleeLeaves, ExprPart.leaves]

theorem leaves_feedStart (h : feedStart frames x = some r') :
    r'.leaves = frames.reverse.flatMap Frame.leaves ++ [x] := by
  unfold feedStart at h
  split at h
  · obtain rfl := Option.some.inj h
    simp [leaves, ExprPart.leaves]
  · obtain rfl := Option.some.inj h
    simp [leaves, ExprPart.leaves]
  · obtain rfl := Option.some.inj h
    simp [leaves, ExprPart.leaves, Frame.leaves, Listed.leaves]
  · split at h
    · obtain rfl := Option.some.inj h
      simp [leaves, ExprPart.leaves, Frame.leaves]
    · cases h
  · split at h
    · obtain rfl := Option.some.inj h
      simp [leaves, Frame.leaves, Listed.leaves, labelLeaves]
    · cases h
  · obtain ⟨l, hl, rfl⟩ := Option.map_eq_some_iff.mp h
    simp [leaves, ExprPart.leaves, leaves_of_literal? hl]

theorem leaves_feedEnd {e : Of τ .expression} (h : feedEnd frames e x = some r') :
    r'.leaves = frames.reverse.flatMap Frame.leaves ++ (e.leaves ++ [x]) := by
  unfold feedEnd at h
  split at h
  · obtain rfl := Option.some.inj h
    simp [leaves, ExprPart.leaves, Frame.leaves, Listed.leaves]
  · obtain rfl := Option.some.inj h
    simp [leaves, ExprPart.leaves, Frame.leaves]
  · obtain rfl := Option.some.inj h
    simp [leaves, ExprPart.leaves, Frame.leaves, Listed.leaves, labelLeaves]
  · obtain rfl := Option.some.inj h
    simp [leaves, Frame.leaves]
  · cases h

theorem leaves_feedPath {base : Of τ .postfixExpr} (h : feedPath frames base x = some r') :
    r'.leaves = frames.reverse.flatMap Frame.leaves ++ (base.leaves ++ [x]) := by
  unfold feedPath at h
  split at h
  · obtain rfl := Option.some.inj h
    simp [leaves, ExprPart.leaves]
  · obtain rfl := Option.some.inj h
    simp [leaves, ExprPart.leaves]
  · obtain rfl := Option.some.inj h
    simp [leaves, ExprPart.leaves, Frame.leaves, calleeLeaves, Listed.leaves, labelLeaves]
  · simpa using leaves_feedEnd h

theorem leaves_feedName {w : τ .word} (h : feedName frames w x = some r') :
    r'.leaves = frames.reverse.flatMap Frame.leaves ++ [⟨.word, w⟩, x] := by
  unfold feedName at h
  split at h
  · obtain rfl := Option.some.inj h
    simp [leaves, ExprPart.leaves, Frame.leaves, labelLeaves]
  · simpa using leaves_feedPath h

theorem leaves_feed (h : r.feed x = some r') : r'.leaves = r.leaves ++ [x] := by
  obtain ⟨frames, part⟩ := r
  simp only [feed] at h
  split at h
  · simpa [leaves, ExprPart.leaves] using leaves_feedStart h
  · obtain rfl := Option.some.inj h
    simp [leaves, ExprPart.leaves]
  · simpa [leaves, ExprPart.leaves] using leaves_feedName h
  · simpa [leaves, ExprPart.leaves] using leaves_feedPath h
  · obtain rfl := Option.some.inj h
    simp [leaves, ExprPart.leaves]
  · obtain rfl := Option.some.inj h
    simp [leaves, ExprPart.leaves]
  · obtain rfl := Option.some.inj h
    simp [leaves, ExprPart.leaves]
  · simpa [leaves, ExprPart.leaves] using leaves_feedEnd h
  · cases h

theorem leaves_of_expr? {e : Of τ .expression} (h : r.expr? = some e) : e.leaves = r.leaves := by
  obtain ⟨frames, part⟩ := r
  cases frames with
  | nil => exact ExprPart.leaves_of_expr? h
  | cons frame outer => cases h

/-! ## The next token -/

/-- Whether such a token after an expression ends it. -/
def ends : Terminal → Bool
  | .dot | .question | .openParen | .colon => false
  | _ => true

theorem feed_eq_feedPath {base : Of τ .postfixExpr} (h : part.base? = some base)
    (hx : x.1 ≠ .colon) : feed ⟨frames, part⟩ x = feedPath frames base x := by
  cases part with
  | name w =>
    obtain rfl := Option.some.inj h
    show feedName frames w x = _
    unfold feedName
    split
    · exact absurd rfl hx
    · rfl
  | path base' =>
    obtain rfl := Option.some.inj h
    rfl
  | _ => cases h

theorem feed_eq_feedEnd {e : Of τ .expression} (h : part.expr? = some e)
    (hx : ends x.1 = true) : feed ⟨frames, part⟩ x = feedEnd frames e x := by
  unfold ExprPart.expr? at h
  split at h
  · obtain rfl := Option.some.inj h
    rfl
  · obtain ⟨base, hbase, rfl⟩ := Option.map_eq_some_iff.mp h
    rw [feed_eq_feedPath hbase (by rintro hcolon; rw [hcolon] at hx; cases hx)]
    unfold feedPath
    split <;> first | rfl | cases hx

/-- A complete expression refuses every token that cannot go on with it. -/
theorem feed_of_expr? {e : Of τ .expression} (h : r.expr? = some e) (hx : ends x.1 = true) :
    r.feed x = none := by
  obtain ⟨frames, part⟩ := r
  cases frames with
  | nil =>
    rw [feed_eq_feedEnd (show part.expr? = some e from h) hx]
    unfold feedEnd
    split <;> first | rfl | contradiction
  | cons frame outer => cases h

/-! ## Complete expressions -/

theorem expr?_of_base? {base : Of τ .postfixExpr} (h : part.base? = some base) :
    part.expr? = some (.of1 .expressionPostfix base) := by
  cases part with
  | whole e => cases h
  | _ => simp [ExprPart.expr?, h]

/-- What the reader makes of the tokens of an expression, of an argument, or of one of their
parts. -/
def Follows : {s : Symbol} → Tree τ s → Prop
  | .part .expression, t => ∀ frames : List (Frame τ), ∃ part : ExprPart τ,
      Reads feed ⟨frames, .start⟩ t.leaves ⟨frames, part⟩ ∧ part.expr? = some t
  | .part .literal, t => ∀ frames : List (Frame τ),
      Reads feed ⟨frames, .start⟩ t.leaves ⟨frames, .whole (.of1 .expressionLiteral t)⟩
  | .part .postfixExpr, t => ∀ frames : List (Frame τ), ∃ part : ExprPart τ,
      Reads feed ⟨frames, .start⟩ t.leaves ⟨frames, part⟩ ∧ part.base? = some t
  | .part .arrayLiteral, t => ∀ frames : List (Frame τ),
      Reads feed ⟨frames, .start⟩ t.leaves ⟨frames, .whole (.of1 .expressionArray t)⟩
  | .part .expressionList, t => ∀ (b : τ .openBracket) (frames : List (Frame τ)),
      ∃ (done : Listed τ .expressionList) (part : ExprPart τ) (e : Of τ .expression),
        Reads feed ⟨.array b none :: frames, .start⟩ t.leaves ⟨.array b done :: frames, part⟩ ∧
        part.expr? = some e ∧ done.add .expressionFirst .expressionMore e = t
  | .part .argument, t => ∀ (callee : Option (Of τ .postfixExpr × τ .openParen))
      (done : Listed τ .argumentList) (frames : List (Frame τ)),
      ∃ (label : Option (Labelling τ)) (part : ExprPart τ) (e : Of τ .expression),
        Reads feed ⟨.arguments callee done none :: frames, .start⟩ t.leaves
          ⟨.arguments callee done label :: frames, part⟩ ∧
        part.expr? = some e ∧ argumentOf label e = t
  | .part .argumentList, t => ∀ (callee : Option (Of τ .postfixExpr × τ .openParen))
      (frames : List (Frame τ)),
      ∃ (done : Listed τ .argumentList) (label : Option (Labelling τ)) (part : ExprPart τ)
        (e : Of τ .expression),
        Reads feed ⟨.arguments callee none none :: frames, .start⟩ t.leaves
          ⟨.arguments callee done label :: frames, part⟩ ∧
        part.expr? = some e ∧ done.add .argumentFirst .argumentMore (argumentOf label e) = t
  | _, _ => True

theorem follows {s : Symbol} (t : Tree τ s) : Follows t := by
  refine Tree.induct (fun _ => trivial) (fun p children ih => ?_) t
  cases p with
  | literalString | literalInteger | literalFloat | literalTrue | literalFalse | literalNil =>
    match children with
    | .cons (.leaf l) .nil => exact fun frames => Reads.one rfl
  | expressionLiteral =>
    match children, ih with
    | .cons l .nil, ⟨hl, _⟩ =>
      exact fun frames => ⟨.whole (.of1 .expressionLiteral l), by simpa using hl frames, rfl⟩
  | expressionPostfix =>
    match children, ih with
    | .cons base .nil, ⟨hbase, _⟩ =>
      intro frames
      obtain ⟨part, hread, hpart⟩ := hbase frames
      exact ⟨part, by simpa using hread, expr?_of_base? hpart⟩
  | expressionArray =>
    match children, ih with
    | .cons a .nil, ⟨ha, _⟩ =>
      exact fun frames => ⟨.whole (.of1 .expressionArray a), by simpa using ha frames, rfl⟩
  | expressionMember =>
    match children with
    | .cons (.leaf d) (.cons (.leaf w) .nil) =>
      intro frames
      have hdot : feed ⟨frames, .start⟩ ⟨.dot, d⟩ = some ⟨frames, .member d⟩ := rfl
      exact ⟨.whole (.of2 .expressionMember (.leaf d) (.leaf w)),
        by simpa using (Reads.one hdot).snoc (x := ⟨.word, w⟩) rfl, rfl⟩
  | postfixName =>
    match children with
    | .cons (.leaf w) .nil => exact fun frames => ⟨.name w, Reads.one rfl, rfl⟩
  | postfixMember =>
    match children, ih with
    | .cons base (.cons (.leaf d) (.cons (.leaf w) .nil)), ⟨hbase, _⟩ =>
      intro frames
      obtain ⟨part, hread, hpart⟩ := hbase frames
      have hdot : feed ⟨frames, part⟩ ⟨.dot, d⟩ = some ⟨frames, .dot base d⟩ :=
        feed_eq_feedPath hpart (by simp)
      exact ⟨_, by simpa using (hread.snoc hdot).snoc (x := ⟨.word, w⟩) rfl, rfl⟩
  | postfixOptional =>
    match children, ih with
    | .cons base (.cons (.leaf q) (.cons (.leaf d) (.cons (.leaf w) .nil))), ⟨hbase, _⟩ =>
      intro frames
      obtain ⟨part, hread, hpart⟩ := hbase frames
      have hquestion : feed ⟨frames, part⟩ ⟨.question, q⟩ = some ⟨frames, .question base q⟩ :=
        feed_eq_feedPath hpart (by simp)
      have hdot : feed ⟨frames, .question base q⟩ ⟨.dot, d⟩ =
          some ⟨frames, .questionDot base q d⟩ := rfl
      exact ⟨_, by simpa using ((hread.snoc hquestion).snoc hdot).snoc (x := ⟨.word, w⟩) rfl, rfl⟩
  | postfixCall =>
    match children, ih with
    | .cons base (.cons (.leaf o) (.cons (.leaf c) .nil)), ⟨hbase, _⟩ =>
      intro frames
      obtain ⟨part, hread, hpart⟩ := hbase frames
      have hopen : feed ⟨frames, part⟩ ⟨.openParen, o⟩ =
          some ⟨.arguments (some (base, o)) none none :: frames, .start⟩ :=
        feed_eq_feedPath hpart (by simp)
      exact ⟨_, by simpa using (hread.snoc hopen).snoc (x := ⟨.closeParen, c⟩) rfl, rfl⟩
  | postfixCallArguments =>
    match children, ih with
    | .cons base (.cons (.leaf o) (.cons list (.cons (.leaf c) .nil))), ⟨hbase, _, hlist, _⟩ =>
      intro frames
      obtain ⟨part, hread, hpart⟩ := hbase frames
      have hopen : feed ⟨frames, part⟩ ⟨.openParen, o⟩ =
          some ⟨.arguments (some (base, o)) none none :: frames, .start⟩ :=
        feed_eq_feedPath hpart (by simp)
      obtain ⟨done, label, last, e, hargs, he, rfl⟩ := hlist (some (base, o)) frames
      have hclose : feed ⟨.arguments (some (base, o)) done label :: frames, last⟩ ⟨.closeParen, c⟩ =
          feedEnd (.arguments (some (base, o)) done label :: frames) e ⟨.closeParen, c⟩ :=
        feed_eq_feedEnd he rfl
      exact ⟨_, by simpa using ((hread.snoc hopen).append hargs).snoc hclose, rfl⟩
  | arrayEmpty =>
    match children with
    | .cons (.leaf b) (.cons (.leaf c) .nil) =>
      intro frames
      have hopen : feed ⟨frames, .start⟩ ⟨.openBracket, b⟩ =
          some ⟨.array b none :: frames, .start⟩ := rfl
      exact (Reads.one hopen).snoc (x := ⟨.closeBracket, c⟩) rfl
  | array =>
    match children, ih with
    | .cons (.leaf b) (.cons list (.cons (.leaf c) .nil)), ⟨_, hlist, _⟩ =>
      intro frames
      obtain ⟨done, part, e, hread, he, rfl⟩ := hlist b frames
      have hclose : feed ⟨.array b done :: frames, part⟩ ⟨.closeBracket, c⟩ =
          feedEnd (.array b done :: frames) e ⟨.closeBracket, c⟩ := feed_eq_feedEnd he rfl
      have hopen : feed ⟨frames, .start⟩ ⟨.openBracket, b⟩ =
          some ⟨.array b none :: frames, .start⟩ := rfl
      simpa using (Reads.cons hopen hread).snoc hclose
  | arrayTrailing =>
    match children, ih with
    | .cons (.leaf b) (.cons list (.cons (.leaf s) (.cons (.leaf c) .nil))), ⟨_, hlist, _⟩ =>
      intro frames
      obtain ⟨done, part, e, hread, he, rfl⟩ := hlist b frames
      have hcomma : feed ⟨.array b done :: frames, part⟩ ⟨.comma, s⟩ =
          feedEnd (.array b done :: frames) e ⟨.comma, s⟩ := feed_eq_feedEnd he rfl
      have hopen : feed ⟨frames, .start⟩ ⟨.openBracket, b⟩ =
          some ⟨.array b none :: frames, .start⟩ := rfl
      simpa [arrayOf] using
        ((Reads.cons hopen hread).snoc hcomma).snoc (x := ⟨.closeBracket, c⟩) rfl
  | expressionFirst =>
    match children, ih with
    | .cons e .nil, ⟨he, _⟩ =>
      intro b frames
      obtain ⟨part, hread, hpart⟩ := he (.array b none :: frames)
      exact ⟨none, part, e, by simpa using hread, hpart, rfl⟩
  | expressionMore =>
    match children, ih with
    | .cons list (.cons (.leaf s) (.cons e .nil)), ⟨hlist, _, he, _⟩ =>
      intro b frames
      obtain ⟨done, part, last, hread, hlast, rfl⟩ := hlist b frames
      have hcomma : feed ⟨.array b done :: frames, part⟩ ⟨.comma, s⟩ =
          feedEnd (.array b done :: frames) last ⟨.comma, s⟩ := feed_eq_feedEnd hlast rfl
      obtain ⟨part', hread', hpart'⟩ := he (.array b (some (_, s)) :: frames)
      exact ⟨some (_, s), part', e, by simpa using (hread.snoc hcomma).append hread', hpart', rfl⟩
  | argumentPositional =>
    match children, ih with
    | .cons e .nil, ⟨he, _⟩ =>
      intro callee done frames
      obtain ⟨part, hread, hpart⟩ := he (.arguments callee done none :: frames)
      exact ⟨none, part, e, by simpa using hread, hpart, rfl⟩
  | argumentLabeled =>
    match children, ih with
    | .cons (.leaf w) (.cons (.leaf c) (.cons e .nil)), ⟨_, _, he, _⟩ =>
      intro callee done frames
      obtain ⟨part, hread, hpart⟩ := he (.arguments callee done (some (w, c)) :: frames)
      refine ⟨some (w, c), part, e, ?_, hpart, rfl⟩
      simpa using Reads.cons (x := ⟨.word, w⟩) rfl (Reads.cons (x := ⟨.colon, c⟩) rfl hread)
  | argumentFirst =>
    match children, ih with
    | .cons a .nil, ⟨ha, _⟩ =>
      intro callee frames
      obtain ⟨label, part, e, hread, hpart, rfl⟩ := ha callee none frames
      exact ⟨none, label, part, e, by simpa using hread, hpart, rfl⟩
  | argumentMore =>
    match children, ih with
    | .cons list (.cons (.leaf s) (.cons a .nil)), ⟨hlist, _, ha, _⟩ =>
      intro callee frames
      obtain ⟨done, label, part, last, hread, hlast, rfl⟩ := hlist callee frames
      have hcomma : feed ⟨.arguments callee done label :: frames, part⟩ ⟨.comma, s⟩ =
          feedEnd (.arguments callee done label :: frames) last ⟨.comma, s⟩ :=
        feed_eq_feedEnd hlast rfl
      obtain ⟨label', part', e, hread', hpart', rfl⟩ := ha callee (some (_, s)) frames
      exact ⟨some (_, s), label', part', e, by simpa using (hread.snoc hcomma).append hread',
        hpart', rfl⟩
  | _ => trivial

theorem finds (e : Of τ .expression) : Finds feed expr? ({} : ExprReader τ) e := by
  obtain ⟨part, hread, hpart⟩ := follows e []
  exact ⟨⟨[], part⟩, hread, hpart⟩

/-- The arguments of an attribute up to their closing parenthesis. -/
theorem reads_arguments (list : Option (Of τ .argumentList)) (c : τ .closeParen) :
    Reads feed arguments (optionLeaves list ++ [⟨.closeParen, c⟩]) ⟨[], .closed list c⟩ := by
  cases list with
  | none => exact .one rfl
  | some list =>
    obtain ⟨done, label, part, e, hread, hpart, rfl⟩ := follows list none []
    have hclose : feed ⟨[.arguments none done label], part⟩ ⟨.closeParen, c⟩ =
        feedEnd [.arguments none done label] e ⟨.closeParen, c⟩ := feed_eq_feedEnd hpart rfl
    exact hread.snoc hclose

end ExprReader

end RowSchema.Reader
