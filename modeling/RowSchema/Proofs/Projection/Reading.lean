import RowSchema.Projection

/-! # The text of projections, read back

SQL text is read one character at a time. What stands between quotes is opaque, a doubled quote
between them stands for one, and commas outside of quotes part the items. Whatever quotes, commas
and keywords are in the names and strings of a projection, its text is read as one item for each of
its columns, in order. -/

namespace RowSchema

/-- A piece of SQL text. -/
inductive SqlToken where
  /-- what stands between double quotes -/
  | identifier (name : String)
  /-- what stands between single quotes -/
  | string (text : String)
  | comma
  /-- other characters, up to a blank, a quote or a comma -/
  | word (text : String)
deriving DecidableEq, Repr

namespace SqlToken

def isQuote (c : Char) : Bool := c == '"' || c == '\''

/-- What stands between two quotes. -/
def quoted (quote : Char) (text : List Char) : SqlToken :=
  if quote == '"' then .identifier (String.ofList text) else .string (String.ofList text)

/-- Whether a character is part of a word. -/
def isPlain (c : Char) : Bool := !isQuote c && c != ',' && !c.isWhitespace

/-- How far a token has been read. -/
inductive Reading where
  | blank
  | word (text : List Char)
  | inside (quote : Char) (text : List Char)
  /-- after a quote that is the last one, unless another one follows -/
  | closed (quote : Char) (text : List Char)

namespace Reading

/-- The first character after a token. -/
def start (c : Char) : List SqlToken × Reading :=
  if isQuote c then ([], .inside c [])
  else if c == ',' then ([.comma], .blank)
  else if c.isWhitespace then ([], .blank)
  else ([], .word [c])

/-- The tokens that are complete with the next character, and what is read then. -/
def feed (r : Reading) (c : Char) : List SqlToken × Reading :=
  match r with
  | .blank => start c
  | .word text =>
    if isPlain c then ([], .word (text ++ [c]))
    else (SqlToken.word (String.ofList text) :: (start c).1, (start c).2)
  | .inside quote text =>
    ([], if c == quote then .closed quote text else .inside quote (text ++ [c]))
  | .closed quote text =>
    if c == quote then ([], .inside quote (text ++ [c]))
    else (quoted quote text :: (start c).1, (start c).2)

/-- The token that ends with the text. A quote that is left open makes none. -/
def finish : Reading → Option (List SqlToken)
  | .blank => some []
  | .word text => some [.word (String.ofList text)]
  | .inside _ _ => none
  | .closed quote text => some [quoted quote text]

/-- The tokens of the characters that are left. -/
def tokens (r : Reading) : List Char → Option (List SqlToken)
  | [] => r.finish
  | c :: rest => ((r.feed c).2.tokens rest).map ((r.feed c).1 ++ ·)

end Reading

/-- The items of a text, each with its tokens. -/
def items (text : String) : Option (List (List SqlToken)) :=
  (Reading.blank.tokens text.toList).map fun tokens =>
    if tokens.isEmpty then [] else tokens.splitOn .comma

/-! ## Tokens in front of other text -/

/-- In front of that other text, the text is read as those tokens. -/
def Spells (s : String) (ts : List SqlToken) (after : List Char) : Prop :=
  Reading.blank.tokens (s.toList ++ after) = (Reading.blank.tokens after).map (ts ++ ·)

variable {s s' : String} {ts ts' : List SqlToken} {quote : Char} {text cs after : List Char}

theorem Spells.append (h : Spells s ts (s'.toList ++ after)) (h' : Spells s' ts' after) :
    Spells (s ++ s') (ts ++ ts') after := by
  unfold Spells at h h' ⊢
  rw [String.toList_append, List.append_assoc, h, h', Option.map_map]
  simp only [Function.comp_def, List.append_assoc]

theorem Spells.read (h : Spells s ts []) : Reading.blank.tokens s.toList = some ts := by
  unfold Spells at h
  rw [List.append_nil] at h
  simpa [Reading.tokens, Reading.finish] using h

/-- A token is complete in front of a character that does not go on with it. -/
theorem tokens_eq_map {r : Reading} {t : SqlToken} (hfinish : r.finish = some [t])
    (hfeed : ∀ c, after.head? = some c → r.feed c = (t :: (Reading.start c).1, (Reading.start c).2)) :
    r.tokens after = (Reading.blank.tokens after).map (t :: ·) := by
  cases after with
  | nil =>
    rw [Reading.tokens, hfinish]
    rfl
  | cons c rest =>
    rw [Reading.tokens, Reading.tokens, hfeed c rfl, Option.map_map]
    rfl

/-! ## Quoted text -/

/-- Doubled quotes stand for single ones up to the closing quote. -/
theorem tokens_inside :
    (Reading.inside quote text).tokens
        (cs.flatMap (fun c => if c == quote then [quote, quote] else [c]) ++ quote :: after) =
      (Reading.closed quote (text ++ cs)).tokens after := by
  induction cs generalizing text with
  | nil => simp [Reading.tokens, Reading.feed]
  | cons c cs ih =>
    rw [List.flatMap_cons, List.append_assoc, List.append_cons text c cs, ← ih]
    split
    · next hc =>
      rw [← eq_of_beq hc]
      simp [Reading.tokens, Reading.feed]
    · next hc => simp [Reading.tokens, Reading.feed, hc]

theorem spells_enclosed (hquote : isQuote quote = true) (hafter : after.head? ≠ some quote) :
    Spells (String.ofList (Text.enclosed quote cs)) [quoted quote cs] after := by
  have hclosed : (Reading.closed quote cs).tokens after =
      (Reading.blank.tokens after).map (quoted quote cs :: ·) := by
    refine tokens_eq_map rfl fun c hc => ?_
    have hne : (c == quote) = false := by
      rw [beq_eq_false_iff_ne]
      rintro rfl
      exact hafter hc
    simp [Reading.feed, hne]
  unfold Spells
  have hstart : Reading.feed .blank quote = ([], .inside quote []) := by
    simp [Reading.feed, Reading.start, hquote]
  rw [String.toList_ofList, Text.enclosed, List.cons_append, List.cons_append, List.append_assoc,
    List.singleton_append, Reading.tokens, hstart, tokens_inside, List.nil_append, hclosed,
    Option.map_map]
  rfl

theorem spells_identifier (name : String) (hafter : after.head? ≠ some '"') :
    Spells (Text.identifier name) [.identifier name] after := by
  have hspells : Spells (Text.identifier name) [quoted '"' name.toList] after :=
    spells_enclosed rfl hafter
  rwa [quoted, if_pos (beq_self_eq_true _), String.ofList_toList] at hspells

theorem spells_sqlString (text : String) (hafter : after.head? ≠ some '\'') :
    Spells (Text.sqlString text) [.string text] after := by
  have hspells : Spells (Text.sqlString text) [quoted '\'' text.toList] after :=
    spells_enclosed rfl hafter
  rwa [quoted, if_neg (by decide), String.ofList_toList] at hspells

/-! ## Words -/

theorem start_of_isPlain {c : Char} (h : isPlain c = true) :
    Reading.start c = ([], .word [c]) := by
  simp only [isPlain, Bool.and_eq_true, Bool.not_eq_true', bne_iff_ne] at h
  simp [Reading.start, h.1.1, h.1.2, h.2]

theorem tokens_word (hcs : ∀ c ∈ cs, isPlain c = true) :
    (Reading.word text).tokens (cs ++ after) = (Reading.word (text ++ cs)).tokens after := by
  induction cs generalizing text with
  | nil => simp
  | cons c cs ih =>
    obtain ⟨hc, hcs⟩ := List.forall_mem_cons.mp hcs
    simp [Reading.tokens, Reading.feed, hc, ih hcs]

theorem spells_word (hne : s.toList ≠ []) (hs : ∀ c ∈ s.toList, isPlain c = true)
    (hafter : after.head?.any isPlain = false) : Spells s [.word s] after := by
  obtain ⟨c, cs, hchars⟩ := List.exists_cons_of_ne_nil hne
  have hword : String.ofList (c :: cs) = s := by rw [← hchars, String.ofList_toList]
  rw [hchars] at hs
  obtain ⟨hc, hcs⟩ := List.forall_mem_cons.mp hs
  have hend : (Reading.word (c :: cs)).tokens after =
      (Reading.blank.tokens after).map (SqlToken.word s :: ·) := by
    refine tokens_eq_map (by rw [Reading.finish, hword]) fun d hd => ?_
    rw [hd, Option.any_some] at hafter
    simp [Reading.feed, hafter, hword]
  unfold Spells
  rw [hchars, List.cons_append, Reading.tokens, Reading.feed, start_of_isPlain hc,
    tokens_word hcs, List.singleton_append, hend, Option.map_map]
  rfl

/-- No character of a number ends a word. -/
theorem isPlain_of_isNumeric {c : Char} (h : Decimal.isNumeric c = true) : isPlain c = true := by
  have hne : c ≠ '"' ∧ c ≠ '\'' ∧ c ≠ ',' ∧ c ≠ ' ' ∧ c ≠ '\t' ∧ c ≠ '\r' ∧ c ≠ '\n' := by
    refine ⟨?_, ?_, ?_, ?_, ?_, ?_, ?_⟩ <;> (rintro rfl; revert h; decide)
  simp [isPlain, isQuote, Char.isWhitespace, hne]

end SqlToken

/-! ## Expressions -/

def SqlExpr.isRaw : SqlExpr → Bool
  | .raw _ => true
  | _ => false

/-- What an expression is read as: the names of a column, a number or the word for an absent value,
and else the string of the value's text. Raw text may be anything. -/
def SqlExpr.tokens : SqlExpr → List SqlToken
  | .raw _ => []
  | .column none name => [.identifier name]
  | .column (some table) name => [.identifier table, .word ".", .identifier name]
  | .bound .null => [.word "NULL"]
  | .bound (.bool b) => [.word (if b then "1" else "0")]
  | .bound (.int n) => [.word (toString n)]
  | .bound (.float x) => [.word (Decimal.numbers.render x)]
  | .bound (.text s) => [.string s]
  | .bound (.sql e) => [.string e.sql]
  | .bound value => [.string value.repr]

open SqlToken

theorem SqlExpr.spells {e : SqlExpr} (h : e.isRaw = false) (rest : List Char) :
    Spells e.sql e.tokens (' ' :: rest) := by
  have hblank : (' ' :: rest).head?.any isPlain = false := rfl
  have hstring (s : String) : Spells (Text.sqlString s) [.string s] (' ' :: rest) :=
    spells_sqlString s (by simp)
  have hname (s : String) : Spells (Text.identifier s) [.identifier s] (' ' :: rest) :=
    spells_identifier s (by simp)
  cases e with
  | raw => cases h
  | column table name =>
    cases table with
    | none => exact hname name
    | some table =>
      have hpoint : Spells "." [.word "."] ((Text.identifier name).toList ++ ' ' :: rest) := by
        refine spells_word (by decide) (List.all_eq_true.mp (by decide)) ?_
        simp [Text.identifier, Text.enclosed, isPlain, isQuote]
      refine Spells.append (Spells.append (spells_identifier table ?_) hpoint) (hname name)
      simp
  | bound value =>
    cases value with
    | null => exact spells_word (by decide) (List.all_eq_true.mp (by decide)) hblank
    | bool b =>
      cases b <;> exact spells_word (by decide) (List.all_eq_true.mp (by decide)) hblank
    | int n =>
      obtain ⟨hne, hnumeric⟩ := Decimal.isNumeric_toString n
      exact spells_word hne (fun c hc => isPlain_of_isNumeric (hnumeric c hc)) hblank
    | float x =>
      refine spells_word (Decimal.render_ne_empty x) (fun c hc => ?_) hblank
      exact isPlain_of_isNumeric (Decimal.isNumeric_render x c hc)
    | text s => exact hstring s
    | sql e => exact hstring e.sql
    | _ => exact hstring _

/-! ## Projections -/

/-- What a column of a projection is read as. -/
def SelectedColumn.tokens (c : SelectedColumn) : List SqlToken :=
  c.expression.tokens ++ [.word "AS", .identifier c.name]

theorem SelectedColumn.spells {c : SelectedColumn} (h : c.expression.isRaw = false)
    {after : List Char} (hafter : after.head? ≠ some '"') : Spells c.sql c.tokens after := by
  have hword : Spells " AS " [.word "AS"] ((Text.identifier c.name).toList ++ after) := by
    simp [Spells, Reading.tokens, Reading.feed, Reading.start, isQuote, isPlain, Function.comp_def]
  have hexpression := SqlExpr.spells h ("AS ".toList ++ ((Text.identifier c.name).toList ++ after))
  have hcolumn := (hexpression.append hword).append (spells_identifier c.name hafter)
  rwa [List.append_assoc] at hcolumn

theorem SqlExpr.comma_notMem (e : SqlExpr) : .comma ∉ e.tokens := by
  unfold SqlExpr.tokens
  split <;> simp

theorem SelectedColumn.comma_notMem (c : SelectedColumn) : .comma ∉ c.tokens := by
  simp [SelectedColumn.tokens, c.expression.comma_notMem]

namespace Projection

/-- Between two columns stands a comma. -/
theorem spells_columns {columns : List SelectedColumn}
    (h : ∀ c ∈ columns, c.expression.isRaw = false) (hne : columns ≠ []) :
    Spells (", ".intercalate (columns.map SelectedColumn.sql))
      ([.comma].intercalate (columns.map SelectedColumn.tokens)) [] := by
  induction columns with
  | nil => exact absurd rfl hne
  | cons c rest ih =>
    obtain ⟨hc, hrest⟩ := List.forall_mem_cons.mp h
    cases rest with
    | nil =>
      have hlast : Spells c.sql c.tokens [] := SelectedColumn.spells hc (by simp)
      simpa using hlast
    | cons c' rest =>
      have hmore := ih hrest (List.cons_ne_nil _ _)
      simp only [List.map_cons, String.intercalate_cons_cons, List.intercalate_cons_cons] at hmore ⊢
      refine Spells.append (Spells.append (SelectedColumn.spells hc (by simp)) ?_) hmore
      simp [Spells, Reading.tokens, Reading.feed, Reading.start, isQuote]

/-- The text of a projection without raw SQL has one item for each column: its expression, the word
`AS` and its alias. -/
theorem items_sql {p : Projection} (h : ∀ c ∈ p.columns, c.expression.isRaw = false) :
    SqlToken.items p.sql = some (p.columns.map SelectedColumn.tokens) := by
  obtain ⟨columns⟩ := p
  unfold SqlToken.items sql
  cases columns with
  | nil => rfl
  | cons c rest =>
    have hcommas : ∀ ts ∈ (c :: rest).map SelectedColumn.tokens, SqlToken.comma ∉ ts :=
      List.forall_mem_map.mpr fun c _ => c.comma_notMem
    have hsome : ([SqlToken.comma].intercalate ((c :: rest).map SelectedColumn.tokens)).isEmpty =
        false := by
      cases rest <;> simp [SelectedColumn.tokens, List.intercalate_cons_cons]
    rw [(spells_columns h (List.cons_ne_nil _ _)).read, Option.map_some, hsome,
      List.splitOn_intercalate SqlToken.comma hcommas (by simp)]
    rfl

/-- Quotes, commas and the word `AS` inside of names and strings are part of these. -/
theorem items_sql_quotes :
    SqlToken.items (sql ⟨[⟨"a\", \"b", .column (some "t\".\"u") "x\" AS \"y"⟩,
        ⟨"'", .bound (.text "it's, \"AS\"")⟩, ⟨"", .bound (.int (-7))⟩]⟩) =
      some [[.identifier "t\".\"u", .word ".", .identifier "x\" AS \"y", .word "AS",
          .identifier "a\", \"b"],
        [.string "it's, \"AS\"", .word "AS", .identifier "'"],
        [.word "-7", .word "AS", .identifier ""]] :=
  (items_sql (by decide)).trans (by decide)

end Projection

end RowSchema
