import RowSchema.Proofs.Schema.Absent
import RowSchema.Proofs.Schema.Complete
import RowSchema.Proofs.Selection.Arguments

/-! # Defaults of projections and of rows

A default stands in at two places: as the expression of a parameter that a call leaves out, and as
the value of a cell that is null. Unless it is an expression itself, it makes no difference which of
the two it is: the row of the one call is read like the row of the other. -/

namespace RowSchema

/-! ## Rows that are read alike -/

/-- An entry contributes the same from both. -/
structure Entry.Alike (converters : Converters) (e : Entry) (cells cells' : List Value) : Prop where
  length : (cells.length : Int) = e.width
  length' : (cells'.length : Int) = e.width
  same : ∀ policy, e.contributionOf converters policy (cells.map .ok) =
    e.contributionOf converters policy (cells'.map .ok)

section

variable {converters : Converters} {policy : DecodePolicy} {f g : Entry → List Value}

theorem Entry.Alike.refl {e : Entry} {cells : List Value} (h : (cells.length : Int) = e.width) :
    e.Alike converters cells cells :=
  ⟨h, h, fun _ => rfl⟩

/-- The cells of an entry stand between those before it and those after it. -/
theorem slice_append {before cells after : List Value} {w : Int} (h : (cells.length : Int) = w) :
    slice ((before ++ (cells ++ after)).map .ok) before.length w = cells.map .ok := by
  have hlength : (cells.map (Except.ok : Value → Cell)).length = w.toNat := by
    rw [List.length_map]
    omega
  rw [slice, List.map_append, List.map_append, List.drop_left' (List.length_map _),
    List.take_left' hlength]

/-- Entries that contribute the same one by one do so together, wherever they begin. -/
theorem Entry.contributionsOf_alike {entries : List Entry}
    (h : ∀ e ∈ entries, e.Alike converters (f e) (g e)) : ∀ before before' : List Value,
    before.length = before'.length →
    contributionsOf converters policy ((before ++ entries.flatMap f).map .ok) before.length
        entries =
      contributionsOf converters policy ((before' ++ entries.flatMap g).map .ok) before'.length
        entries := by
  induction entries with
  | nil => exact fun _ _ _ => rfl
  | cons e rest ih =>
    intro before before' hbefore
    obtain ⟨hfirst, hrest⟩ := List.forall_mem_cons.mp h
    have hlength := hfirst.length
    have hlength' := hfirst.length'
    have hmore := ih hrest (before ++ f e) (before' ++ g e)
      (by rw [List.length_append, List.length_append]; omega)
    rw [List.append_assoc, List.append_assoc, List.length_append, List.length_append] at hmore
    rw [contributionsOf, contributionsOf, List.flatMap_cons, List.flatMap_cons,
      slice_append hlength, slice_append hlength', hfirst.same policy,
      show before.length + e.width.toNat = before.length + (f e).length by omega,
      show before'.length + e.width.toNat = before'.length + (g e).length by omega, hmore]

theorem Entry.length_flatMap {entries : List Entry}
    (h : ∀ e ∈ entries, ((f e).length : Int) = e.width) :
    ((entries.flatMap f).length : Int) = totalWidth entries := by
  induction entries with
  | nil => rfl
  | cons e rest ih =>
    obtain ⟨hfirst, hrest⟩ := List.forall_mem_cons.mp h
    have hmore := ih hrest
    rw [List.flatMap_cons, List.length_append, totalWidth]
    omega

theorem Entry.flatMap_replicate {α : Type} {entries : List Entry} (hs : AllSized entries) (a : α) :
    entries.flatMap (fun e => List.replicate e.width.toNat a) =
      List.replicate (totalWidth entries).toNat a := by
  induction entries with
  | nil => rfl
  | cons e rest ih =>
    rw [AllSized] at hs
    rw [List.flatMap_cons, ih hs.2, List.replicate_append_replicate, totalWidth,
      Int.toNat_add hs.1.width_nonneg hs.2.width_nonneg]

/-- A row decodes like another one if every entry contributes the same from both. -/
theorem Catalog.decodeRow_alike {c : Catalog} (hs : c.Sized) (hc : converters.NeverMissing)
    (h : ∀ e ∈ c.entries, e.Alike converters (f e) (g e)) :
    (Group.record c).decodeRow converters policy ((c.entries.flatMap f).map some) =
      (Group.record c).decodeRow converters policy ((c.entries.flatMap g).map some) := by
  have hsized : (Group.record c).Sized := by rwa [Group.Sized]
  have hf : (((c.entries.flatMap f).map some).length : Int) = (Group.record c).width := by
    rw [List.length_map]
    exact Entry.length_flatMap fun e he => (h e he).length
  have hg : (((c.entries.flatMap g).map some).length : Int) = (Group.record c).width := by
    rw [List.length_map]
    exact Entry.length_flatMap fun e he => (h e he).length'
  have hsame : Entry.contributionsOf converters policy ((c.entries.flatMap f).map .ok) 0 c.entries =
      Entry.contributionsOf converters policy ((c.entries.flatMap g).map .ok) 0 c.entries :=
    Entry.contributionsOf_alike h [] [] rfl
  rw [hsized.decodeRow_eq hc hf, hsized.decodeRow_eq hc hg, Cursor.ofRow, Cursor.ofRow,
    Cursor.cells_map_some, Cursor.cells_map_some, Group.valueOf, Group.valueOf, Catalog.valueOf_eq,
    Catalog.valueOf_eq, hsame]

end

/-- Both rows have the same value, or fail alike, where no cells are converted. -/
def Catalog.ReadsAlike (c : Catalog) (row row' : List Value) : Prop :=
  ∀ policy, (Group.record c).decodeRow Schema.unconverted policy (row.map some) =
    (Group.record c).decodeRow Schema.unconverted policy (row'.map some)

/-! ## Defaults -/

/-- The default of a parameter has no value that is an expression itself. -/
def Parameter.IsPlain (p : Parameter) : Prop :=
  ∀ e x, p.entry.column.default = some e → e.evaluate ≠ .ok (.sql x)

theorem Parameter.exists_default {name : String} {e : Entry}
    (h : (Parameter.ofEntry name e).default.isSome = true)
    (hplain : (Parameter.ofEntry name e).IsPlain) :
    e.isGroup = false ∧ ∃ d v, e.column.default = some d ∧ d.evaluate = .ok v ∧
      (Parameter.ofEntry name e).default = some (.bound v) := by
  cases hgroup : e.isGroup with
  | true =>
    rw [Parameter.ofEntry, hgroup] at h
    cases h
  | false =>
    refine ⟨rfl, ?_⟩
    rw [Parameter.ofEntry_default, hgroup] at h
    cases hd : e.column.default with
    | none =>
      rw [hd] at h
      cases h
    | some d =>
      rw [hd] at h
      obtain ⟨v, hv⟩ := Expr.isEvaluable_iff.mp h
      refine ⟨d, v, rfl, hv, ?_⟩
      have hdefault : (Parameter.ofEntry name e).default = some (.ofValue v) := by
        simp [Parameter.ofEntry, hgroup, hd, hv, Except.toOption]
      rw [hdefault]
      cases v with
      | sql x => exact absurd hv (hplain d x hd)
      | _ => rfl

/-- A parameter that is left out is bound to its default. -/
theorem Parameter.block_left {given : Dictionary String Supplied} {p : Parameter}
    {default : SqlExpr} (hleft : given.get? p.name = none) (hdefault : p.default = some default) :
    p.block given = [default] := by
  refine (isBound_of ?_).2
  rw [boundTo, hleft, hdefault]

/-- Null is one bound expression for a column. -/
theorem Parameter.expand_null {p : Parameter} (hgroup : p.entry.isGroup = false) :
    p.expand (.value .null) = .ok [.bound .null] := by
  rw [expand, if_neg (by simp [hgroup])]
  rfl

/-- A cell with the default of its column is read like one that is null. -/
theorem Entry.alike_default {e : Entry} {d : Expr} {v : Value} (hs : e.Sized)
    (hgroup : e.isGroup = false) (hd : e.column.default = some d) (hv : d.evaluate = .ok v) :
    e.Alike Schema.unconverted [v] [.null] := by
  have hwidth := hs.width_eq_one hgroup
  refine ⟨hwidth.symm, hwidth.symm, fun policy => ?_⟩
  obtain ⟨column, members⟩ := e
  obtain rfl : members = none := by simpa [Entry.isGroup] using hgroup
  have hnull : column.settle .null [column.name] = .ok (.field column.field v) := by
    have hd : column.default = some d := hd
    simp [Column.settle, Value.isNull, hd, hv]
  rw [List.map_singleton, List.map_singleton, Entry.contributionOf, Entry.contributionOf,
    Column.valueOf_unconverted, Column.valueOf_unconverted]
  change column.settle v [column.name] = column.settle .null [column.name]
  rw [hnull]
  cases hv : v.isNull with
  | true =>
    rw [Value.isNull_iff.mp hv] at hnull ⊢
    exact hnull
  | false =>
    rw [Column.settle, hv]
    rfl

/-! ## Rows of projections -/

/-- The value that an expression binds. -/
def SqlExpr.value : SqlExpr → Value
  | .bound v => v
  | _ => .null

theorem SqlExpr.map_value (row : List Value) : (row.map SqlExpr.bound).map SqlExpr.value = row := by
  rw [List.map_map]
  exact List.map_id _

theorem SqlExpr.map_bound {expressions : List SqlExpr}
    (h : ∀ x ∈ expressions, ∃ v, x = .bound v) :
    (expressions.map SqlExpr.value).map SqlExpr.bound = expressions := by
  rw [List.map_map]
  refine (List.map_congr_left fun x hx => ?_).trans (List.map_id _)
  obtain ⟨v, rfl⟩ := h x hx
  rfl

/-- The values that a call gives to the cells of an entry. -/
def Entry.boundCells (given : Dictionary String Supplied) (e : Entry) : List Value :=
  ((Parameter.ofEntry e.column.field e).block given).map SqlExpr.value

namespace Catalog

variable {c : Catalog}

theorem flatMap_parameters (c : Catalog) (given : Dictionary String Supplied) :
    (c.parameters.flatMap (Parameter.block given)).map SqlExpr.value =
      c.entries.flatMap (Entry.boundCells given) := by
  rw [parameters, List.flatMap_map, List.map_flatMap]
  rfl

/-- Parameters that are bound to values make up the cells of the row. -/
theorem expressions_eq_map_bound {given : Dictionary String Supplied} {projection : Projection}
    (hexpressions : projection.expressions = c.parameters.flatMap (Parameter.block given))
    (hvalues : ∀ p ∈ c.parameters, ∀ x ∈ p.block given, ∃ v, x = .bound v) :
    projection.expressions = (c.entries.flatMap (Entry.boundCells given)).map .bound := by
  rw [← flatMap_parameters, ← hexpressions, SqlExpr.map_bound]
  intro x hx
  rw [hexpressions] at hx
  obtain ⟨p, hp, hx⟩ := List.mem_flatMap.mp hx
  exact hvalues p hp x hx

theorem length_boundCells (hs : c.Sized) {given : Dictionary String Supplied}
    (hbound : ∀ p ∈ c.parameters, p.IsBound given) {e : Entry} (he : e ∈ c.entries) :
    ((e.boundCells given).length : Int) = e.width := by
  rw [Entry.boundCells, List.length_map]
  exact Parameter.length_boundTo (Parameter.ofEntry_fits _ (sized_iff.mp hs e he))
    (hbound _ (List.mem_map_of_mem he))

/-- Passing null for a parameter with a default is read like leaving it out. -/
theorem decodeRow_nulls (hs : c.Sized) (hnames : (c.parameters.map (·.name)).Nodup)
    {p : Parameter} (hp : p ∈ c.parameters) (hdefault : p.default.isSome = true)
    (hplain : p.IsPlain) {leaving passing : Supplies}
    (hnulls : Supplies.Nulls (c.parameters.map (·.name)) p.name leaving passing)
    {left passed : Projection} (hleft : c.select leaving = .ok left)
    (hpassed : c.select passing = .ok passed) {row : List Value}
    (hrow : left.expressions = row.map .bound) :
    ∃ row' : List Value, passed.expressions = row'.map .bound ∧ c.ReadsAlike row row' := by
  obtain ⟨given, hgiven, hbound, hexpressions⟩ := select_eq_ok hs hnames hleft
  obtain ⟨given', hgiven', hbound', hexpressions'⟩ := select_eq_ok hs hnames hpassed
  obtain ⟨e, he, rfl⟩ := List.mem_map.mp hp
  obtain ⟨hgroup, d, v, hd, hv, hvalue⟩ := Parameter.exists_default hdefault hplain
  -- the blocks of the parameter itself
  have hown : (Parameter.ofEntry e.column.field e).block given = [.bound v] :=
    Parameter.block_left ((hgiven _).trans hnulls.left) hvalue
  have hown' : (Parameter.ofEntry e.column.field e).block given' = [.bound .null] := by
    refine (Parameter.isBound_of ?_).2
    rw [Parameter.boundTo, (hgiven' _).trans hnulls.passed]
    exact map_eq_ok.mpr ⟨[.bound .null], Parameter.expand_null hgroup, rfl⟩
  have hothers : ∀ q ∈ c.parameters, q ≠ Parameter.ofEntry e.column.field e →
      q.block given = q.block given' := by
    intro q hq hne
    refine Parameter.block_congr ?_
    rw [hgiven, hgiven', hnulls.others q.name fun hname =>
      hne (List.inj_on_of_nodup_map hnames hq hp hname)]
  refine ⟨c.entries.flatMap (Entry.boundCells given'),
    expressions_eq_map_bound hexpressions' fun q hq x hx => ?_, fun policy => ?_⟩
  -- the second call binds null, and else only what the first one binds
  · by_cases hqp : q = Parameter.ofEntry e.column.field e
    · rw [hqp, hown'] at hx
      exact ⟨.null, List.mem_singleton.mp hx⟩
    · rw [← hothers q hq hqp] at hx
      have hmem : x ∈ left.expressions := by
        rw [hexpressions]
        exact List.mem_flatMap.mpr ⟨q, hq, hx⟩
      rw [hrow] at hmem
      obtain ⟨w, -, rfl⟩ := List.mem_map.mp hmem
      exact ⟨w, rfl⟩
  -- both rows have the same cells but for the entry of the parameter
  · have hcells : row = c.entries.flatMap (Entry.boundCells given) := by
      rw [← flatMap_parameters, ← hexpressions, hrow, SqlExpr.map_value]
    rw [hcells]
    refine decodeRow_alike hs Schema.unconverted_neverMissing fun e' he' => ?_
    by_cases hsame : Parameter.ofEntry e'.column.field e' = Parameter.ofEntry e.column.field e
    · obtain rfl : e' = e := congrArg Parameter.entry hsame
      rw [Entry.boundCells, Entry.boundCells, hown, hown']
      exact Entry.alike_default (sized_iff.mp hs e' he) hgroup hd hv
    · have heq : e'.boundCells given = e'.boundCells given' :=
        congrArg (List.map SqlExpr.value) (hothers _ (List.mem_map_of_mem he') hsame)
      rw [← heq]
      exact Entry.Alike.refl (length_boundCells hs hbound he')

/-- The row of all defaults is read like the row of nulls. -/
theorem decodeRow_defaults (hs : c.Sized) (hnames : (c.parameters.map (·.name)).Nodup)
    (hdefault : ∀ p ∈ c.parameters, p.default.isSome = true)
    (hplain : ∀ p ∈ c.parameters, p.IsPlain) :
    ∃ projection, ∃ row : List Value, c.select {} = .ok projection ∧
      projection.expressions = row.map .bound ∧
      c.ReadsAlike row (List.replicate c.width.toNat .null) := by
  obtain ⟨projection, hselect⟩ := exists_select_defaults hdefault
  obtain ⟨given, hgiven, -, hexpressions⟩ := select_eq_ok hs hnames hselect
  have hown : ∀ e ∈ c.entries, e.isGroup = false ∧ ∃ d v, e.column.default = some d ∧
      d.evaluate = .ok v ∧ (Parameter.ofEntry e.column.field e).block given = [.bound v] := by
    intro e he
    have hp : Parameter.ofEntry e.column.field e ∈ c.parameters := List.mem_map_of_mem he
    obtain ⟨hgroup, d, v, hd, hv, hvalue⟩ :=
      Parameter.exists_default (hdefault _ hp) (hplain _ hp)
    have hleft : given.get? e.column.field = none := by
      rw [hgiven, Supplies.argument?, List.zip_nil_right]
      rfl
    exact ⟨hgroup, d, v, hd, hv, Parameter.block_left hleft hvalue⟩
  refine ⟨projection, c.entries.flatMap (Entry.boundCells given), hselect,
    expressions_eq_map_bound hexpressions fun p hp x hx => ?_, fun policy => ?_⟩
  · obtain ⟨e, he, rfl⟩ := List.mem_map.mp hp
    obtain ⟨-, -, v, -, -, hblock⟩ := hown e he
    rw [hblock] at hx
    exact ⟨v, List.mem_singleton.mp hx⟩
  · have hnulls : c.entries.flatMap (fun e => List.replicate e.width.toNat Value.null) =
        List.replicate c.width.toNat .null :=
      Entry.flatMap_replicate (Entry.allSized_iff.mpr (sized_iff.mp hs)) _
    rw [← hnulls]
    refine decodeRow_alike hs Schema.unconverted_neverMissing fun e he => ?_
    obtain ⟨hgroup, d, v, hd, hv, hblock⟩ := hown e he
    have hsized := sized_iff.mp hs e he
    rw [Entry.boundCells, hblock, hsized.width_eq_one hgroup]
    exact Entry.alike_default hsized hgroup hd hv

end Catalog

namespace Schema

variable {s : Schema} {reference : Reference} {x : Derived} {c : Catalog}

/-- In a struct whose fields have different names, take a parameter with a default that is no
expression itself. Whatever literals are given for the others, the row of a projection that leaves
out the parameter decodes like the row of one that has null for it, and null may be passed wherever
the parameter is left out. If there is such a default for every parameter, the row of all defaults
decodes like the row of nulls. -/
theorem Yields.defaults_as_nulls (hs : s.Reachable) (hx : s.Yields reference x)
    (hc : x.catalog = .record c) (hnames : (x.record.fields.map (·.name)).Nodup) :
    (∀ p ∈ c.parameters, p.default.isSome = true → p.IsPlain → ∀ leaving left,
        c.select leaving = .ok left →
      (∀ passing passed, c.select passing = .ok passed →
        Supplies.Nulls (c.parameters.map (·.name)) p.name leaving passing →
        ∀ row : List Value, left.expressions = row.map .bound →
        ∃ row' : List Value, passed.expressions = row'.map .bound ∧ c.ReadsAlike row row') ∧
      (leaving.argument? (c.parameters.map (·.name)) p.name = none → p.name ≠ "self" →
        ∃ passing passed, c.select passing = .ok passed ∧
          Supplies.Nulls (c.parameters.map (·.name)) p.name leaving passing)) ∧
    ((∀ p ∈ c.parameters, p.default.isSome = true ∧ p.IsPlain) →
      ∃ projection, ∃ row : List Value, c.select {} = .ok projection ∧
        projection.expressions = row.map .bound ∧
        c.ReadsAlike row (List.replicate c.width.toNat .null)) := by
  have hsized : c.Sized := by
    have hcatalog := (hs.sized hx).catalog
    rwa [hc, Group.Sized] at hcatalog
  have hfields := (hs.results (P := fun x => ∀ c, x.catalog = .record c →
    c.entries.map (·.column.field) = (x.record.fields.filter Field.isStored).map (·.name))
    fun _ _ _ _ h c hc => (h.complete.struct c hc).2.2).2 reference x hx c hc
  have hdistinct : (c.parameters.map (·.name)).Nodup := by
    rw [Catalog.parameters, List.map_map]
    exact hfields ▸ hnames.sublist (List.filter_sublist.map _)
  refine ⟨fun p hp hdefault hplain leaving left hleft => ⟨?_, fun hout hself => ?_⟩, fun hall => ?_⟩
  · intro passing passed hpassed hnulls row hrow
    exact Catalog.decodeRow_nulls hsized hdistinct hp hdefault hplain hnulls hleft hpassed hrow
  · obtain ⟨e, he, rfl⟩ := List.mem_map.mp hp
    obtain ⟨hgroup, -⟩ := Parameter.exists_default hdefault hplain
    obtain ⟨passed, hpassed⟩ := Catalog.exists_select_withNamed hdistinct hleft hp hself hout
      (Parameter.expand_null hgroup)
    exact ⟨_, passed, hpassed, Supplies.nulls_withNamed hout⟩
  · exact Catalog.decodeRow_defaults hsized hdistinct (fun p hp => (hall p hp).1)
      fun p hp => (hall p hp).2

/-- A badge has a place and a size, which is 3 unless it is given. -/
def badgeRecord : Record where
  name := "Badge"
  attributes := [{ name := "Table" }]
  fields := [
    { name := "place", type := some { name := "Point" }, attributes := [{ name := "Columns" }] },
    { name := "size", type := some .integer, default := some (.integer 3) }]

/-- A style has nothing that must be given. -/
def styleRecord : Record where
  name := "Style"
  attributes := [{ name := "Table" }]
  fields := [
    { name := "size", type := some .integer, default := some (.integer 3) },
    { name := "font", type := some { name := "String", isOptional := true }
      default := some (.string "serif") }]

def badges : Schema := (Schema.registerAll {} [pointRecord, badgeRecord, styleRecord]).1

theorem badges_reachable : badges.Reachable := (Reachable.empty {}).registerAll _

def sizeEntry : Entry where
  column := { name := "size", field := "size", type := some .integer
              default := some (.integer 3) }

def badgeCatalog : Catalog where
  typeName := "Badge"
  entries := [
    { column := { name := "place", field := "place", type := some { name := "Point" }, width := 2 }
      members := some (.record {
        typeName := "Point"
        entries := [
          { column := { name := "x", field := "x", type := some .integer } },
          { column := { name := "y", field := "y", type := some .integer } }] }) },
    sizeEntry]
  table := some "badges"

def styleCatalog : Catalog where
  typeName := "Style"
  entries := [
    sizeEntry,
    { column := { name := "font", field := "font"
                  type := some { name := "String", isOptional := true }
                  default := some (.string "serif") } }]
  table := some "styles"

/-- A badge without a size is read like one whose size is null, and the style of all defaults like
that of nulls. -/
theorem defaults_as_nulls_badge :
    badgeCatalog.ReadsAlike [.int 1, .int 2, .int 3] [.int 1, .int 2, .null] ∧
      styleCatalog.ReadsAlike [.int 3, .text "serif"] [.null, .null] := by
  have hbadge : badges.Yields (.name "Badge")
      { record := badgeRecord, catalog := .record badgeCatalog, policy := .failFast } :=
    ⟨_, _, rfl, rfl⟩
  have hstyle : badges.Yields (.name "Style")
      { record := styleRecord, catalog := .record styleCatalog, policy := .failFast } :=
    ⟨_, _, rfl, rfl⟩
  have hinjective : Function.Injective (List.map SqlExpr.bound) :=
    List.map_injective_iff.mpr fun _ _ => SqlExpr.bound.inj
  have hsize : (Parameter.ofEntry "size" sizeEntry).IsPlain := by
    rintro _ x ⟨⟩ ⟨⟩
  obtain ⟨hleft, -⟩ := Yields.defaults_as_nulls badges_reachable hbadge rfl (by decide)
  obtain ⟨-, hall⟩ := Yields.defaults_as_nulls badges_reachable hstyle rfl (by decide)
  constructor
  · obtain ⟨hread, -⟩ := hleft (.ofEntry "size" sizeEntry)
      (List.mem_cons_of_mem _ List.mem_cons_self) rfl hsize
      { named := [("place", .value (.list [.int 1, .int 2]))] } _ rfl
    obtain ⟨row', hrow', halike⟩ := hread _ _ rfl (Supplies.nulls_withNamed rfl)
      [.int 1, .int 2, .int 3] rfl
    obtain rfl : [.int 1, .int 2, .null] = row' := hinjective hrow'
    exact halike
  · have hplain : ∀ p ∈ styleCatalog.parameters, p.default.isSome = true ∧ p.IsPlain :=
      List.forall_mem_cons.mpr ⟨⟨rfl, hsize⟩,
        List.forall_mem_cons.mpr ⟨⟨rfl, by rintro _ x ⟨⟩ ⟨⟩⟩, List.forall_mem_nil _⟩⟩
    obtain ⟨projection, row, hselect, hrow, halike⟩ := hall hplain
    cases hselect
    obtain rfl : [.int 3, .text "serif"] = row := hinjective hrow
    exact halike

/-- The line of a frame is a bound expression unless it is given. -/
def frameRecord : Record where
  name := "Frame"
  attributes := [{ name := "Selection" }]
  fields := [
    { name := "line", type := some .integer
      default := some (.constant (.sql (.bound (.int 5)))) }]

/-- A default that is an expression itself is read as its value if the parameter is left out, but
stands in as the expression for a null. -/
theorem not_defaults_as_nulls : ¬ ∀ (s : Schema) (reference : Reference) (x : Derived)
    (c : Catalog), s.Reachable → s.Yields reference x → x.catalog = .record c →
    (x.record.fields.map (·.name)).Nodup → ∀ p ∈ c.parameters, p.default.isSome = true →
    ∀ leaving left passing passed, c.select leaving = .ok left → c.select passing = .ok passed →
    Supplies.Nulls (c.parameters.map (·.name)) p.name leaving passing →
    ∀ row row' : List Value, left.expressions = row.map .bound →
      passed.expressions = row'.map .bound → c.ReadsAlike row row' := by
  intro h
  have halike := h (Schema.registerAll {} [frameRecord]).1 (.name "Frame") _ _
    ((Reachable.empty {}).registerAll _) ⟨_, _, rfl, rfl⟩ rfl (by decide) _ List.mem_cons_self rfl
    {} _ _ _ rfl rfl (Supplies.nulls_withNamed rfl) [.int 5] [.null] rfl rfl
  have hsame : (.ok (.ofFields [("line", .int 5)]) : Except DecodeError Value) =
      .ok (.ofFields [("line", .sql (.bound (.int 5)))]) := halike .failFast
  simp [Value.ofFields] at hsame

end Schema

end RowSchema
