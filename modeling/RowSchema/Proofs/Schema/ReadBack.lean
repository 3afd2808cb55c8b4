import RowSchema.Proofs.Schema.Cases
import RowSchema.Proofs.Selection.Bound

/-! # Reading back a selected case

The selection of an enum lays out the cells of one case among nulls for all the others, and a decode
looks for the first case that has a value. So another case is read in place of the one that was
selected if it comes before it and has a value even in nulls. -/

namespace RowSchema

/-- Values are decoded alike wherever they stand. -/
theorem CaseEntry.decode_values {k : CaseEntry} (hs : k.Sized) {converters : Converters}
    (hc : converters.NeverMissing) {policy : DecodePolicy} {values : List Value}
    (hvalues : (values.length : Int) = k.width) (position : Nat) :
    (k.decode converters policy ⟨position, values.map some⟩).1 =
      k.valueOf converters policy (values.map .ok) := by
  have hroom : k.width ≤ (Cursor.mk position (values.map some)).remaining := by
    rw [← hvalues]
    simp [Cursor.remaining]
  rw [CaseEntry.decode_eq_valueOf hc k _ hs hroom, Cursor.cells_map_some, ← hvalues,
    List.take_of_length_le]
  simp

/-! ## Literal arguments -/

/-- The argument gives literal cells to the entry: one value that is not null to a plain column,
as many as it has columns to a group. -/
inductive Entry.Literal (e : Entry) : Supplied → List Value → Prop
  | plain {argument cell : Value} (plain : e.isGroup = false)
      (literal : SqlExpr.ofValue argument = .bound cell) (present : cell.isNull = false) :
      Literal e (.value argument) [cell]
  | list {items cells : List Value} (group : e.isGroup = true)
      (literal : items.map SqlExpr.ofValue = cells.map .bound)
      (width : (cells.length : Int) = e.width) : Literal e (.value (.list items)) cells
  | tuple {items cells : List Value} (group : e.isGroup = true)
      (literal : items.map SqlExpr.ofValue = cells.map .bound)
      (width : (cells.length : Int) = e.width) : Literal e (.value (.tuple items)) cells
  | projection {p : Projection} {cells : List Value} (group : e.isGroup = true)
      (literal : p.expressions = cells.map .bound)
      (width : (cells.length : Int) = e.width) : Literal e (.projection p) cells

namespace Entry.Literal

variable {e : Entry} {argument : Supplied} {cells : List Value}

theorem length_eq (h : e.Literal argument cells) (hs : e.Sized) :
    (cells.length : Int) = e.width := by
  cases h with
  | plain plain => exact (hs.width_eq_one plain).symm
  | list _ _ width | tuple _ _ width | projection _ _ width => exact width

/-- A parameter for the entry is expanded to these cells. -/
theorem expand (h : e.Literal argument cells) (name : String) :
    (Parameter.ofEntry name e).expand argument = .ok (cells.map .bound) := by
  cases h with
  | plain plain literal present =>
    have hplain : (Parameter.ofEntry name e).entry.isGroup = false := plain
    simp [Parameter.expand, hplain, literal]
  | list group literal width | tuple group literal width | projection group literal width =>
    have hgroup : (Parameter.ofEntry name e).entry.isGroup = true := group
    simp only [Parameter.expand, hgroup, if_true]
    refine Parameter.checkWidth_eq_ok.mpr ⟨literal.symm, ?_⟩
    rwa [literal, List.length_map]

end Entry.Literal

namespace EnumCatalog

variable {c : EnumCatalog} {k : CaseEntry} {e : Entry} {argument : Supplied}
  {cells : List Value} {i : Nat} {policy : DecodePolicy}

theorem Distinct.selected (hd : c.Distinct) (hk : k ∈ c.cases) : c.selected k.name = .ok k := by
  unfold EnumCatalog.selected case?
  cases hfind : c.cases.find? (·.name == k.name) with
  | none =>
    have := List.find?_eq_none.mp hfind k hk
    simp at this
  | some other =>
    have hname : other.name = k.name := by simpa using List.find?_some hfind
    rw [List.inj_on_of_nodup_map hd (List.mem_of_find?_eq_some hfind) hk hname]

/-- The one parameter of a case takes the one argument of a call. -/
theorem bindArguments_literal (target : String) (he : k.payload = some e)
    (harg : e.Literal argument cells) :
    bindArguments target k.parameters { positional := [argument] } =
      .ok (cells.map .bound) := by
  obtain ⟨name, label, payload⟩ := k
  obtain rfl : payload = some e := he
  exact bindArguments_singleton (harg.expand _)

theorem spread_map {α β : Type} (f : α → β) (null : α) (name : String) (cells : List α) :
    c.spread (f null) name (cells.map f) = (c.spread null name cells).map f := by
  unfold spread
  rw [List.map_flatMap]
  congr 1
  funext other
  split
  · rfl
  · rw [List.map_replicate]

/-- Selecting a case binds the cells of its argument and nulls for all other cells. -/
theorem bound_literal (hd : c.Distinct) (hk : k ∈ c.cases) (he : k.payload = some e)
    (harg : e.Literal argument cells) :
    c.bound k.name { positional := [argument] } =
      .ok ((c.spread .null k.name cells).map .bound) := by
  rw [← spread_map]
  refine bind_eq_ok.mpr ⟨(), rfl, bind_eq_ok.mpr ⟨k, hd.selected hk, bind_eq_ok.mpr ?_⟩⟩
  exact ⟨_, bindArguments_literal _ he harg, rfl⟩

/-! ## Rows of one case -/

/-- What each case has on its own if case number `i` is given these cells, and every other case
nulls. -/
def alternatives (c : EnumCatalog) (policy : DecodePolicy) (i : Nat) (cells : List Value) :
    Outcomes := fun j =>
  c.cases[j]?.map fun k => (k.decode Schema.unconverted policy (.ofRow
    ((if j = i then cells else List.replicate k.width.toNat .null).map some))).1

/-- In the row of a case its own cells are those given, and those of any other case are null. -/
theorem alone_spread (hs : c.Sized) (hd : c.Distinct) (hk : c.cases[i]? = some k)
    (hcells : (cells.length : Int) = k.width) :
    c.alone Schema.unconverted policy ((c.spread .null k.name cells).map some) =
      c.alternatives policy i cells := by
  have hc := Schema.unconverted_neverMissing
  have hlength := hd.length_slice Value.null (List.mem_of_getElem? hk) hcells
  funext j
  unfold alone alternatives
  cases hj : c.cases[j]? with
  | none => rfl
  | some other =>
    have hother := sized_iff.mp hs other (List.mem_of_getElem? hj)
    have hnonneg := hother.width_nonneg
    have hslice := CaseEntry.slice_flatMap hlength hj
    have hgiven := hlength other (List.mem_of_getElem? hj)
    simp only [hd.name_beq hj hk, decide_eq_true_eq] at hslice hgiven
    simp only [Option.map_some]
    rw [Cursor.ofRow, Cursor.skip, Cursor.only, ← List.map_drop, ← List.map_take, spread, hslice,
      Cursor.ofRow, CaseEntry.decode_values hother hc (by omega),
      CaseEntry.decode_values hother hc (by omega)]

/-- A case with a plain column has the value that it was given. -/
theorem alternatives_plain (hk : c.cases[i]? = some k) (he : k.payload = some e)
    (hplain : e.isGroup = false) {cell : Value} (hpresent : cell.isNull = false) :
    c.alternatives policy i [cell] i = some (.ok (some cell)) := by
  obtain ⟨name, label, payload⟩ := k
  obtain rfl : payload = some e := he
  obtain ⟨column, members⟩ := e
  cases members with
  | some g => cases hplain
  | none =>
    simp [alternatives, hk, CaseEntry.decode, Column.read, readCell, Cursor.ofRow, convert,
      Schema.unconverted, hpresent]

end EnumCatalog

namespace Schema

variable {s : Schema} {c : EnumCatalog}

/-- A case is selected with any literal argument. If the row of the selection has a value, then this
is of the first case that has one, where the selected case is given its own cells and every other one
nulls. So the selected case itself is read, if it has a value, as it always has with a plain column,
and none of the cases before it accepts nulls. -/
theorem Plan.reads_first_accepting (hs : s.Reachable) (hg : s.Plan (.enum c)) {i : Nat}
    {k : CaseEntry} {e : Entry} (hk : c.cases[i]? = some k) (he : k.payload = some e)
    {argument : Supplied} {cells : List Value} (harg : e.Literal argument cells) :
    ∃ p, ∃ row : List Value, c.select k.name { positional := [argument] } = .ok p ∧
      p.expressions = row.map .bound ∧
      ∀ policy w, (Group.enum c).decodeRow unconverted policy (row.map some) = .ok w →
        ∃ j k' v, c.cases[j]? = some k' ∧ w = c.make k'.name v ∧
          c.Decodes unconverted policy (row.map some) j v ∧
          FirstMatch (c.alternatives policy i cells) j v ∧
          ((∀ j' < i, ∀ v', c.alternatives policy i cells j' ≠ some (.ok (some v'))) →
            (e.isGroup = false ∨ ∃ v', c.alternatives policy i cells i = some (.ok (some v'))) →
            j = i) := by
  have hsized : c.Sized := hg.sized hs
  have hdistinct := hg.distinct hs
  have hmem := List.mem_of_getElem? hk
  have hcells : (cells.length : Int) = k.width := by
    have hentry := EnumCatalog.sized_iff.mp hsized k hmem
    obtain ⟨name, label, payload⟩ := k
    obtain rfl : payload = some e := he
    rw [CaseEntry.Sized] at hentry
    exact harg.length_eq hentry
  have hrow := EnumCatalog.length_spread Value.null hsized hdistinct hmem hcells
  have hleaves : c.width = c.leaves.length := (hg.sized hs).width_eq
  have hselect := c.select_eq k.name { positional := [argument] }
  rw [EnumCatalog.bound_literal hdistinct hmem he harg] at hselect
  refine ⟨_, c.spread .null k.name cells, hselect, ?_, fun policy w hw => ?_⟩
  · refine Projection.expressions_ofExpressions ?_
    rw [List.length_map, length_aliasesOf]
    omega
  · have hwide : (((c.spread .null k.name cells).map some).length : Int) = c.width := by
      rwa [List.length_map]
    obtain ⟨j, k', v, hk', hdecodes, rfl⟩ :=
      (EnumCatalog.decodeRow_eq_make unconverted_neverMissing hsized hdistinct hwide).mp hw
    obtain ⟨hmatch, -⟩ :=
      (EnumCatalog.decodes_iff unconverted_neverMissing hsized hdistinct hwide).mp hdecodes
    rw [EnumCatalog.alone_spread hsized hdistinct hk hcells] at hmatch
    refine ⟨j, k', v, hk', rfl, hdecodes, hmatch, fun hearlier hown => ?_⟩
    obtain ⟨v', hv'⟩ : ∃ v', c.alternatives policy i cells i = some (.ok (some v')) := by
      refine hown.elim (fun hplain => ?_) id
      cases harg with
      | plain _ _ hpresent => exact ⟨_, EnumCatalog.alternatives_plain hk he hplain hpresent⟩
      | list hgroup | tuple hgroup | projection hgroup =>
        rw [hplain] at hgroup
        cases hgroup
    exact hmatch.eq_of_present hv' hearlier

/-- A post that is selected with a point is read back with it. -/
theorem reads_spot :
    ∃ p, postsCatalog.select "spot" { positional := [.value (.list [.int 1, .int 2])] } = .ok p ∧
      p.expressions = [.null, .bound (.int 1), .bound (.int 2), .null] ∧
      postsCatalog.Decodes unconverted .failFast
        [some .null, some (.int 1), some (.int 2), some .null] 1
        (.ofFields [("x", .int 1), ("y", .int 2)]) := by
  obtain ⟨p, row, hselect, hexpressions, hread⟩ :=
    Plan.reads_first_accepting posts_reachable plan_posts (i := 1) rfl rfl
      (.list rfl rfl rfl : Entry.Literal _ (.value (.list [.int 1, .int 2])) [.int 1, .int 2])
  have hcells : row.map SqlExpr.bound = [.null, .bound (.int 1), .bound (.int 2), .null] := by
    rw [← hexpressions]
    cases hselect
    rfl
  obtain rfl : row = [.null, .int 1, .int 2, .null] :=
    List.map_injective_iff.mpr (fun _ _ => SqlExpr.bound.inj) hcells
  obtain ⟨j, -, v, -, -, hdecodes, hmatch, hown⟩ := hread .failFast _ rfl
  obtain rfl : j = 1 := by
    refine hown ?_ (.inr ⟨_, rfl⟩)
    intro j' hj' v'
    obtain rfl : j' = 0 := by omega
    rintro ⟨⟩
  cases hmatch.present
  exact ⟨p, hselect, hexpressions, hdecodes⟩

end Schema

end RowSchema
