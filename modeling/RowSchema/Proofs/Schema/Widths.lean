import Mathlib
import RowSchema.Proofs.Schema.Parts
import RowSchema.Proofs.Schema.Rows
import RowSchema.Proofs.Selection.Bound

/-! # The width of a plan

A width is stated by the catalog, added up from its entries, counted in its leaves, in the cells of
its rows, in its aliases, and in the expressions that its selection binds. In a plan of a schema all
of these are one number. -/

namespace RowSchema

/-- Every notion of width gives `n`. -/
structure Group.HasWidth (g : Group) (n : Nat) : Prop where
  width : g.width = n
  leaves : g.leaves.length = n
  /-- the entries are the steps of a decode -/
  entries : (g.entries.map (·.width)).sum = n
  /-- a row is decoded if it has `n` cells, and refused otherwise -/
  rows : ∀ (converters : Converters) (policy : DecodePolicy) (row : List (Option Value)),
    g.decodeRow converters policy row =
      if row.length = n then (g.decode converters policy (.ofRow row)).1
      else .error (.wrongWidth g.typeName n row.length)
  aliases : (aliasesOf g.leaves).length = n
  columns : ∀ qualifier : Option String,
    (Projection.ofTable g.leaves g.table qualifier).columns.length = n
  bound : ∀ (case : Option String) (supplies : Supplies) (expressions : List SqlExpr),
    g.bound case supplies = .ok expressions → expressions.length = n
  /-- none of the aliases and expressions is lost -/
  selected : ∀ (case : Option String) (supplies : Supplies) (p : Projection),
    g.select case supplies = .ok p →
      p.aliases = aliasesOf g.leaves ∧ g.bound case supplies = .ok p.expressions

theorem Entry.totalWidth_eq_sum (entries : List Entry) :
    Entry.totalWidth entries = (entries.map (·.width)).sum := by
  induction entries with
  | nil => rfl
  | cons e rest ih => rw [Entry.totalWidth, List.map_cons, List.sum_cons, ih]

/-- The entries of an enum are as wide as its cases. -/
theorem CaseEntry.totalWidth_eq_sum (cases : List CaseEntry) :
    CaseEntry.totalWidth cases =
      ((cases.filterMap fun k => k.payload.map Entry.nullable).map (·.width)).sum := by
  induction cases with
  | nil => rfl
  | cons k rest ih =>
    obtain ⟨name, label, payload⟩ := k
    rw [CaseEntry.totalWidth, ih]
    cases payload with
    | none => simp [CaseEntry.width]
    | some e => simp [CaseEntry.width, Entry.width, Entry.nullable, Column.nullable]

theorem Group.width_eq_sum (g : Group) : g.width = (g.entries.map (·.width)).sum := by
  cases g with
  | record c => exact Entry.totalWidth_eq_sum c.entries
  | enum c => exact CaseEntry.totalWidth_eq_sum c.cases

/-- The widths of a sized catalog agree. -/
theorem Group.Sized.hasWidth {g : Group} (hs : g.Sized)
    (hd : ∀ c, g = .enum c → c.Distinct) : g.HasWidth g.leaves.length := by
  have hwidth := hs.width_eq
  have hbound : ∀ case supplies expressions, g.bound case supplies = .ok expressions →
      expressions.length = g.leaves.length := by
    intro case supplies expressions h
    have := Group.length_bound hs hd h
    omega
  refine ⟨hwidth, rfl, g.width_eq_sum ▸ hwidth, ?_, length_aliasesOf _, ?_, hbound, ?_⟩
  · intro converters policy row
    rw [Group.decodeRow, hwidth]
    by_cases hrow : row.length = g.leaves.length
    · rw [if_pos hrow, if_pos (by simp [hrow])]
    · rw [if_neg hrow, if_neg (by simpa [Int.natCast_inj] using hrow)]
  · intro qualifier
    rw [Projection.ofTable, Projection.length_columns_ofExpressions (by simp), length_aliasesOf]
  · intro case supplies p h
    rw [Group.select_eq] at h
    obtain ⟨expressions, hexpressions, rfl⟩ := map_eq_ok.mp h
    have hlength : expressions.length = (aliasesOf g.leaves).length := by
      rw [hbound _ _ _ hexpressions, length_aliasesOf]
    rw [Projection.aliases_ofExpressions hlength, Projection.expressions_ofExpressions hlength]
    exact ⟨rfl, hexpressions⟩

namespace Schema

variable {s : Schema} {g : Group}

/-- In every plan, be it of a result, of a draft or of one of their groups, all widths are the
number of leaves. -/
theorem Plan.widths_agree (hs : s.Reachable) (hg : s.Plan g) : g.HasWidth g.leaves.length := by
  refine (hg.sized hs).hasWidth ?_
  rintro c rfl
  exact hg.distinct hs

/-- A shape takes up the two columns of its centre and one more. -/
theorem widths_shape : (shapesCatalog shapeRecord).HasWidth 3 :=
  Plan.widths_agree shapes_reachable plan_shape

end Schema

end RowSchema
