import Mathlib.Data.List.Find
import RowSchema.Proofs.Schema.Names

/-! # Looking entries up

An entry answers to the name of its column and to that of its field, and of several entries that
answer the first one is found. The columns of a struct are named differently, but one may have the
name of another entry's field, where that entry's column was given a name of its own. Then the
later one of the two entries is not found under the name of its column. -/

namespace RowSchema

namespace Catalog

variable {c : Catalog} {e e' : Entry} {i : Nat} (hnodup : (c.entries.map (·.column.name)).Nodup)

/-- The entry between those in front of it and those behind it. -/
theorem entries_eq_append (he : c.entries[i]? = some e) :
    c.entries = c.entries.take i ++ e :: c.entries.drop (i + 1) := by
  obtain ⟨hi, rfl⟩ := List.getElem?_eq_some_iff.mp he
  rw [← List.drop_eq_getElem_cons hi, List.take_append_drop]

include hnodup

/-- No entry in front of another one has the other's column name. -/
theorem name_ne_of_mem_take (he : c.entries[i]? = some e) (he' : e' ∈ c.entries.take i) :
    e'.column.name ≠ e.column.name := by
  rw [entries_eq_append he, List.map_append, List.map_cons] at hnodup
  have hdisjoint := (List.nodup_append.mp hnodup).2.2
  exact hdisjoint _ (List.mem_map_of_mem he') _ List.mem_cons_self

/-- The name of a column finds the first entry whose field has that name, if it comes before the
column's own entry. -/
theorem find?_columnName (he : c.entries[i]? = some e) :
    c.find? e.column.name =
      ((c.entries.take i).find? (·.column.field == e.column.name)).or (some e) := by
  have hown : (e :: c.entries.drop (i + 1)).find? (·.column.answersTo e.column.name) = some e := by
    refine List.find?_cons_of_pos ?_
    rw [Column.answersTo, beq_self_eq_true, Bool.true_or]
  have hfront : (c.entries.take i).find? (·.column.answersTo e.column.name) =
      (c.entries.take i).find? (·.column.field == e.column.name) := by
    refine List.find?_congr fun e' he' => ?_
    have hname := beq_eq_false_iff_ne.mpr (name_ne_of_mem_take hnodup he he')
    rw [Column.answersTo, hname, Bool.false_or]
  calc c.find? e.column.name
      = (c.entries.take i ++ e :: c.entries.drop (i + 1)).find?
          (·.column.answersTo e.column.name) := by rw [← entries_eq_append he, find?]
    _ = ((c.entries.take i).find? (·.column.field == e.column.name)).or (some e) := by
        rw [List.find?_append, hfront, hown]

/-- An entry is found under the name of its column just if no field in front of it has that name. -/
theorem find?_columnName_eq_iff (he : c.entries[i]? = some e) :
    c.find? e.column.name = some e ↔
      ∀ e' ∈ c.entries.take i, e'.column.field ≠ e.column.name := by
  rw [find?_columnName hnodup he]
  constructor
  · intro hfound e' he' hfield
    cases hfirst : (c.entries.take i).find? (·.column.field == e.column.name) with
    | none => exact List.find?_eq_none.mp hfirst e' he' (beq_iff_eq.mpr hfield)
    | some first =>
      rw [hfirst, Option.some_or] at hfound
      obtain rfl := Option.some.inj hfound
      exact name_ne_of_mem_take hnodup he (List.mem_of_find?_eq_some hfirst) rfl
  · intro hfields
    have hnone : (c.entries.take i).find? (·.column.field == e.column.name) = none :=
      List.find?_eq_none.mpr fun e' he' => by simpa using hfields e' he'
    rw [hnone, Option.none_or]

/-- Another entry is found only if its field has the name that is looked up, and its column another
one. -/
theorem renamed_of_find? (he : e ∈ c.entries) (hfound : c.find? e.column.name = some e')
    (hother : e' ≠ e) :
    e'.column.field = e.column.name ∧ e'.column.name ≠ e'.column.field := by
  obtain ⟨i, he⟩ := List.getElem?_of_mem he
  rw [find?_columnName hnodup he] at hfound
  cases hfirst : (c.entries.take i).find? (·.column.field == e.column.name) with
  | none =>
    rw [hfirst, Option.none_or] at hfound
    exact absurd (Option.some.inj hfound).symm hother
  | some first =>
    rw [hfirst, Option.some_or] at hfound
    obtain rfl := Option.some.inj hfound
    have hmatches := List.find?_some hfirst
    have hfield : first.column.field = e.column.name := beq_iff_eq.mp hmatches
    refine ⟨hfield, fun hname => ?_⟩
    exact name_ne_of_mem_take hnodup he (List.mem_of_find?_eq_some hfirst) (hname.trans hfield)

/-- All entries are found under the names of their columns just if no field has the name of a
column behind it. -/
theorem forall_find?_iff :
    (∀ e ∈ c.entries, c.find? e.column.name = some e) ↔
      c.entries.Pairwise fun e' e => e'.column.field ≠ e.column.name := by
  rw [List.pairwise_iff_getElem]
  constructor
  · intro hall i j hi hj hlt
    have he : c.entries[j]? = some c.entries[j] := List.getElem?_eq_getElem hj
    have hfields := (find?_columnName_eq_iff hnodup he).mp (hall _ (List.getElem_mem hj))
    exact hfields _ (List.mem_take_iff_getElem.mpr ⟨i, by omega, rfl⟩)
  · intro hpairs e he
    obtain ⟨j, he⟩ := List.getElem?_of_mem he
    refine (find?_columnName_eq_iff hnodup he).mpr fun e' he' => ?_
    obtain ⟨i, hi, rfl⟩ := List.mem_take_iff_getElem.mp he'
    obtain ⟨hj, rfl⟩ := List.getElem?_eq_some_iff.mp he
    exact hpairs i j (by omega) hj (by omega)

end Catalog

namespace Schema

variable {s : Schema} {reference : Reference} {x : Derived} {c : Catalog}

/-- The name of a column finds its own entry, unless a field in front of it has that name. Then the
first such entry is found, whose column is named otherwise. So all entries are found under the names
of their columns just if no field has the name of a column behind it. -/
theorem Yields.find?_own (hs : s.Reachable) (hx : s.Yields reference x)
    (hc : x.catalog = .record c) :
    (∀ i e, c.entries[i]? = some e → c.find? e.column.name =
      ((c.entries.take i).find? (·.column.field == e.column.name)).or (some e)) ∧
    (∀ e ∈ c.entries, ∀ e', c.find? e.column.name = some e' → e' ≠ e →
      e'.column.field = e.column.name ∧ e'.column.name ≠ e'.column.field) ∧
    ((∀ e ∈ c.entries, c.find? e.column.name = some e) ↔
      c.entries.Pairwise fun e' e => e'.column.field ≠ e.column.name) := by
  have hnodup := (hs.named hx hc).nodup
  exact ⟨fun i e he => Catalog.find?_columnName hnodup he,
    fun e he e' => Catalog.renamed_of_find? hnodup he, Catalog.forall_find?_iff hnodup⟩

/-- Two fields, the columns of which have each other's names. -/
def swapRecord : Record where
  name := "Swap"
  attributes := [{ name := "Table" }]
  fields := [
    { name := "x", type := some .integer
      attributes := [{ name := "Column", arguments := [⟨none, .string "y", none⟩] }] },
    { name := "y", type := some .integer
      attributes := [{ name := "Column", arguments := [⟨none, .string "x", none⟩] }] }]

def swaps : Schema := (Schema.registerAll {} [swapRecord]).1

theorem swaps_reachable : swaps.Reachable := (Reachable.empty {}).registerAll [swapRecord]

def swapCatalog : Catalog where
  typeName := "Swap"
  entries := [
    { column := { name := "y", field := "x", type := some .integer } },
    { column := { name := "x", field := "y", type := some .integer } }]
  table := some "swaps"

theorem yields_swap : swaps.Yields (.name "Swap")
    { record := swapRecord, catalog := .record swapCatalog, policy := .failFast } :=
  ⟨_, _, rfl, rfl⟩

/-- The name of the second column finds the first entry. -/
theorem find?_own_swap : swapCatalog.find? "x" =
    some { column := { name := "y", field := "x", type := some .integer } } :=
  (Yields.find?_own swaps_reachable yields_swap rfl).1 1 _ rfl

/-- An entry need not be found under the name of its column. -/
theorem not_find?_own : ¬ ∀ (s : Schema) (reference : Reference) (x : Derived) (c : Catalog),
    s.Reachable → s.Yields reference x → x.catalog = .record c →
      ∀ e ∈ c.entries, c.find? e.column.name = some e := by
  intro h
  have hfound := h swaps (.name "Swap") _ swapCatalog swaps_reachable yields_swap rfl _
    (List.mem_cons_of_mem _ List.mem_cons_self)
  have hfirst : swapCatalog.find? "x" = swapCatalog.entries.head? := rfl
  have hnames := congrArg (Option.map (·.column.name)) (hfirst.symm.trans hfound)
  exact absurd hnames (by decide)

end Schema

end RowSchema
