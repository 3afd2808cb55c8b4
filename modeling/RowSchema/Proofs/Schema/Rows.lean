import RowSchema.Proofs.Decode.Errors
import RowSchema.Proofs.Decode.Policy
import RowSchema.Proofs.Decode.Slices
import RowSchema.Proofs.Schema.Plans

/-! # Rows of a schema

What decoding does by the plans of a schema, for every plan, row, policy and set of conversions. -/

namespace RowSchema

namespace Schema

/-! ## Shapes

A table with an optional column group, to see the results at work. -/

/-- Two columns. -/
def pointRecord : Record where
  name := "Point"
  attributes := [{ name := "Table" }]
  fields := [{ name := "x", type := some .integer }, { name := "y", type := some .integer }]

/-- Two columns of a point, which may be absent, and one more. -/
def shapeRecord : Record where
  name := "Shape"
  attributes := [{ name := "Table" }]
  fields := [
    { name := "centre", type := some { name := "Point", isOptional := true }
      attributes := [{ name := "Columns" }] },
    { name := "label", type := some .string }]

def shapes : Schema := (Schema.registerAll {} [pointRecord, shapeRecord]).1

theorem shapes_reachable : shapes.Reachable := (Reachable.empty {}).registerAll _

/-- The catalog that comes of deriving a record of the schema of shapes. -/
def shapesCatalog (r : Record) : Group :=
  match shapes.deriveRecord r with
  | (.ok { result := some x, .. }, _) => x.catalog
  | _ => .record { typeName := r.name, entries := [] }

theorem plan_shapesCatalog (name : String) {r : Record}
    (hr : shapes.registry.record? (.name name) = some r)
    (hwidth : (shapesCatalog r).width ≠ 0) : shapes.Plan (shapesCatalog r) := by
  unfold shapesCatalog at hwidth ⊢
  split
  · rename_i typeName x diagnostics t hd
    have hd' : shapes.derive? (.name name) =
        some (.ok { typeName, result := some x, diagnostics }, t) := by
      rw [Schema.derive?, hr, Option.map_some, hd]
    exact .catalog ⟨_, t, hd', rfl⟩
  · rename_i h
    split at hwidth
    · rename_i hd
      exact absurd hd (h _ _ _ _)
    · exact absurd rfl hwidth

theorem plan_shape : shapes.Plan (shapesCatalog shapeRecord) :=
  plan_shapesCatalog "Shape" rfl (by decide)

theorem plan_point : shapes.Plan (shapesCatalog pointRecord) :=
  plan_shapesCatalog "Point" rfl (by decide)

/-- Conversions of nothing. -/
def unconverted : Converters := fun _ => none

theorem unconverted_neverMissing : unconverted.NeverMissing := by
  rintro error ⟨t, conversion, cell, h, -⟩
  cases h

/-- A conversion of integers that reports a column as missing. -/
def missingIntegers : Converters := fun name =>
  if name == "Int" then some fun _ => .error (.missing ["c"] none) else none

variable {s : Schema} {g : Group} {converters : Converters} {policy : DecodePolicy}

/-- A row of the right length is decoded slice by slice. It never ends too early, and none of its
cells is left unless the decode is broken off by an error other than missing columns. -/
theorem Plan.decodeRow_eq_valueOf (hs : s.Reachable) (hg : s.Plan g)
    (hc : converters.NeverMissing) {row : List (Option Value)}
    (hrow : (row.length : Int) = g.width) :
    g.decodeRow converters policy row =
        g.valueOf converters policy (Cursor.ofRow row).cells ∧
      (∀ n, g.decodeRow converters policy row = .error (.rowEnded n) →
        converters.Raise (.rowEnded n)) ∧
      (Settled (g.decodeRow converters policy row) →
        (g.decode converters policy (.ofRow row)).2.rest = []) := by
  have hsized := hg.sized hs
  have hroom : g.width ≤ (Cursor.ofRow row).remaining := by
    rw [← hrow]
    exact Int.le_refl _
  have hrun : g.decodeRow converters policy row =
      (g.decode converters policy (.ofRow row)).1 := by
    rw [Group.decodeRow, hrow]
    simp
  have hwidth : g.width.toNat = row.length := by omega
  refine ⟨?_, fun n h => ?_, fun h => ?_⟩
  · rw [hrun, Group.decode_eq_valueOf hc g _ hsized hroom, hwidth, List.take_of_length_le]
    rw [Cursor.length_cells]
    exact Nat.le_refl _
  · rw [hrun] at h
    exact Group.decode_explained g _ _ hsized hroom h
  · rw [hrun] at h
    rw [(Group.decode_moves g _ hsized hroom h).full hc, hwidth]
    exact List.drop_length

/-- The row of a shape with its centre. -/
theorem decodeRow_shape :
    (shapesCatalog shapeRecord).decodeRow unconverted .collectAll
        [some (.int 1), some (.int 2), some (.text "a")] =
      (shapesCatalog shapeRecord).valueOf unconverted .collectAll
        (Cursor.ofRow [some (.int 1), some (.int 2), some (.text "a")]).cells :=
  (Plan.decodeRow_eq_valueOf shapes_reachable plan_shape unconverted_neverMissing rfl).1

/-- Where a decode that gives a value or reports missing columns leaves the row, and an optional one
with it: it has gone over the full width, but for the cells that are left unread after a conversion
has reported missing columns. -/
theorem Plan.position_add_unread (hs : s.Reachable) (hg : s.Plan g) {c : Cursor}
    (hroom : g.width ≤ c.remaining)
    (hdone : (∃ columns typeName,
        (g.decode converters policy c).1 = .error (.missing columns typeName)) ∨
      ∃ value, (g.decode converters policy c).optional.1 = .ok value) :
    (g.decode converters policy c).optional.2 = (g.decode converters policy c).2 ∧
      ((g.decode converters policy c).2.position + g.unread converters policy c : Int) =
        c.position + g.width ∧
      (((g.decode converters policy c).2.position : Int) = c.position + g.width ↔
        g.unread converters policy c = 0) ∧
      (converters.NeverMissing → g.unread converters policy c = 0) := by
  have hoptional : (g.decode converters policy c).optional.2 =
      (g.decode converters policy c).2 := by
    unfold Reading.optional
    split <;> simp_all
  have hsettled : Settled (g.decode converters policy c).1 := by
    rcases hdone with ⟨columns, typeName, h⟩ | ⟨value, h⟩
    · rw [h]
      exact settled_missing columns typeName
    · rcases hd : g.decode converters policy c with ⟨error | value', c'⟩
      · rw [hd] at h
        cases error with
        | missing columns typeName => exact settled_missing columns typeName
        | _ => cases h
      · exact settled_ok value'
  have hmoves := Group.decode_moves g c (hg.sized hs) hroom hsettled
  obtain ⟨n, hn, hwidth⟩ := hmoves.exists_skip
  have hposition : ((g.decode converters policy c).2.position : Int) = c.position + n := by
    rw [hn, Cursor.position_skip]
    push_cast
    rfl
  refine ⟨hoptional, ?_, ?_, hmoves.unread_eq_zero⟩
  · omega
  · constructor
    · intro h
      omega
    · intro h
      omega

/-- A conversion that reports a column as missing leaves the second cell of a point unread. -/
theorem position_shape :
    (((shapesCatalog shapeRecord).decode missingIntegers .collectAll
      (.ofRow [some (.int 1), some (.int 2), some (.text "a")])).2.position : Int) + 1 = 0 + 3 :=
  (Plan.position_add_unread shapes_reachable plan_shape (by decide) (.inr ⟨_, rfl⟩)).2.1

/-- The full width is not always gone over: not by a decode whose conversion reports a column as
missing, and so not by an optional one either. -/
theorem not_full_width : ¬ ∀ (s : Schema) (g : Group) (converters : Converters)
    (policy : DecodePolicy) (c : Cursor), s.Reachable → s.Plan g → g.width ≤ c.remaining →
    (∃ value, (g.decode converters policy c).optional.1 = .ok value) →
    ((g.decode converters policy c).optional.2.position : Int) = c.position + g.width := by
  intro h
  have := h shapes (shapesCatalog pointRecord) missingIntegers .collectAll
    (.ofRow [some (.int 1), some (.int 2)]) shapes_reachable plan_point (by decide) ⟨_, rfl⟩
  revert this
  decide

/-- Failing fast and collecting all give the same value or the same error, but for what they report
of missing columns: these are missing from the same type, and failing fast reports the first of
them. There is a first one in every catalog that has columns. -/
theorem decodeRow_failFast (hc : converters.NeverMissing) (g : Group)
    (row : List (Option Value)) :
    g.decodeRow converters .failFast row =
        (g.decodeRow converters .collectAll row).mapError .first ∧
      ∀ typeName, g.decodeRow converters .collectAll row = .error (.missing [] typeName) →
        g.leaves = [] := by
  unfold Group.decodeRow
  split
  · rw [Group.decode_failFast hc]
    exact ⟨rfl, fun typeName => Group.leaves_eq_nil_of_missing hc⟩
  · refine ⟨rfl, ?_⟩
    intro typeName h
    cases h

/-- A point without coordinates lacks both, the first of which is `x`. -/
theorem decodeRow_failFast_point :
    (shapesCatalog pointRecord).decodeRow unconverted .failFast [some .null, some .null] =
      .error (.missing ["x"] (some "Point")) :=
  (decodeRow_failFast unconverted_neverMissing _ _).1.trans rfl

end Schema

end RowSchema
