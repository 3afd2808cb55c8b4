import RowSchema.Proofs.Decode.Position

/-! # Rows in slices

A decode threads one cursor through records, groups and cases, also through those that fail half
way. Here a catalog is given its cells without a cursor: every entry decodes a slice of its own,
which begins after the widths of the entries before it. On a sized catalog both give the same
outcome, as long as no conversion reports missing columns itself. -/

namespace RowSchema

/-- What reading a cell gives. Nothing may be there. -/
abbrev Cell := Except DecodeError Value

namespace Cursor

/-- The cells that have not been read. -/
def cells (c : Cursor) : List Cell :=
  c.rest.mapIdx fun i cell => cell.elim (.error (.noCell (c.position + i))) .ok

@[simp] theorem length_cells (c : Cursor) : c.cells.length = c.remaining := by
  simp [cells, remaining]

theorem cells_skip (c : Cursor) (n : Nat) : (c.skip n).cells = c.cells.drop n := by
  apply List.ext_getElem?
  intro i
  simp [cells, skip, List.getElem?_mapIdx, List.getElem?_drop, Nat.add_assoc]

/-- The cells of a cursor over values. -/
theorem cells_map_some (position : Nat) (values : List Value) :
    (mk position (values.map some)).cells = values.map .ok := by
  apply List.ext_getElem?
  intro i
  simp [cells, List.getElem?_mapIdx, List.getElem?_map, Option.map_map, Function.comp_def]

end Cursor

/-- `width` cells, of which the first has the number `offset`. -/
def slice (cells : List Cell) (offset : Nat) (width : Int) : List Cell :=
  (cells.drop offset).take width.toNat

/-- The value of a column that has one cell. -/
def Column.valueOf (converters : Converters) (column : Column) :
    List Cell → Except DecodeError Value
  | [cell] => cell.bind (convert converters [column.representation, column.type])
  | cells => .error (.rowEnded cells.length)

mutual

/-- The value of a group's own cells. -/
def Group.valueOf (converters : Converters) (policy : DecodePolicy) :
    Group → List Cell → Except DecodeError Value
  | .record catalog, cells => catalog.valueOf converters policy cells
  | .enum catalog, cells => catalog.valueOf converters policy cells

/-- Missing columns count once all entries have been decoded. -/
def Catalog.valueOf (converters : Converters) (policy : DecodePolicy) :
    Catalog → List Cell → Except DecodeError Value
  | { typeName, entries, maker, .. }, cells =>
    (Entry.contributionsOf converters policy cells 0 entries).bind
      (assemble maker policy typeName)

/-- The contributions of entries, the first of which has its cells from `offset` on. -/
def Entry.contributionsOf (converters : Converters) (policy : DecodePolicy) (cells : List Cell) :
    (offset : Nat) → List Entry → Except DecodeError (List Contribution)
  | _, [] => .ok []
  | offset, e :: rest =>
    (e.contributionOf converters policy (slice cells offset e.width)).bind fun contribution =>
      (Entry.contributionsOf converters policy cells (offset + e.width.toNat) rest).map
        (contribution :: ·)

/-- What an entry contributes on its own: its value, its default, null, or what is missing. -/
def Entry.contributionOf (converters : Converters) (policy : DecodePolicy) :
    Entry → List Cell → Except DecodeError Contribution
  | ⟨column, none⟩, cells =>
    (column.valueOf converters cells).bind fun value => column.settle value [column.name]
  | ⟨column, some members⟩, cells =>
    match members.valueOf converters policy cells with
    | .error (.missing columns _) =>
      column.settle .null (if columns.isEmpty then [column.name] else columns)
    | .error error => .error error
    | .ok value => column.settle value [column.name]

def EnumCatalog.valueOf (converters : Converters) (policy : DecodePolicy) :
    EnumCatalog → List Cell → Except DecodeError Value
  | ⟨typeName, cases, table, schema, maker⟩, cells =>
    (CaseEntry.valuesOf converters policy cells 0 cases).bind fun matched =>
      EnumCatalog.finish ⟨typeName, cases, table, schema, maker⟩ policy matched.head?

/-- The cases that have values, the first of them with its cells from `offset` on. -/
def CaseEntry.valuesOf (converters : Converters) (policy : DecodePolicy) (cells : List Cell) :
    (offset : Nat) → List CaseEntry → Except DecodeError (List (String × Value))
  | _, [] => .ok []
  | offset, k :: rest =>
    (k.valueOf converters policy (slice cells offset k.width)).bind fun value =>
      (CaseEntry.valuesOf converters policy cells (offset + k.width.toNat) rest).map
        ((value.map (k.name, ·)).toList ++ ·)

/-- The associated value of a case, if its own cells have it. -/
def CaseEntry.valueOf (converters : Converters) (policy : DecodePolicy) :
    CaseEntry → List Cell → Except DecodeError (Option Value)
  | { payload := none, .. }, _ => .ok (some .null)
  | { payload := some ⟨column, none⟩, .. }, cells =>
    (column.valueOf converters cells).map fun value => if value.isNull then none else some value
  | { payload := some ⟨_, some members⟩, .. }, cells =>
    match members.valueOf converters policy cells with
    | .error (.missing _ _) => .ok none
    | .error error => .error error
    | .ok value => .ok (if value.isNull then none else some value)

end

/-! ## Slices of a cursor's cells -/

theorem Cursor.cells_ofSome {position : Nat} {cell : Value} {rest : List (Option Value)} :
    (Cursor.mk position (some cell :: rest)).cells.take 1 = [.ok cell] := by
  simp [Cursor.cells]

section Slices

variable {cells : List Cell} {offset : Nat} {c : Cursor} {w w' : Int}

/-- The first of two neighbouring slices. -/
theorem slice_eq_take (hw : 0 ≤ w) (hw' : 0 ≤ w')
    (h : cells.drop offset = c.cells.take (w + w').toNat) :
    slice cells offset w = c.cells.take w.toNat := by
  rw [slice, h, List.take_take, Int.toNat_add hw hw', Nat.min_eq_left (by omega)]

/-- What is left for the second one. -/
theorem drop_eq_take (hw : 0 ≤ w) (hw' : 0 ≤ w')
    (h : cells.drop offset = c.cells.take (w + w').toNat) :
    cells.drop (offset + w.toNat) = (c.skip w.toNat).cells.take w'.toNat := by
  rw [← List.drop_drop, h, Cursor.cells_skip, Int.toNat_add hw hw', List.drop_take,
    Nat.add_sub_cancel_left]

end Slices

/-! ## A cursor for slices -/

variable {converters : Converters} {policy : DecodePolicy}

/-- Without reports of missing columns a settled reading goes over its full width. -/
theorem Moves.full {α : Type} {reading : Reading α} {c : Cursor} {w : Int} {u : Nat}
    (h : Moves reading c w u converters) (hc : converters.NeverMissing) :
    reading.2 = c.skip w.toNat := by
  obtain ⟨n, hn, hw⟩ := h.exists_skip
  rw [h.unread_eq_zero hc] at hw
  rw [hn, ← hw]
  simp

theorem Entry.decode_skip (hc : converters.NeverMissing) {e : Entry} {c c' : Cursor}
    {contribution : Contribution} (hs : e.Sized) (hroom : e.width ≤ c.remaining)
    (h : e.decode converters policy c = (.ok contribution, c')) : c' = c.skip e.width.toNat := by
  have hm := Entry.decode_moves e c hs hroom (by rw [h]; exact settled_ok _)
  rw [h] at hm
  exact hm.full hc

theorem CaseEntry.decode_skip (hc : converters.NeverMissing) {k : CaseEntry} {c c' : Cursor}
    {value : Option Value} (hs : k.Sized) (hroom : k.width ≤ c.remaining)
    (h : k.decode converters policy c = (.ok value, c')) : c' = c.skip k.width.toNat := by
  have hm := CaseEntry.decode_moves k c hs hroom (by rw [h]; exact settled_ok _)
  rw [h] at hm
  exact hm.full hc

theorem Column.read_eq_valueOf (converters : Converters) (column : Column) {c : Cursor}
    (hroom : 1 ≤ c.remaining) :
    (column.read converters c).1 = column.valueOf converters (c.cells.take 1) := by
  obtain ⟨position, rest⟩ := c
  match rest, hroom with
  | some cell :: rest, _ =>
    rw [Cursor.cells_ofSome]
    rfl
  | none :: rest, _ => simp [Column.read, readCell, Cursor.cells, Column.valueOf, Except.bind]

mutual

theorem Group.decode_eq_valueOf (hc : converters.NeverMissing) : ∀ (g : Group) (c : Cursor),
    g.Sized → g.width ≤ c.remaining →
    (g.decode converters policy c).1 =
      g.valueOf converters policy (c.cells.take g.width.toNat)
  | .record catalog, c, hs, hroom => by
    rw [Group.decode, Group.valueOf]
    exact Catalog.decode_eq_valueOf hc catalog c hs hroom
  | .enum catalog, c, hs, hroom => by
    rw [Group.decode, Group.valueOf]
    exact EnumCatalog.decode_eq_valueOf hc catalog c hs hroom

theorem Catalog.decode_eq_valueOf (hc : converters.NeverMissing) : ∀ (g : Catalog) (c : Cursor),
    g.Sized → g.width ≤ c.remaining →
    (g.decode converters policy c).1 =
      g.valueOf converters policy (c.cells.take g.width.toNat)
  | ⟨typeName, entries, table, schema, maker⟩, c, hs, hroom => by
    rw [Catalog.Sized] at hs
    rw [Catalog.decode, Catalog.valueOf]
    have hall := Entry.decodeAll_eq_contributionsOf hc entries c
      (c.cells.take (Entry.totalWidth entries).toNat) 0 hs hroom rfl
    rw [Catalog.width, ← hall]
    cases hd : Entry.decodeAll converters policy entries c with
    | mk outcome c' => cases outcome <;> rfl

theorem Entry.decodeAll_eq_contributionsOf (hc : converters.NeverMissing) :
    ∀ (entries : List Entry) (c : Cursor) (cells : List Cell) (offset : Nat),
    Entry.AllSized entries → Entry.totalWidth entries ≤ c.remaining →
    cells.drop offset = c.cells.take (Entry.totalWidth entries).toNat →
    (Entry.decodeAll converters policy entries c).1 =
      Entry.contributionsOf converters policy cells offset entries
  | [], _, _, _, _, _, _ => by rw [Entry.decodeAll, Entry.contributionsOf]
  | e :: rest, c, cells, offset, hs, hroom, hcells => by
    rw [Entry.AllSized] at hs
    have he := hs.1.width_nonneg
    have hrest := hs.2.width_nonneg
    rw [Entry.totalWidth] at hroom hcells
    have hone := Entry.decode_eq_contributionOf hc e c hs.1 (by omega)
    rw [Entry.decodeAll, Entry.contributionsOf, slice_eq_take he hrest hcells, ← hone]
    cases hd : e.decode converters policy c with
    | mk outcome c' =>
      cases outcome with
      | error error => rfl
      | ok contribution =>
        obtain rfl := Entry.decode_skip hc hs.1 (by omega) hd
        have hmore := Entry.decodeAll_eq_contributionsOf hc rest
          (c.skip e.width.toNat) cells (offset + e.width.toNat) hs.2
          (by rw [Cursor.remaining_skip]; omega) (drop_eq_take he hrest hcells)
        simp only [Except.bind, ← hmore]
        cases hr : Entry.decodeAll converters policy rest (c.skip e.width.toNat) with
        | mk outcome c'' => cases outcome <;> rfl

theorem Entry.decode_eq_contributionOf (hc : converters.NeverMissing) : ∀ (e : Entry) (c : Cursor),
    e.Sized → e.width ≤ c.remaining →
    (e.decode converters policy c).1 =
      e.contributionOf converters policy (c.cells.take e.width.toNat)
  | ⟨column, none⟩, c, hs, hroom => by
    rw [Entry.Sized] at hs
    rw [Entry.width, hs] at hroom ⊢
    have hread := column.read_eq_valueOf converters (c := c) (by omega)
    rw [Entry.decode, Entry.contributionOf, Int.toNat_one, ← hread]
    cases hd : column.read converters c with
    | mk outcome c' => cases outcome <;> rfl
  | ⟨column, some members⟩, c, hs, hroom => by
    rw [Entry.Sized] at hs
    rw [Entry.width, hs.1] at hroom ⊢
    have hm := Group.decode_eq_valueOf hc members c hs.2 hroom
    rw [Entry.decode, Entry.contributionOf, ← hm]
    cases hd : members.decode converters policy c with
    | mk outcome c' =>
      cases outcome with
      | ok value => rfl
      | error error => cases error <;> rfl

theorem EnumCatalog.decode_eq_valueOf (hc : converters.NeverMissing) :
    ∀ (g : EnumCatalog) (c : Cursor), g.Sized → g.width ≤ c.remaining →
    (g.decode converters policy c).1 =
      g.valueOf converters policy (c.cells.take g.width.toNat)
  | ⟨typeName, cases, table, schema, maker⟩, c, hs, hroom => by
    rw [EnumCatalog.Sized] at hs
    rw [EnumCatalog.decode, EnumCatalog.valueOf]
    have hall := CaseEntry.decodeAll_eq_valuesOf hc cases c
      (c.cells.take (CaseEntry.totalWidth cases).toNat) 0 hs hroom rfl
    rw [EnumCatalog.width, ← hall]
    cases hd : CaseEntry.decodeAll converters policy cases c with
    | mk outcome c' => cases outcome <;> rfl

theorem CaseEntry.decodeAll_eq_valuesOf (hc : converters.NeverMissing) :
    ∀ (cases : List CaseEntry) (c : Cursor) (cells : List Cell) (offset : Nat),
    CaseEntry.AllSized cases → CaseEntry.totalWidth cases ≤ c.remaining →
    cells.drop offset = c.cells.take (CaseEntry.totalWidth cases).toNat →
    (CaseEntry.decodeAll converters policy cases c).1 =
      CaseEntry.valuesOf converters policy cells offset cases
  | [], _, _, _, _, _, _ => by rw [CaseEntry.decodeAll, CaseEntry.valuesOf]
  | k :: rest, c, cells, offset, hs, hroom, hcells => by
    rw [CaseEntry.AllSized] at hs
    have hk := hs.1.width_nonneg
    have hrest := hs.2.width_nonneg
    rw [CaseEntry.totalWidth] at hroom hcells
    have hone := CaseEntry.decode_eq_valueOf hc k c hs.1 (by omega)
    rw [CaseEntry.decodeAll, CaseEntry.valuesOf, slice_eq_take hk hrest hcells, ← hone]
    cases hd : k.decode converters policy c with
    | mk outcome c' =>
      cases outcome with
      | error error => rfl
      | ok value =>
        obtain rfl := CaseEntry.decode_skip hc hs.1 (by omega) hd
        have hmore := CaseEntry.decodeAll_eq_valuesOf hc rest
          (c.skip k.width.toNat) cells (offset + k.width.toNat) hs.2
          (by rw [Cursor.remaining_skip]; omega) (drop_eq_take hk hrest hcells)
        simp only [Except.bind, ← hmore]
        cases hr : CaseEntry.decodeAll converters policy rest (c.skip k.width.toNat) with
        | mk outcome c'' => cases outcome <;> rfl

theorem CaseEntry.decode_eq_valueOf (hc : converters.NeverMissing) : ∀ (k : CaseEntry) (c : Cursor),
    k.Sized → k.width ≤ c.remaining →
    (k.decode converters policy c).1 =
      k.valueOf converters policy (c.cells.take k.width.toNat)
  | ⟨_, _, none⟩, _, _, _ => by rw [CaseEntry.decode, CaseEntry.valueOf]
  | ⟨_, _, some ⟨column, none⟩⟩, c, hs, hroom => by
    rw [CaseEntry.Sized, Entry.Sized] at hs
    simp only [CaseEntry.width, Entry.width, Option.map_some, Option.getD_some, hs] at hroom ⊢
    have hread := column.read_eq_valueOf converters (c := c) (by omega)
    rw [CaseEntry.decode, CaseEntry.valueOf, Int.toNat_one, ← hread]
    cases hd : column.read converters c with
    | mk outcome c' => cases outcome <;> rfl
  | ⟨_, _, some ⟨column, some members⟩⟩, c, hs, hroom => by
    rw [CaseEntry.Sized, Entry.Sized] at hs
    simp only [CaseEntry.width, Entry.width, Option.map_some, Option.getD_some, hs.1] at hroom ⊢
    have hm := Group.decode_eq_valueOf hc members c hs.2 hroom
    rw [CaseEntry.decode, CaseEntry.valueOf, ← hm]
    cases hd : members.decode converters policy c with
    | mk outcome c' =>
      cases outcome with
      | ok value => rfl
      | error error => cases error <;> rfl

end

/-- A whole row is decoded slice by slice. -/
theorem Group.Sized.decodeRow_eq {g : Group} (hs : g.Sized) (hc : converters.NeverMissing)
    {row : List (Option Value)} (hrow : (row.length : Int) = g.width) :
    g.decodeRow converters policy row =
      g.valueOf converters policy (Cursor.ofRow row).cells := by
  have hroom : g.width ≤ (Cursor.ofRow row).remaining := by
    rw [← hrow]
    exact Int.le_refl _
  rw [Group.decodeRow, hrow, beq_self_eq_true, if_pos rfl,
    Group.decode_eq_valueOf hc g _ hs hroom, ← hrow, Int.toNat_natCast, List.take_of_length_le]
  rw [Cursor.length_cells]
  exact Nat.le_refl _

end RowSchema
