import RowSchema.Proofs.Decode.Fields

/-! # Entries in their turn

The entries of a record read its row one after another, each from where the one before it has left
the row. So a record is decoded just if every entry contributes a field in its turn, whatever the
conversions do: also where a conversion leaves cells of a group unread. -/

namespace RowSchema

variable {converters : Converters} {policy : DecodePolicy}

namespace Entry

/-- Where the entries before number `i` leave the row. -/
def turn (converters : Converters) (policy : DecodePolicy) (entries : List Entry) (c : Cursor)
    (i : Nat) : Cursor :=
  (decodeAll converters policy (entries.take i) c).2

/-- What entry number `i` contributes in its turn. -/
def inTurn (converters : Converters) (policy : DecodePolicy) (entries : List Entry) (c : Cursor)
    (i : Nat) : Option (Except DecodeError Contribution) :=
  entries[i]?.map fun e => (e.decode converters policy (turn converters policy entries c i)).1

variable {e : Entry} {entries rest : List Entry} {c c' : Cursor} {contribution : Contribution}

theorem decodeAll_cons (he : e.decode converters policy c = (.ok contribution, c')) :
    decodeAll converters policy (e :: rest) c =
      ((decodeAll converters policy rest c').1.map (contribution :: ·),
        (decodeAll converters policy rest c').2) := by
  rw [decodeAll, he]
  dsimp only
  rcases decodeAll converters policy rest c' with ⟨error | contributions, c''⟩ <;> rfl

theorem inTurn_zero : inTurn converters policy (e :: rest) c 0 =
    some (e.decode converters policy c).1 := rfl

/-- The other entries begin where the first one has left the row. -/
theorem inTurn_succ (he : e.decode converters policy c = (.ok contribution, c')) (i : Nat) :
    inTurn converters policy (e :: rest) c (i + 1) = inTurn converters policy rest c' i := by
  have hturn : turn converters policy (e :: rest) c (i + 1) =
      turn converters policy rest c' i := by
    rw [turn, turn, List.take_succ_cons, decodeAll_cons he]
  rw [inTurn, inTurn, hturn, List.getElem?_cons_succ]

/-- There are contributions if every entry makes one in its turn. -/
theorem decodeAll_eq_ok : ∀ {entries : List Entry} {c : Cursor}
    {contributions : List Contribution},
    (decodeAll converters policy entries c).1 = .ok contributions ↔
      ∀ i, inTurn converters policy entries c i = contributions[i]?.map .ok
  | [], c, contributions => by
    rw [decodeAll]
    constructor
    · rintro ⟨⟩ i
      rfl
    · intro h
      cases contributions with
      | nil => rfl
      | cons contribution more => cases h 0
  | e :: rest, c, contributions => by
    rcases he : e.decode converters policy c with ⟨error | contribution, c'⟩
    · rw [decodeAll, he]
      constructor
      · rintro ⟨⟩
      · intro h
        have hfirst := h 0
        rw [inTurn_zero, he] at hfirst
        cases contributions <;> cases hfirst
    · rw [decodeAll_cons he, map_eq_ok]
      constructor
      · rintro ⟨more, hmore, rfl⟩ i
        cases i with
        | zero =>
          rw [inTurn_zero, he]
          rfl
        | succ i =>
          rw [inTurn_succ he]
          exact decodeAll_eq_ok.mp hmore i
      · intro h
        have hfirst := h 0
        rw [inTurn_zero, he] at hfirst
        cases contributions with
        | nil => cases hfirst
        | cons first more =>
          cases hfirst
          refine ⟨more, decodeAll_eq_ok.mpr fun i => ?_, rfl⟩
          rw [← inTurn_succ he]
          exact h (i + 1)

/-- Whether an entry is the primary key does not matter for what it contributes. -/
theorem decode_withKey (e : Entry) (key : Bool) (c : Cursor) :
    decode converters policy { e with column := { e.column with isPrimaryKey := key } } c =
      e.decode converters policy c := by
  obtain ⟨column, members⟩ := e
  cases members <;> rw [decode, decode] <;> rfl

theorem decodeAll_withKey (entries : List Entry) (key : Bool) (c : Cursor) :
    decodeAll converters policy (entries.map fun e =>
        { e with column := { e.column with isPrimaryKey := key } }) c =
      decodeAll converters policy entries c := by
  induction entries generalizing c with
  | nil => rfl
  | cons e rest ih =>
    rw [List.map_cons, decodeAll, decodeAll, decode_withKey]
    simp only [ih]

end Entry

namespace Catalog

variable {c : Catalog} {cursor : Cursor}

theorem decode_eq (c : Catalog) (cursor : Cursor) :
    (c.decode converters policy cursor).1 =
      (Entry.decodeAll converters policy c.entries cursor).1.bind
        (assemble c.maker policy c.typeName) := by
  obtain ⟨typeName, entries, table, schema, maker⟩ := c
  rw [decode]
  rcases Entry.decodeAll converters policy entries cursor with ⟨error | contributions, c'⟩ <;> rfl

/-- A record is made of what its entries contribute in their turns. -/
theorem decode_madeOf : c.MadeOf policy (Entry.inTurn converters policy c.entries cursor)
    (c.decode converters policy cursor).1 where
  defined _ := Option.isSome_map
  contributes i e contribution he h := by
    rw [Entry.inTurn, he] at h
    exact Entry.decode_of (Option.some.inj h)
  eq_ok v := by
    rw [decode_eq]
    refine bind_eq_ok.trans ?_
    simp only [Entry.decodeAll_eq_ok]

/-- A group is decoded as the catalog that it was made of. -/
theorem decode_asGroup (c : Catalog) (cursor : Cursor) :
    (c.asGroup.decode converters policy cursor).1 = (c.decode converters policy cursor).1 := by
  rw [decode_eq, decode_eq, asGroup, Entry.decodeAll_withKey]

end Catalog

/-- A value is decoded from a whole row, or as that of a column group, from wherever the row has
been read to. -/
inductive Group.Decodes (g : Group) (converters : Converters) (policy : DecodePolicy) :
    Cursor → Except DecodeError Value → Prop
  | row {row : List (Option Value)} (h : (row.length : Int) = g.width) :
    g.Decodes converters policy (.ofRow row) (g.decodeRow converters policy row)
  | group (c : Cursor) : g.Decodes converters policy c (g.asGroup.decode converters policy c).1

/-- Both ways a record is made of what its entries contribute in their turns. -/
theorem Catalog.madeOf_of_decodes {c : Catalog} {cursor : Cursor}
    {decoded : Except DecodeError Value}
    (h : (Group.record c).Decodes converters policy cursor decoded) :
    c.MadeOf policy (Entry.inTurn converters policy c.entries cursor) decoded := by
  cases h with
  | @row row h =>
    have hwidth : ((row.length : Int) == (Group.record c).width) = true := by
      rw [h]
      exact beq_self_eq_true _
    rw [Group.decodeRow, if_pos hwidth, Group.decode]
    exact decode_madeOf
  | group =>
    rw [Group.asGroup, Group.decode, decode_asGroup]
    exact decode_madeOf

end RowSchema
