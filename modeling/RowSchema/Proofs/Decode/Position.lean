import RowSchema.Decode
import RowSchema.Proofs.Catalog.Width

/-! # Where a decode leaves the row

A decode that gives a value, or reports missing columns, has read the full width of its catalog,
except for the cells after one whose conversion reports missing columns itself: such a report ends
the record or the enum that the cell is in, and what encloses that goes on with the cells that are
left. -/

namespace RowSchema

namespace Cursor

/-- The cursor `n` cells further on. -/
def skip (c : Cursor) (n : Nat) : Cursor := ⟨c.position + n, c.rest.drop n⟩

@[simp] theorem skip_zero (c : Cursor) : c.skip 0 = c := rfl

@[simp] theorem skip_skip (c : Cursor) (m n : Nat) : (c.skip m).skip n = c.skip (m + n) := by
  simp [skip, List.drop_drop, Nat.add_assoc]

@[simp] theorem remaining_skip (c : Cursor) (n : Nat) :
    (c.skip n).remaining = c.remaining - n := by
  simp [skip, remaining]

@[simp] theorem position_skip (c : Cursor) (n : Nat) : (c.skip n).position = c.position + n := rfl

end Cursor

/-- Whether the error says that columns are missing. -/
def DecodeError.isMissing : DecodeError → Bool
  | .missing _ _ => true
  | _ => false

theorem DecodeError.isMissing_eq_false {error : DecodeError}
    (h : ∀ columns typeName, error ≠ .missing columns typeName) : error.isMissing = false := by
  cases error with
  | missing columns typeName => exact absurd rfl (h columns typeName)
  | _ => rfl

/-- Some conversion raises the error. -/
def Converters.Raise (converters : Converters) (error : DecodeError) : Prop :=
  ∃ t conversion cell, converters t = some conversion ∧ conversion cell = .error error

/-- No conversion reports missing columns: it gives a value, or another error. -/
def Converters.NeverMissing (converters : Converters) : Prop :=
  ∀ error, converters.Raise error → error.isMissing = false

/-- The outcome is a value or missing columns. A group goes on after these, and only these. -/
def Settled {α : Type} (outcome : Except DecodeError α) : Prop :=
  ∀ error, outcome = .error error → error.isMissing = true

theorem settled_ok {α : Type} (a : α) : Settled (.ok a : Except DecodeError α) := by
  intro error h
  cases h

theorem settled_missing {α : Type} (columns : List String) (typeName : Option String) :
    Settled (.error (.missing columns typeName) : Except DecodeError α) := by
  intro error h
  cases h
  rfl

/-- An error is settled whatever would have been given in its place. -/
theorem Settled.error {α β : Type} {error : DecodeError}
    (h : Settled (.error error : Except DecodeError α)) :
    Settled (.error error : Except DecodeError β) := by
  intro error' he
  cases he
  exact h error rfl

/-! ## Single cells -/

variable {converters : Converters} {policy : DecodePolicy}

theorem convert_raise {types : List (Option TypeRef)} {cell : Value} {error : DecodeError}
    (h : convert converters types cell = .error error) : converters.Raise error := by
  unfold convert at h
  split at h
  · cases h
  · split at h
    · rename_i conversion hfind
      obtain ⟨t, -, ht⟩ := List.exists_of_findSome?_eq_some hfind
      obtain ⟨t, rfl, ht⟩ := Option.bind_eq_some_iff.mp ht
      exact ⟨t.name, conversion, cell, ht, h⟩
    · cases h

/-- A cell that is there is passed, whatever its conversion says. -/
theorem readCell_moves {types : List (Option TypeRef)} {c : Cursor} (hroom : 1 ≤ c.remaining)
    (h : Settled (readCell converters types c).1) :
    (readCell converters types c).2 = c.skip 1 := by
  obtain ⟨position, rest⟩ := c
  cases rest with
  | nil => simp [Cursor.remaining] at hroom
  | cons cell rest =>
    cases cell with
    | none =>
      have := h _ rfl
      simp [DecodeError.isMissing] at this
    | some cell => simp [readCell, Cursor.skip]

theorem readCell_not_missing (hc : converters.NeverMissing) {types : List (Option TypeRef)}
    {c : Cursor} {error : DecodeError} (h : (readCell converters types c).1 = .error error) :
    error.isMissing = false := by
  unfold readCell at h
  split at h
  · cases h; rfl
  · cases h; rfl
  · exact hc error (convert_raise h)

theorem Column.settle_not_missing {column : Column} {value : Value} {absent : List String}
    {error : DecodeError} (h : column.settle value absent = .error error) :
    error.isMissing = false := by
  unfold Column.settle at h
  split at h
  · split at h
    · split at h
      · cases h
      · cases h; rfl
    · split at h <;> cases h
  · cases h

/-! ## Cells that are left -/

mutual

/-- How many cells of its width a decode leaves: those that follow a failing cell in the record or
enum that the cell is in. -/
def Group.unread (converters : Converters) (policy : DecodePolicy) : Group → Cursor → Nat
  | .record catalog, c => catalog.unread converters policy c
  | .enum catalog, c => catalog.unread converters policy c

def Catalog.unread (converters : Converters) (policy : DecodePolicy) : Catalog → Cursor → Nat
  | { entries, .. }, c => Entry.unreadAll converters policy entries c

def Entry.unreadAll (converters : Converters) (policy : DecodePolicy) :
    List Entry → Cursor → Nat
  | [], _ => 0
  | e :: rest, c =>
    e.unread converters policy c + match e.decode converters policy c with
      | (.error _, _) => (Entry.totalWidth rest).toNat
      | (.ok _, c) => Entry.unreadAll converters policy rest c

def Entry.unread (converters : Converters) (policy : DecodePolicy) : Entry → Cursor → Nat
  | ⟨_, none⟩, _ => 0
  | ⟨_, some members⟩, c => members.unread converters policy c

def EnumCatalog.unread (converters : Converters) (policy : DecodePolicy) :
    EnumCatalog → Cursor → Nat
  | { cases, .. }, c => CaseEntry.unreadAll converters policy cases c

def CaseEntry.unreadAll (converters : Converters) (policy : DecodePolicy) :
    List CaseEntry → Cursor → Nat
  | [], _ => 0
  | k :: rest, c =>
    k.unread converters policy c + match k.decode converters policy c with
      | (.error _, _) => (CaseEntry.totalWidth rest).toNat
      | (.ok _, c) => CaseEntry.unreadAll converters policy rest c

def CaseEntry.unread (converters : Converters) (policy : DecodePolicy) :
    CaseEntry → Cursor → Nat
  | { payload := none, .. }, _ => 0
  | { payload := some e, .. }, c => e.unread converters policy c

end

/-- A reading from `c` goes over `width` cells, except for those that it leaves unread. It leaves
some only where a conversion reports missing columns. -/
structure Moves {α : Type} (reading : Reading α) (c : Cursor) (width : Int) (unread : Nat)
    (converters : Converters) : Prop where
  exists_skip : ∃ n : Nat, reading.2 = c.skip n ∧ (n : Int) + unread = width
  unread_eq_zero : converters.NeverMissing → unread = 0

namespace Moves

variable {α β : Type} {reading : Reading α} {more : Reading β} {c : Cursor} {w w' : Int}
  {u u' : Nat}

theorem stay {outcome : Except DecodeError α} (c : Cursor) :
    Moves (outcome, c) c 0 0 converters :=
  ⟨⟨0, rfl, rfl⟩, fun _ => rfl⟩

/-- Only where the reading ends matters, not what it gives. -/
theorem of_eq (h : Moves reading c w u converters) (he : more.2 = reading.2) :
    Moves more c w u converters :=
  ⟨by rw [he]; exact h.exists_skip, h.unread_eq_zero⟩

theorem room (h : Moves reading c w u converters) (hroom : w + w' ≤ c.remaining) :
    w' ≤ reading.2.remaining := by
  obtain ⟨n, hn, hw⟩ := h.exists_skip
  rw [hn, Cursor.remaining_skip]
  omega

theorem trans (h : Moves reading c w u converters)
    (h' : Moves more reading.2 w' u' converters) :
    Moves more c (w + w') (u + u') converters := by
  obtain ⟨n, hn, hw⟩ := h.exists_skip
  obtain ⟨m, hm, hw'⟩ := h'.exists_skip
  refine ⟨⟨n + m, ?_, ?_⟩, ?_⟩
  · rw [hm, hn, Cursor.skip_skip]
  · push_cast
    omega
  · intro hc
    rw [h.unread_eq_zero hc, h'.unread_eq_zero hc]

/-- A reading that ends early leaves all that was to follow. -/
theorem stop (h : Moves reading c w u converters) (hw' : 0 ≤ w')
    (hnot : ¬ converters.NeverMissing) :
    Moves (Except.error (ε := DecodeError) (α := β) error, reading.2) c (w + w') (u + w'.toNat)
      converters := by
  obtain ⟨n, hn, hw⟩ := h.exists_skip
  refine ⟨⟨n, hn, ?_⟩, fun hc => absurd hc hnot⟩
  push_cast
  omega

end Moves

theorem Column.read_not_missing (hc : converters.NeverMissing) {column : Column} {c : Cursor}
    {error : DecodeError} (h : (column.read converters c).1 = .error error) :
    error.isMissing = false :=
  readCell_not_missing hc h

/-- Of an entry only a conversion can say that columns are missing. -/
theorem Entry.decode_not_missing (hc : converters.NeverMissing) {e : Entry} {c : Cursor}
    {error : DecodeError} (h : (e.decode converters policy c).1 = .error error) :
    error.isMissing = false := by
  obtain ⟨column, members⟩ := e
  cases members with
  | none =>
    rw [Entry.decode] at h
    split at h
    · rename_i hread
      cases h
      exact Column.read_not_missing hc (congrArg Prod.fst hread)
    · exact Column.settle_not_missing h
  | some members =>
    rw [Entry.decode] at h
    split at h
    · dsimp only at h
      exact Column.settle_not_missing h
    · rename_i failure _ hne _
      cases h
      exact DecodeError.isMissing_eq_false hne
    · exact Column.settle_not_missing h

/-- Of a case only a conversion can say that columns are missing. -/
theorem CaseEntry.decode_not_missing (hc : converters.NeverMissing) {k : CaseEntry} {c : Cursor}
    {error : DecodeError} (h : (k.decode converters policy c).1 = .error error) :
    error.isMissing = false := by
  obtain ⟨name, label, payload⟩ := k
  match payload with
  | none => rw [CaseEntry.decode] at h; cases h
  | some ⟨column, none⟩ =>
    rw [CaseEntry.decode] at h
    split at h
    · rename_i hread
      cases h
      exact Column.read_not_missing hc (congrArg Prod.fst hread)
    · cases h
  | some ⟨column, some members⟩ =>
    rw [CaseEntry.decode] at h
    split at h
    · cases h
    · rename_i failure _ hne _
      cases h
      exact DecodeError.isMissing_eq_false hne
    · cases h

/-- A decode of several entries stops for no missing columns. -/
theorem Entry.decodeAll_not_missing (hc : converters.NeverMissing) {entries : List Entry}
    {c : Cursor} {error : DecodeError}
    (h : (Entry.decodeAll converters policy entries c).1 = .error error) :
    error.isMissing = false := by
  induction entries generalizing c with
  | nil =>
    rw [Entry.decodeAll] at h
    cases h
  | cons e rest ih =>
    rw [Entry.decodeAll] at h
    split at h
    · rename_i hd
      cases h
      exact Entry.decode_not_missing hc (congrArg Prod.fst hd)
    · split at h
      · rename_i hr
        cases h
        exact ih (congrArg Prod.fst hr)
      · cases h

/-- A decode of several cases stops for no missing columns. -/
theorem CaseEntry.decodeAll_not_missing (hc : converters.NeverMissing) {cases : List CaseEntry}
    {c : Cursor} {error : DecodeError}
    (h : (CaseEntry.decodeAll converters policy cases c).1 = .error error) :
    error.isMissing = false := by
  induction cases generalizing c with
  | nil =>
    rw [CaseEntry.decodeAll] at h
    cases h
  | cons k rest ih =>
    rw [CaseEntry.decodeAll] at h
    split at h
    · rename_i hd
      cases h
      exact CaseEntry.decode_not_missing hc (congrArg Prod.fst hd)
    · split at h
      · rename_i hr
        cases h
        exact ih (congrArg Prod.fst hr)
      · cases h

/-! ## Full widths -/

/-- A plain column is passed by its one cell. -/
theorem Column.read_moves (column : Column) {c : Cursor} (hroom : 1 ≤ c.remaining)
    (h : Settled (column.read converters c).1) :
    Moves (column.read converters c) c 1 0 converters :=
  ⟨⟨1, readCell_moves hroom h, rfl⟩, fun _ => rfl⟩

mutual

theorem Group.decode_moves : ∀ (g : Group) (c : Cursor), g.Sized → g.width ≤ c.remaining →
    Settled (g.decode converters policy c).1 →
    Moves (g.decode converters policy c) c g.width (g.unread converters policy c) converters
  | .record catalog, c, hs, hroom, h => by
    rw [Group.decode] at h ⊢
    rw [Group.unread]
    exact Catalog.decode_moves catalog c hs hroom h
  | .enum catalog, c, hs, hroom, h => by
    rw [Group.decode] at h ⊢
    rw [Group.unread]
    exact EnumCatalog.decode_moves catalog c hs hroom h

theorem Catalog.decode_moves : ∀ (g : Catalog) (c : Cursor), g.Sized → g.width ≤ c.remaining →
    Settled (g.decode converters policy c).1 →
    Moves (g.decode converters policy c) c g.width (g.unread converters policy c) converters
  | ⟨typeName, entries, table, schema, maker⟩, c, hs, hroom, h => by
    rw [Catalog.Sized] at hs
    rw [Catalog.decode] at h ⊢
    rw [Catalog.unread]
    have hall := Entry.decodeAll_moves entries c hs hroom
    cases hd : Entry.decodeAll converters policy entries c with
    | mk outcome c' =>
      rw [hd] at h hall
      cases outcome with
      | error error => exact (hall (Settled.error h)).of_eq rfl
      | ok contributions => exact (hall (settled_ok contributions)).of_eq rfl

theorem Entry.decodeAll_moves : ∀ (entries : List Entry) (c : Cursor), Entry.AllSized entries →
    Entry.totalWidth entries ≤ c.remaining →
    Settled (Entry.decodeAll converters policy entries c).1 →
    Moves (Entry.decodeAll converters policy entries c) c (Entry.totalWidth entries)
      (Entry.unreadAll converters policy entries c) converters
  | [], c, _, _, _ => by
    rw [Entry.decodeAll, Entry.totalWidth, Entry.unreadAll]
    exact .stay c
  | e :: rest, c, hs, hroom, h => by
    rw [Entry.AllSized] at hs
    have hrest := hs.2.width_nonneg
    rw [Entry.totalWidth] at hroom ⊢
    rw [Entry.decodeAll] at h ⊢
    rw [Entry.unreadAll]
    have hone := Entry.decode_moves e c hs.1 (by omega)
    cases hd : e.decode converters policy c with
    | mk outcome c' =>
      rw [hd] at h hone
      cases outcome with
      | error error =>
        -- the cells of the other entries are left
        refine (hone (Settled.error h)).stop hrest fun hc => ?_
        have := Entry.decode_not_missing hc (congrArg Prod.fst hd)
        rw [h error rfl] at this
        cases this
      | ok contribution =>
        have hmoved := hone (settled_ok contribution)
        have hmore := Entry.decodeAll_moves rest c' hs.2 (hmoved.room hroom)
        cases hr : Entry.decodeAll converters policy rest c' with
        | mk outcome c'' =>
          simp only [hr] at h hmore ⊢
          cases outcome with
          | error error => exact (hmoved.trans (hmore (Settled.error h))).of_eq rfl
          | ok contributions => exact (hmoved.trans (hmore (settled_ok _))).of_eq rfl

theorem Entry.decode_moves : ∀ (e : Entry) (c : Cursor), e.Sized → e.width ≤ c.remaining →
    Settled (e.decode converters policy c).1 →
    Moves (e.decode converters policy c) c e.width (e.unread converters policy c) converters
  | ⟨column, none⟩, c, hs, hroom, h => by
    rw [Entry.Sized] at hs
    rw [Entry.width, hs] at hroom ⊢
    rw [Entry.decode] at h ⊢
    rw [Entry.unread]
    have hread := @Column.read_moves converters column c (by omega)
    cases hd : column.read converters c with
    | mk outcome c' =>
      rw [hd] at h hread
      cases outcome with
      | error error => exact (hread (Settled.error h)).of_eq rfl
      | ok value => exact (hread (settled_ok value)).of_eq rfl
  | ⟨column, some members⟩, c, hs, hroom, h => by
    rw [Entry.Sized] at hs
    rw [Entry.width, hs.1] at hroom ⊢
    rw [Entry.decode] at h ⊢
    rw [Entry.unread]
    have hm := Group.decode_moves members c hs.2 hroom
    split at h
    · rename_i columns typeName c' hd
      rw [hd] at hm
      exact (hm (settled_missing columns typeName)).of_eq rfl
    · rename_i error c' hne hd
      cases error with
      | missing columns typeName => exact absurd rfl (hne columns typeName)
      | _ =>
        have := h _ rfl
        cases this
    · rename_i value c' hd
      rw [hd] at hm
      exact (hm (settled_ok value)).of_eq rfl

theorem EnumCatalog.decode_moves : ∀ (g : EnumCatalog) (c : Cursor), g.Sized →
    g.width ≤ c.remaining → Settled (g.decode converters policy c).1 →
    Moves (g.decode converters policy c) c g.width (g.unread converters policy c) converters
  | ⟨typeName, cases, table, schema, maker⟩, c, hs, hroom, h => by
    rw [EnumCatalog.Sized] at hs
    rw [EnumCatalog.decode] at h ⊢
    rw [EnumCatalog.unread]
    have hall := CaseEntry.decodeAll_moves cases c hs hroom
    cases hd : CaseEntry.decodeAll converters policy cases c with
    | mk outcome c' =>
      rw [hd] at h hall
      cases outcome with
      | error error => exact (hall (Settled.error h)).of_eq rfl
      | ok matched => exact (hall (settled_ok matched)).of_eq rfl

theorem CaseEntry.decodeAll_moves : ∀ (cases : List CaseEntry) (c : Cursor),
    CaseEntry.AllSized cases → CaseEntry.totalWidth cases ≤ c.remaining →
    Settled (CaseEntry.decodeAll converters policy cases c).1 →
    Moves (CaseEntry.decodeAll converters policy cases c) c (CaseEntry.totalWidth cases)
      (CaseEntry.unreadAll converters policy cases c) converters
  | [], c, _, _, _ => by
    rw [CaseEntry.decodeAll, CaseEntry.totalWidth, CaseEntry.unreadAll]
    exact .stay c
  | k :: rest, c, hs, hroom, h => by
    rw [CaseEntry.AllSized] at hs
    have hrest := hs.2.width_nonneg
    rw [CaseEntry.totalWidth] at hroom ⊢
    rw [CaseEntry.decodeAll] at h ⊢
    rw [CaseEntry.unreadAll]
    have hone := CaseEntry.decode_moves k c hs.1 (by omega)
    cases hd : k.decode converters policy c with
    | mk outcome c' =>
      rw [hd] at h hone
      cases outcome with
      | error error =>
        refine (hone (Settled.error h)).stop hrest fun hc => ?_
        have := CaseEntry.decode_not_missing hc (congrArg Prod.fst hd)
        rw [h error rfl] at this
        cases this
      | ok value =>
        have hmoved := hone (settled_ok value)
        have hmore := CaseEntry.decodeAll_moves rest c' hs.2 (hmoved.room hroom)
        cases hr : CaseEntry.decodeAll converters policy rest c' with
        | mk outcome c'' =>
          simp only [hr] at h hmore ⊢
          cases outcome with
          | error error => exact (hmoved.trans (hmore (Settled.error h))).of_eq rfl
          | ok matched => exact (hmoved.trans (hmore (settled_ok _))).of_eq rfl

theorem CaseEntry.decode_moves : ∀ (k : CaseEntry) (c : Cursor), k.Sized →
    k.width ≤ c.remaining → Settled (k.decode converters policy c).1 →
    Moves (k.decode converters policy c) c k.width (k.unread converters policy c) converters
  | ⟨_, _, none⟩, c, _, _, _ => by
    rw [CaseEntry.decode, CaseEntry.unread]
    exact .stay c
  | ⟨_, _, some ⟨column, none⟩⟩, c, hs, hroom, h => by
    rw [CaseEntry.Sized, Entry.Sized] at hs
    simp only [CaseEntry.width, Entry.width, Option.map_some, Option.getD_some, hs] at hroom ⊢
    rw [CaseEntry.decode] at h ⊢
    rw [CaseEntry.unread, Entry.unread]
    have hread := @Column.read_moves converters column c (by omega)
    cases hd : column.read converters c with
    | mk outcome c' =>
      rw [hd] at h hread
      cases outcome with
      | error error => exact (hread (Settled.error h)).of_eq rfl
      | ok value => exact (hread (settled_ok value)).of_eq rfl
  | ⟨_, _, some ⟨column, some members⟩⟩, c, hs, hroom, h => by
    rw [CaseEntry.Sized, Entry.Sized] at hs
    simp only [CaseEntry.width, Entry.width, Option.map_some, Option.getD_some, hs.1] at hroom ⊢
    rw [CaseEntry.decode] at h ⊢
    rw [CaseEntry.unread, Entry.unread]
    have hm := Group.decode_moves members c hs.2 hroom
    split at h
    · rename_i columns typeName c' hd
      rw [hd] at hm
      exact (hm (settled_missing columns typeName)).of_eq rfl
    · rename_i error c' hne hd
      cases error with
      | missing columns typeName => exact absurd rfl (hne columns typeName)
      | _ =>
        have := h _ rfl
        cases this
    · rename_i value c' hd
      rw [hd] at hm
      exact (hm (settled_ok value)).of_eq rfl

end

end RowSchema
