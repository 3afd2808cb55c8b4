import RowSchema.Proofs.Decode.Position

/-! # Errors of a decode

A decode of a sized catalog, from a cursor that has room for it, never reads past the end of the
row: whatever it fails with is a missing column, a missing cell, a default without a value, or what
a conversion raised. -/

namespace RowSchema

/-- Every error of the decoder itself is about the content of the row; any other one was raised. -/
def DecodeError.Explained (converters : Converters) : DecodeError → Prop
  | .missing _ _ | .noCell _ | .defaultNotEvaluable _ _ => True
  | error => converters.Raise error

variable {converters : Converters} {policy : DecodePolicy}

theorem Converters.Raise.explained {error : DecodeError} (h : converters.Raise error) :
    error.Explained converters := by
  cases error <;> first | exact h | trivial

theorem Column.read_explained {column : Column} {c : Cursor} {error : DecodeError}
    (hroom : 1 ≤ c.remaining) (h : (column.read converters c).1 = .error error) :
    error.Explained converters := by
  obtain ⟨position, rest⟩ := c
  match rest with
  | [] => simp [Cursor.remaining] at hroom
  | none :: rest => cases h; trivial
  | some cell :: rest => exact (convert_raise h).explained

theorem Column.settle_explained {column : Column} {value : Value} {absent : List String}
    {error : DecodeError} (h : column.settle value absent = .error error) :
    error.Explained converters := by
  unfold Column.settle at h
  split at h
  · split at h
    · split at h
      · cases h
      · cases h; trivial
    · split at h <;> cases h
  · cases h

theorem assemble_explained {maker : Option Maker} {typeName : String}
    {contributions : List Contribution} {error : DecodeError}
    (h : assemble maker policy typeName contributions = .error error) :
    error.Explained converters := by
  unfold assemble at h
  split at h
  · cases h
  · cases h; trivial

theorem EnumCatalog.finish_explained {catalog : EnumCatalog} {matched : Option (String × Value)}
    {error : DecodeError} (h : catalog.finish policy matched = .error error) :
    error.Explained converters := by
  unfold EnumCatalog.finish at h
  split at h
  · cases h
  · cases h; trivial

mutual

theorem Group.decode_explained : ∀ (g : Group) (c : Cursor) (error : DecodeError), g.Sized →
    g.width ≤ c.remaining → (g.decode converters policy c).1 = .error error →
    error.Explained converters
  | .record catalog, c, error, hs, hroom, h => by
    rw [Group.decode] at h
    exact Catalog.decode_explained catalog c error hs hroom h
  | .enum catalog, c, error, hs, hroom, h => by
    rw [Group.decode] at h
    exact EnumCatalog.decode_explained catalog c error hs hroom h

theorem Catalog.decode_explained : ∀ (g : Catalog) (c : Cursor) (error : DecodeError), g.Sized →
    g.width ≤ c.remaining → (g.decode converters policy c).1 = .error error →
    error.Explained converters
  | ⟨typeName, entries, table, schema, maker⟩, c, error, hs, hroom, h => by
    rw [Catalog.Sized] at hs
    rw [Catalog.decode] at h
    split at h
    · rename_i error' c' hd
      cases h
      exact Entry.decodeAll_explained entries c error hs hroom (congrArg Prod.fst hd)
    · exact assemble_explained h

theorem Entry.decodeAll_explained : ∀ (entries : List Entry) (c : Cursor) (error : DecodeError),
    Entry.AllSized entries → Entry.totalWidth entries ≤ c.remaining →
    (Entry.decodeAll converters policy entries c).1 = .error error → error.Explained converters
  | [], c, error, _, _, h => by
    rw [Entry.decodeAll] at h
    cases h
  | e :: rest, c, error, hs, hroom, h => by
    rw [Entry.AllSized] at hs
    have hrest := hs.2.width_nonneg
    rw [Entry.totalWidth] at hroom
    rw [Entry.decodeAll] at h
    split at h
    · rename_i error' c' hd
      cases h
      exact Entry.decode_explained e c error hs.1 (by omega) (congrArg Prod.fst hd)
    · rename_i contribution c' hd
      have hmoves := Entry.decode_moves e c hs.1 (by omega) (by rw [hd]; exact settled_ok _)
      rw [hd] at hmoves
      split at h
      · rename_i error' c'' hr
        cases h
        exact Entry.decodeAll_explained rest c' error hs.2 (hmoves.room hroom)
          (congrArg Prod.fst hr)
      · cases h

theorem Entry.decode_explained : ∀ (e : Entry) (c : Cursor) (error : DecodeError), e.Sized →
    e.width ≤ c.remaining → (e.decode converters policy c).1 = .error error →
    error.Explained converters
  | ⟨column, none⟩, c, error, hs, hroom, h => by
    rw [Entry.Sized] at hs
    rw [Entry.width, hs] at hroom
    rw [Entry.decode] at h
    split at h
    · rename_i error' c' hd
      cases h
      exact Column.read_explained (by omega) (congrArg Prod.fst hd)
    · exact Column.settle_explained h
  | ⟨column, some members⟩, c, error, hs, hroom, h => by
    rw [Entry.Sized] at hs
    rw [Entry.width, hs.1] at hroom
    rw [Entry.decode] at h
    split at h
    · dsimp only at h
      exact Column.settle_explained h
    · rename_i error' c' _ hd
      cases h
      exact Group.decode_explained members c error hs.2 hroom (congrArg Prod.fst hd)
    · exact Column.settle_explained h

theorem EnumCatalog.decode_explained : ∀ (g : EnumCatalog) (c : Cursor) (error : DecodeError),
    g.Sized → g.width ≤ c.remaining → (g.decode converters policy c).1 = .error error →
    error.Explained converters
  | ⟨typeName, cases, table, schema, maker⟩, c, error, hs, hroom, h => by
    rw [EnumCatalog.Sized] at hs
    rw [EnumCatalog.decode] at h
    split at h
    · rename_i error' c' hd
      cases h
      exact CaseEntry.decodeAll_explained cases c error hs hroom (congrArg Prod.fst hd)
    · exact EnumCatalog.finish_explained h

theorem CaseEntry.decodeAll_explained : ∀ (cases : List CaseEntry) (c : Cursor)
    (error : DecodeError), CaseEntry.AllSized cases → CaseEntry.totalWidth cases ≤ c.remaining →
    (CaseEntry.decodeAll converters policy cases c).1 = .error error → error.Explained converters
  | [], c, error, _, _, h => by
    rw [CaseEntry.decodeAll] at h
    cases h
  | k :: rest, c, error, hs, hroom, h => by
    rw [CaseEntry.AllSized] at hs
    have hrest := hs.2.width_nonneg
    rw [CaseEntry.totalWidth] at hroom
    rw [CaseEntry.decodeAll] at h
    split at h
    · rename_i error' c' hd
      cases h
      exact CaseEntry.decode_explained k c error hs.1 (by omega) (congrArg Prod.fst hd)
    · rename_i value c' hd
      have hmoves := CaseEntry.decode_moves k c hs.1 (by omega) (by rw [hd]; exact settled_ok _)
      rw [hd] at hmoves
      split at h
      · rename_i error' c'' hr
        cases h
        exact CaseEntry.decodeAll_explained rest c' error hs.2 (hmoves.room hroom)
          (congrArg Prod.fst hr)
      · cases h

theorem CaseEntry.decode_explained : ∀ (k : CaseEntry) (c : Cursor) (error : DecodeError),
    k.Sized → k.width ≤ c.remaining → (k.decode converters policy c).1 = .error error →
    error.Explained converters
  | ⟨_, _, none⟩, c, error, _, _, h => by
    rw [CaseEntry.decode] at h
    cases h
  | ⟨_, _, some ⟨column, none⟩⟩, c, error, hs, hroom, h => by
    rw [CaseEntry.Sized, Entry.Sized] at hs
    simp only [CaseEntry.width, Entry.width, Option.map_some, Option.getD_some, hs] at hroom
    rw [CaseEntry.decode] at h
    split at h
    · rename_i error' c' hd
      cases h
      exact Column.read_explained (by omega) (congrArg Prod.fst hd)
    · cases h
  | ⟨_, _, some ⟨column, some members⟩⟩, c, error, hs, hroom, h => by
    rw [CaseEntry.Sized, Entry.Sized] at hs
    simp only [CaseEntry.width, Entry.width, Option.map_some, Option.getD_some, hs.1] at hroom
    rw [CaseEntry.decode] at h
    split at h
    · cases h
    · rename_i error' c' _ hd
      cases h
      exact Group.decode_explained members c error hs.2 hroom (congrArg Prod.fst hd)
    · cases h

end

end RowSchema
