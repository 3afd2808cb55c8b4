import RowSchema.Proofs.Draft.Make
import RowSchema.Proofs.Schema.Drafts

/-! # Copies of rows

A row of a table that decodes has every field of the table's draft. So the draft can be copied from
it, which leaves the generated fields behind, and the values of the copy make the same draft again:
the constructor puts no default in the place of a value, nor of a null. -/

namespace RowSchema

variable {registry : Registry} {settings : Options} {r : Record}

/-- The fields of the entries that are not generated. -/
def Catalog.writableFields (c : Catalog) : List String :=
  (c.entries.filter (·.column.isWritable)).map (·.column.field)

theorem Draft.ofEntry_name {specs : List ColumnSpec} {spans : Dictionary String Span} {e : Entry}
    {pair : Entry × DraftParameter} (h : Draft.ofEntry specs spans e = .ok pair) :
    pair.2.name = e.column.field := by
  unfold Draft.ofEntry at h
  extract_lets field spec declared at h
  clear_value declared
  cases declared with
  | none => cases h
  | some type =>
    dsimp only at h
    split at h <;> cases h <;> rfl

/-- The parameters of a draft are called like the fields that it writes, and the fields of the
table like those of its record. -/
structure Derived.Copies (x : Derived) (c : Catalog) (draft : Draft) : Prop where
  maker : c.maker = x.record.maker
  fields : ∀ e ∈ c.entries, ∃ f ∈ x.record.fields, f.name = e.column.field
  parameters : draft.parameters.map (·.name) = c.writableFields

theorem Composes.copies {G : Record → Derived → Prop} {x : Derived}
    (h : Composes registry settings G r x) {c : Catalog} (hc : x.catalog = .record c)
    {draft : Draft} (hd : x.draft = some draft) : x.Copies c draft := by
  obtain ⟨-, -, hfields⟩ := h.complete.struct c hc
  cases h with
  | struct _ _ _ _ built _ drafted =>
    cases hc
    obtain rfl := hd
    refine ⟨?_, fun e he => ?_, ?_⟩
    · obtain ⟨rfl, -⟩ := Prod.mk.inj built
      rfl
    · have hmem := List.mem_map_of_mem (f := (·.column.field)) he
      rw [hfields] at hmem
      obtain ⟨f, hf, hname⟩ := List.mem_map.mp hmem
      exact ⟨f, (List.mem_filter.mp hf).1, hname⟩
    · obtain ⟨kept, hkept, -, hparameters⟩ := draftOf_kept drafted
      rw [hparameters, List.map_map, Catalog.writableFields, ← List.forall₂_eq_eq_eq,
        List.forall₂_map_left_iff, List.forall₂_map_right_iff]
      exact hkept.flip.imp fun _ _ hentry => Draft.ofEntry_name hentry
  | enum => cases hc

namespace Schema

variable {s : Schema} {reference : Reference} {x : Derived} {c : Catalog} {draft : Draft}
  {converters : Converters} {policy : DecodePolicy} {row : List (Option Value)} {v : Value}

/-- Of every row that a table without a maker decodes, its draft takes just the fields that are not
generated, each with its value and in the order of the draft. These values make the draft again. -/
theorem Yields.draft_copies (hs : s.Reachable) (hx : s.Yields reference x)
    (hc : x.catalog = .record c) (hd : x.draft = some draft) (hmaker : x.record.maker = none)
    (hself : ∀ f ∈ x.record.fields, f.name ≠ "self")
    (hv : (Group.record c).decodeRow converters policy row = .ok v) :
    ∃ fields kept, v = .ofFields fields ∧ draft.fromRecord fields = .ok kept ∧
      kept = Dictionary.restrict fields c.writableFields ∧
      Dictionary.keys kept = c.writableFields.eraseDups ∧
      draft.make kept = .ok kept := by
  obtain ⟨hcmaker, hfields, hparameters⟩ : x.Copies c draft :=
    (hs.results (P := fun x => ∀ c, x.catalog = .record c → ∀ draft, x.draft = some draft →
      x.Copies c draft) fun _ _ _ _ h c hc draft hd => h.copies hc hd).2 reference x hx c hc draft
      hd
  obtain ⟨pairs, hpairs, rfl⟩ := Catalog.decodeRow_fields hv
  have hown : ∀ name ∈ c.writableFields, name ∈ c.entries.map (·.column.field) := by
    intro name hname
    obtain ⟨e, he, rfl⟩ := List.mem_map.mp hname
    exact List.mem_map_of_mem (List.mem_filter.mp he).1
  have hself : "self" ∉ draft.parameters.map (·.name) := by
    rw [hparameters]
    intro hmem
    obtain ⟨e, he, hname⟩ := List.mem_map.mp (hown _ hmem)
    obtain ⟨f, hf, hfield⟩ := hfields e he
    exact hself f hf (hfield.trans hname)
  have hall : ∀ name ∈ c.writableFields, ((Dictionary.ofList pairs).get? name).isSome = true := by
    intro name hname
    rw [← Dictionary.has, Dictionary.has_iff_mem_keys, Dictionary.mem_keys_ofList, hpairs]
    exact hown name hname
  obtain ⟨hcopied, hmade⟩ := Draft.fromRecord_make hself
    fun p hp => hall p.name (hparameters ▸ List.mem_map_of_mem hp)
  rw [hparameters] at hcopied hmade
  refine ⟨_, _, ?_, hcopied, rfl, Dictionary.keys_restrict hall, hmade⟩
  rw [Catalog.make, hcmaker, hmaker]

/-- The number of an order is not copied. -/
theorem draft_copies_order :
    ∃ v, (Group.record orderCatalog).decodeRow unconverted .failFast
        [some (.int 7), some (.int 2), some (.int 20), some (.int 5)] = .ok v ∧
      ∃ fields kept, v = .ofFields fields ∧ orderDraft.fromRecord fields = .ok kept ∧
        Dictionary.keys kept = ["id", "line"] ∧ orderDraft.make kept = .ok kept := by
  obtain ⟨v, hv⟩ : ∃ v, (Group.record orderCatalog).decodeRow unconverted .failFast
      [some (.int 7), some (.int 2), some (.int 20), some (.int 5)] = .ok v := ⟨_, rfl⟩
  obtain ⟨fields, kept, hfields, hcopied, -, hkeys, hmade⟩ :=
    Yields.draft_copies orders_reachable yields_order rfl rfl rfl (by decide) hv
  exact ⟨v, hv, fields, kept, hfields, hcopied, hkeys, hmade⟩

end Schema

end RowSchema
