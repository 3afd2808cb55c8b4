import RowSchema.Proofs.Schema.Parts
import RowSchema.Proofs.Schema.Rows

/-! # The cases of an enum's rows

A row of an enum decodes to the first case that has a value in its own cells. Nothing in the cells
of later cases changes that, as long as they can be decoded at all. -/

namespace RowSchema

namespace Schema

/-! ## Posts

An enum with a plain payload on either side of a record, to see the results at work. -/

/-- A text, a point or a number. -/
def postRecord : Record where
  name := "Post"
  kind := .enum
  attributes := [{ name := "Table" }]
  cases := [
    { name := "text", payloads := [{ type := .string }] },
    { name := "spot", payloads := [{ type := { name := "Point" } }] },
    { name := "number", payloads := [{ type := .integer }] }]

def posts : Schema := (Schema.registerAll {} [pointRecord, postRecord]).1

theorem posts_reachable : posts.Reachable := (Reachable.empty {}).registerAll _

/-- The catalog that comes of deriving posts. -/
def postsCatalog : EnumCatalog :=
  match posts.deriveRecord postRecord with
  | (.ok { result := some { catalog := .enum c, .. }, .. }, _) => c
  | _ => { typeName := "Post", cases := [] }

theorem plan_posts : posts.Plan (.enum postsCatalog) := by
  have hcases : postsCatalog.cases ≠ [] := by
    intro h
    exact absurd (congrArg List.length h) (by decide)
  have hderive : posts.derive? (.name "Post") = some (posts.deriveRecord postRecord) := rfl
  unfold postsCatalog at hcases ⊢
  split
  · rename_i typeName record c draft policy diagnostics t hd
    rw [hd] at hderive
    exact .catalog ⟨_, t, hderive, rfl⟩
  · rename_i h
    split at hcases
    · rename_i hd
      exact absurd hd (h _ _ _ _ _ _ _)
    · exact absurd rfl hcases

variable {s : Schema} {c : EnumCatalog} {converters : Converters} {policy : DecodePolicy}

/-- A row decodes to a case and its payload by the cells up to the case alone: any other row with
these cells that has a value has the same one. The case has its payload in its own cells, and no case
before it has a value in its own. Where a row is missing columns, no case has a value, and these are
the columns of the enum. -/
theorem Plan.first_case_stable (hs : s.Reachable) (hg : s.Plan (.enum c))
    (hc : converters.NeverMissing) {row : List (Option Value)}
    (hrow : (row.length : Int) = c.width) :
    (∀ i v, c.Decodes converters policy row i v →
      FirstMatch (c.alone converters policy row) i v ∧
        ∀ row' : List (Option Value), (row'.length : Int) = c.width →
          row'.take (CaseEntry.start c.cases (i + 1)) =
            row.take (CaseEntry.start c.cases (i + 1)) →
          ∀ w, (Group.enum c).decodeRow converters policy row' = .ok w →
            c.Decodes converters policy row' i v ∧
              (Group.enum c).decodeRow converters policy row = .ok w) ∧
      (∀ columns typeName,
        (Group.enum c).decodeRow converters policy row = .error (.missing columns typeName) →
          (∀ j < c.cases.length, c.alone converters policy row j = some (.ok none)) ∧
            columns = policy.reported (c.leaves.map (·.name)) ∧ typeName = some c.typeName) ∧
      ∀ w, (Group.enum c).decodeRow converters policy row = .ok w ↔
        ∃ i k v, c.cases[i]? = some k ∧ c.Decodes converters policy row i v ∧
          w = c.make k.name v := by
  have hsized : c.Sized := hg.sized hs
  have hdistinct := hg.distinct hs
  have hmake {row : List (Option Value)} (hrow : (row.length : Int) = c.width) (w : Value) :
      (Group.enum c).decodeRow converters policy row = .ok w ↔
        ∃ i k v, c.cases[i]? = some k ∧ c.Decodes converters policy row i v ∧
          w = c.make k.name v :=
    EnumCatalog.decodeRow_eq_make hc hsized hdistinct hrow
  refine ⟨?_, ?_, hmake hrow⟩
  · intro i v h
    obtain ⟨hmatch, -⟩ := (EnumCatalog.decodes_iff hc hsized hdistinct hrow).mp h
    refine ⟨hmatch, fun row' hrow' hagree w hw => ?_⟩
    obtain ⟨i', k, v', hk, h', rfl⟩ := (hmake hrow' w).mp hw
    have hmatch' := ((EnumCatalog.decodes_iff hc hsized hdistinct hrow').mp h').1
    have hsame := hmatch.of_agree fun j hj => EnumCatalog.alone_agree hagree hj
    obtain ⟨rfl, rfl⟩ := hmatch'.unique hsame
    exact ⟨h', (hmake hrow _).mpr ⟨_, k, _, hk, h, rfl⟩⟩
  · intro columns typeName h
    rcases EnumCatalog.decodeRow_cases hc hsized hrow with
      ⟨_, _, _, -, -, -, h'⟩ | ⟨hnone, h'⟩ | ⟨_, error, -, hne, h'⟩
    · rw [h] at h'
      cases h'
    · rw [h] at h'
      cases h'
      exact ⟨hnone, rfl, rfl⟩
    · rw [h] at h'
      cases h'
      cases hne

/-- A post with a point is one whatever number comes after it. -/
theorem decodes_spot :
    postsCatalog.Decodes unconverted .failFast
      [some .null, some (.int 1), some (.int 2), some (.int 7)] 1
      (.ofFields [("x", .int 1), ("y", .int 2)]) := by
  have hrow (number : Value) :
      ([some Value.null, some (.int 1), some (.int 2), some number].length : Int) =
        postsCatalog.width := rfl
  obtain ⟨hstable, -⟩ :=
    Plan.first_case_stable posts_reachable plan_posts unconverted_neverMissing (hrow .null)
  exact ((hstable 1 _ ⟨_, rfl, rfl⟩).2 _ (hrow (.int 7)) rfl _ rfl).1

end Schema

end RowSchema
