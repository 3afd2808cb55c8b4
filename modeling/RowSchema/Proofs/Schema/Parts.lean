import RowSchema.Proofs.Decode.Match
import RowSchema.Proofs.Schema.Plans

/-! # Parts of plans

The column groups of a plan, at any depth, are catalogs that were composed on their own and then
made groups. So what is true of whatever composes, and stays true of a group, is true of every plan.
One such fact is that the cases of an enum have different names. -/

namespace RowSchema

/-- A catalog itself, and its column groups at any depth. -/
inductive Group.HasPart (g : Group) : Group → Prop
  | self : HasPart g g
  | members {part members : Group} {e : Entry} (h : HasPart g part) (he : e ∈ part.entries)
      (hm : e.members = some members) : HasPart g members

/-- A part that is not the whole is one of the members of an entry. -/
theorem Group.HasPart.cases_head {g part : Group} (h : g.HasPart part) :
    part = g ∨ ∃ e ∈ g.entries, ∃ members, e.members = some members ∧ members.HasPart part := by
  induction h with
  | self => exact .inl rfl
  | members _ he hm ih =>
    obtain rfl | ⟨e', he', members', hm', hpart⟩ := ih
    · exact .inr ⟨_, he, _, hm, .self⟩
    · exact .inr ⟨e', he', members', hm', hpart.members he hm⟩

theorem Group.HasPart.of_members {g members part : Group} {e : Entry} (he : e ∈ g.entries)
    (hm : e.members = some members) (h : members.HasPart part) : g.HasPart part := by
  induction h with
  | self => exact .members .self he hm
  | members _ he' hm' ih => exact ih.members he' hm'

/-- The members of a group are those of the catalog that was made a group. -/
theorem Group.mem_entries_asGroup {g : Group} {e : Entry} (he : e ∈ g.asGroup.entries) :
    ∃ e' ∈ g.entries, e'.members = e.members := by
  cases g with
  | record c =>
    obtain ⟨e', he', rfl⟩ := List.mem_map.mp he
    exact ⟨e', he', rfl⟩
  | enum c => exact ⟨e, he, rfl⟩

variable {registry : Registry} {settings : Options} {r : Record}

/-! ## What every plan has -/

section Parts

variable {Q : Group → Prop}

/-- The property holds of all parts of a result's catalog and of its draft's. -/
structure Derived.AllParts (Q : Group → Prop) (x : Derived) : Prop where
  catalog : ∀ part, x.catalog.HasPart part → Q part
  draft : ∀ draft, x.draft = some draft → ∀ part, (Group.record draft.catalog).HasPart part → Q part

variable (hcatalog : ∀ registry settings G r x, Composes registry settings G r x → Q x.catalog)
  (hdraft : ∀ registry settings G r x draft, Composes registry settings G r x →
    x.draft = some draft → Q (.record draft.catalog))
  (hgroup : ∀ g, Q g → Q g.asGroup)

include hcatalog hdraft hgroup

theorem Composes.allParts {x : Derived}
    (h : Composes registry settings (fun _ y => y.AllParts Q) r x) : x.AllParts Q := by
  have hmembers : ∀ e ∈ x.catalog.entries, ∀ members, e.members = some members →
      ∀ part, members.HasPart part → Q part := by
    intro e he members hm part hpart
    obtain ⟨member, y, -, hy, rfl⟩ := h.entries_members he hm
    rcases hpart.cases_head with rfl | ⟨e', he', members', hm', hpart⟩
    · exact hgroup _ (hy.catalog _ .self)
    · obtain ⟨e'', he'', heq⟩ := Group.mem_entries_asGroup he'
      exact hy.catalog part (.of_members he'' (heq.trans hm') hpart)
  refine ⟨?_, ?_⟩
  · intro part hpart
    rcases hpart.cases_head with rfl | ⟨e, he, members, hm, hpart⟩
    · exact hcatalog _ _ _ _ _ h
    · exact hmembers e he members hm part hpart
  · intro draft hd part hpart
    rcases hpart.cases_head with rfl | ⟨e', he', members, hm, hpart⟩
    · exact hdraft _ _ _ _ _ draft h hd
    · obtain ⟨specs, spans, parameter, e, he, hentry⟩ := h.mem_draft hd he'
      exact hmembers e he members ((Draft.ofEntry_members hentry).symm.trans hm) part hpart

/-- What holds of every catalog that composes, and of every group made of such a catalog, holds of
every plan. -/
theorem Schema.Plan.of_composes {s : Schema} (hs : s.Reachable) {g : Group} (hg : s.Plan g) :
    Q g := by
  have hparts := (hs.results fun _ _ _ _ => Composes.allParts hcatalog hdraft hgroup).2
  suffices h : ∀ part, g.HasPart part → Q part from h g .self
  induction hg with
  | catalog h => exact (hparts _ _ h).catalog
  | draft h hd => exact (hparts _ _ h).draft _ hd
  | members _ he hm ih => exact fun part hpart => ih part (.of_members he hm hpart)

end Parts

/-! ## Names of cases -/

/-- The name of a case that is resolved. -/
def Resolved.name? (resolved : Resolved) : Option String := resolved.1.map (·.name)

theorem ColumnSpec.ofCase_name {c : Case} {resolved : Resolved}
    (h : ColumnSpec.ofCase c = .ok resolved) {name : String} (hname : resolved.name? = some name) :
    name = c.name := by
  unfold ColumnSpec.ofCase at h
  dsimp only at h
  split at h
  · cases h
    cases hname
  · split at h
    · obtain ⟨span, -, h⟩ := bind_eq_ok.mp h
      cases h
      cases hname
    · obtain ⟨found, -, h⟩ := bind_eq_ok.mp h
      cases h
      exact (Option.some.inj hname).symm

/-- Of several cases with one name only the first is resolved. -/
theorem EnumOutline.nodup_resolveCases : ∀ {cases : List Case} {seen : List String}
    {resolved : List Resolved},
    List.Forall₂ (fun case answer => case = .ok answer) (EnumOutline.resolveCases r seen cases)
      resolved →
    (resolved.filterMap Resolved.name?).Nodup ∧
      ∀ name ∈ resolved.filterMap Resolved.name?, name ∉ seen
  | [], seen, resolved, h => by
    cases h
    simp
  | c :: rest, seen, _, h => by
    rw [EnumOutline.resolveCases] at h
    cases h with
    | @cons _ answer _ answers hanswer hrest =>
      obtain ⟨hnodup, hfresh⟩ := EnumOutline.nodup_resolveCases hrest
      have hrestfresh : ∀ name ∈ answers.filterMap Resolved.name?, name ∉ seen :=
        fun name hname hseen => hfresh name hname (List.mem_cons_of_mem _ hseen)
      cases hname : answer.name? with
      | none =>
        rw [List.filterMap_cons_none hname]
        exact ⟨hnodup, hrestfresh⟩
      | some name =>
        rw [List.filterMap_cons_some hname]
        split at hanswer
        · cases hanswer
          cases hname
        · rename_i hseen
          obtain rfl := ColumnSpec.ofCase_name hanswer hname
          refine ⟨List.nodup_cons.mpr ⟨?_, hnodup⟩, ?_⟩
          · intro hmem
            exact hfresh _ hmem List.mem_cons_self
          · intro other hother
            rcases List.mem_cons.mp hother with rfl | hother
            · simpa using hseen
            · exact hrestfresh other hother

/-- The entries of an enum have the names of resolved cases, in order. -/
theorem EnumOutline.entries_names (pairs : List (Resolved × Resolution)) :
    ∀ seen : Dictionary String String, List.Sublist
      ((EnumOutline.entries seen pairs).1.map (·.name))
      ((pairs.map (·.1)).filterMap Resolved.name?) := by
  induction pairs with
  | nil =>
    intro seen
    exact .slnil
  | cons first rest ih =>
    intro seen
    obtain ⟨⟨spec, before⟩, resolution⟩ := first
    cases spec with
    | none =>
      rw [EnumOutline.entries]
      exact ih seen
    | some spec =>
      rw [EnumOutline.entries.eq_def]
      dsimp only
      -- a case is left out if its members or its column name cannot be used
      split
      · exact (ih _).cons _
      · exact (ih _).cons_cons _
      · split
        · exact (ih _).cons _
        · exact (ih _).cons_cons _

theorem Composes.distinct {G : Record → Derived → Prop} {x : Derived}
    (h : Composes registry settings G r x) {c : EnumCatalog} (hc : x.catalog = .enum c) :
    c.Distinct := by
  cases h with
  | struct => cases hc
  | @enum pairs _ _ _ _ resolved built =>
    cases hc
    have hcat : ((EnumOutline.ofRecord settings r).catalog r (pairs.map (Prod.map id .ok))).1 =
        c := congrArg Prod.fst built
    have hcases : List.Forall₂ (fun case answer => case = .ok answer)
        (EnumOutline.resolveCases r [] r.cases) (pairs.map (·.1)) := by
      rw [List.forall₂_map_right_iff]
      exact resolved.imp fun _ _ h => h.1
    have hnames := EnumOutline.entries_names (pairs.map (Prod.map id .ok)) []
    rw [List.map_map] at hnames
    rw [← hcat]
    exact (EnumOutline.nodup_resolveCases hcases).1.sublist hnames

theorem Schema.Plan.distinct {s : Schema} (hs : s.Reachable) {c : EnumCatalog}
    (hg : s.Plan (.enum c)) : c.Distinct := by
  refine Schema.Plan.of_composes (Q := fun g => ∀ c, g = .enum c → c.Distinct) ?_ ?_ ?_ hs hg c rfl
  · intro registry settings G r x h c
    exact h.distinct
  · intro registry settings G r x draft h hd c hc
    cases hc
  · intro g h c hc
    cases g with
    | record => cases hc
    | enum c' =>
      cases hc
      exact h c' rfl

end RowSchema
