import RowSchema.Proofs.Schema.Known

/-! # Derivations do not depend on what was derived before

While a record is derived, the members of its groups are derived and kept, and a member fails if
the derivation of its own group is still under way. So what is kept depends on who asked first.
But a record whose group is under way lies on a cycle, and so does what asks for it; a record that
composes a result reaches none. Hence every derivation finds exactly the results of `Derives`. -/

namespace RowSchema

variable {registry : Registry} {settings : Options} {r m : Record} {closed : List Key}
  {depth : Nat}

/-! ## Records under way -/

/-- There is room for the derivation of a record while those of the `closed` keys are under way. -/
structure Room (registry : Registry) (closed : List Key) (depth : Nat) (r : Record) : Prop where
  registered : registry.records.get? r.key = some r
  nodup : (r.key :: closed).Nodup
  underWay : ∀ k ∈ closed, ∃ c, registry.records.get? k = some c
  deep : registry.records.length ≤ closed.length + depth

theorem Room.start (h : registry.records.get? r.key = some r) :
    Room registry [] registry.records.length r := by
  refine ⟨h, by simp, ?_, by simp⟩
  intro k hk
  cases hk

theorem Room.keys_registered (h : Room registry closed depth r) :
    ∀ k ∈ r.key :: closed, ∃ c, registry.records.get? k = some c := by
  intro k hk
  rcases List.mem_cons.mp hk with rfl | hk
  · exact ⟨r, h.registered⟩
  · exact h.underWay k hk

/-- The records under way are never all of them. -/
theorem Room.depth_pos (h : Room registry closed depth r) : 0 < depth := by
  have hle := Registry.length_le_of_keys h.nodup h.keys_registered
  have hdeep := h.deep
  rw [List.length_cons] at hle
  omega

theorem Room.member (h : Room registry closed (depth + 1) r)
    (hm : registry.records.get? m.key = some m) (hopen : m.key ∉ r.key :: closed) :
    Room registry (r.key :: closed) depth m := by
  refine ⟨hm, List.nodup_cons.mpr ⟨hopen, h.nodup⟩, h.keys_registered, ?_⟩
  have hdeep := h.deep
  rw [List.length_cons]
  omega

/-! ## How deep groups nest -/

section Depth

variable {nested nested' : Nested}
  (h : ∀ reference m, registry.record? reference = some m → nested m = nested' m)

include h

theorem resolveGroup_congr (spec : ColumnSpec) (name : String) :
    resolveGroup registry nested r spec name = resolveGroup registry nested' r spec name := by
  unfold resolveGroup
  cases hfound : registry.record? (groupReference r spec name) with
  | none => rfl
  | some m =>
    dsimp only
    rw [h _ m hfound]

theorem deriveCached_congr :
    deriveCached registry settings nested r = deriveCached registry settings nested' r := by
  have hfield : resolveField registry nested r = resolveField registry nested' r := by
    funext spec
    unfold resolveField
    split
    · rfl
    · rfl
    · rw [resolveGroup_congr h]
  have hcase : resolveCase registry nested r = resolveCase registry nested' r := by
    funext case
    unfold resolveCase
    simp only [resolveGroup_congr h]
  unfold deriveCached deriveNew deriveRecord deriveEnum
  rw [hfield, hcase]

end Depth

/-- The bound on the depth of a derivation is never reached. -/
theorem deriveWithin_deeper (hkeyed : registry.Keyed) : ∀ {depth : Nat} {closed : List Key}
    {r : Record}, Room registry closed depth r →
    deriveWithin registry settings (depth + 1) closed r =
      deriveWithin registry settings depth closed r
  | 0, closed, r, hroom => absurd hroom.depth_pos (Nat.lt_irrefl 0)
  | depth + 1, closed, r, hroom => by
    rw [deriveWithin, deriveWithin]
    refine deriveCached_congr fun reference m hfound => ?_
    split
    · rfl
    · rename_i hopen
      have hm := hkeyed.get?_of_record? hfound
      rw [deriveWithin_deeper hkeyed (hroom.member hm (by simpa using hopen))]

/-- Any greater bound will do. -/
theorem deriveWithin_depth (hkeyed : registry.Keyed) (hr : registry.records.get? r.key = some r)
    (extra : Nat) :
    deriveWithin registry settings (registry.records.length + extra) [] r =
      deriveWithin registry settings registry.records.length [] r := by
  induction extra with
  | zero => rfl
  | succ extra ih =>
    have hroom : Room registry [] (registry.records.length + extra) r := by
      refine ⟨hr, by simp, ?_, by simp⟩
      intro k hk
      cases hk
    rw [← ih, ← deriveWithin_deeper hkeyed hroom]
    rfl

/-! ## What every derivation finds -/

/-- The derivation has the result of the record, if there is one, and reports a recursive group
only where a cycle can be reached. -/
abbrev Exact (registry : Registry) (settings : Options) (r : Record) :
    Derivation Derived → Prop :=
  Between (Derives registry settings r) (Derives registry settings r) (¬ registry.AcyclicFrom r)

/-- What is kept under a key is exact for the record of the key. -/
def Faithful (registry : Registry) (settings : Options) (k : Key) (d : Derivation Derived) :
    Prop :=
  ∃ r, registry.records.get? k = some r ∧ Exact registry settings r d

theorem Faithful.exact {d : Derivation Derived} (hr : registry.records.get? r.key = some r)
    (h : Faithful registry settings r.key d) : Exact registry settings r d := by
  obtain ⟨r', hr', h⟩ := h
  rw [hr] at hr'
  cases hr'
  exact h

/-- The records under way lead to the one that is asked for. -/
def Leads (registry : Registry) (closed : List Key) (r : Record) : Prop :=
  ∀ k ∈ closed, ∃ c, registry.records.get? k = some c ∧
    Relation.TransGen registry.Refers c r

theorem Leads.member (h : Leads registry closed r) (hr : registry.records.get? r.key = some r)
    (hm : registry.Refers r m) : Leads registry (r.key :: closed) m := by
  intro k hk
  rcases List.mem_cons.mp hk with rfl | hk
  · exact ⟨r, hr, .single hm⟩
  · obtain ⟨c, hc, hpath⟩ := h k hk
    exact ⟨c, hc, hpath.tail hm⟩

/-- A member that is under way lies on a cycle. -/
theorem Leads.cycle (h : Leads registry closed r) (hr : registry.records.get? r.key = some r)
    (hm : registry.Refers r m) (hget : registry.records.get? m.key = some m)
    (hclosed : m.key ∈ r.key :: closed) : Relation.TransGen registry.Refers m m := by
  obtain ⟨c, hc, hpath⟩ := h.member hr hm m.key hclosed
  rw [hget] at hc
  cases hc
  exact hpath

open Deriving

/-- The derivation of a record finds its result, whatever was kept before and whichever records are
under way. -/
theorem deriveWithin_exact (hkeyed : registry.Keyed) : ∀ {depth : Nat} {closed : List Key}
    {r : Record}, Room registry closed depth r → Leads registry closed r →
    Meets (Known (Faithful registry settings)) (∀ x, ¬ Derives registry settings r x)
      (Exact registry settings r) (deriveWithin registry settings depth closed r)
  | 0, closed, r, hroom, _ => absurd hroom.depth_pos (Nat.lt_irrefl 0)
  | depth + 1, closed, r, hroom, hleads => by
    rw [deriveWithin]
    have hr := hroom.registered
    refine (deriveCached_meets (Q := Faithful registry settings) ?_).mono id fun d h => h.exact hr
    have hstop : (∀ x, ¬ Composes registry settings (Derives registry settings) r x) →
        ∀ x, ¬ Derives registry settings r x := fun h x hx => h x hx.composes
    refine (deriveNew_between (H := Derives registry settings) (G := Derives registry settings)
      (N := ¬ registry.AcyclicFrom r) hstop fun m hm => ?_).mono id ?_
    · have hget := hkeyed.get?_of_refers hm
      split
      · rename_i hclosed
        have hcycle := hleads.cycle hr hm hget (by simpa using hclosed)
        refine Meets.pure ⟨?_, ?_, ?_⟩
        · intro x hx
          cases hx
        · intro x hx
          exact absurd hcycle (hx.acyclicFrom m .refl)
        · intro _ hacyclic
          exact hacyclic m (.single hm) hcycle
      · rename_i hopen
        have ih := deriveWithin_exact hkeyed (hroom.member hget (by simpa using hopen))
          (hleads.member hr hm)
        refine (ih.mono ?_ fun d hd => hd).bind fun d hd => Meets.pure ⟨hd.sound, hd.complete, ?_⟩
        · intro h x hx
          obtain ⟨y, hy⟩ := hx.of_refers hm
          exact h y hy
        · intro h
          cases h
    · intro d hd
      refine ⟨r, hr, fun x hx => .of_composes (hd.sound x hx), ?_, hd.recursive⟩
      exact fun x hx => hd.complete x hx.composes

/-! ## The same records in another registry -/

section Alike

variable {registry' : Registry} (hkeyed : registry.Keyed) (hkeyed' : registry'.Keyed)
  (halike : ∀ reference, registry.record? reference = registry'.record? reference)

include hkeyed hkeyed' halike

theorem caseGroup_alike (resolved : Resolved) :
    caseGroup registry resolved = caseGroup registry' resolved := by
  unfold caseGroup
  simp only [hkeyed.contains_eq, hkeyed'.contains_eq, halike]

theorem Composes.alike {G : Record → Derived → Prop} {x : Derived}
    (h : Composes registry settings G r x) : Composes registry' settings G r x := by
  have hresolves : ∀ spec name g, ResolvesTo registry G r spec name g →
      ResolvesTo registry' G r spec name g := by
    intro spec name g hg
    unfold ResolvesTo at hg ⊢
    rwa [halike] at hg
  cases h with
  | struct annotated kind outlined resolved built clean drafted draftClean =>
    refine .struct annotated kind outlined (resolved.imp ?_) built clean drafted draftClean
    intro spec members hmembers
    cases members with
    | none => exact hmembers
    | some g =>
      obtain ⟨name, hname, hg⟩ := hmembers
      exact ⟨name, hname, hresolves spec name g hg⟩
  | enum annotated kind resolved built clean =>
    refine .enum annotated kind (resolved.imp ?_) built clean
    rintro case ⟨pair, members⟩ ⟨hcase, hmembers⟩
    refine ⟨hcase, ?_⟩
    cases members with
    | none =>
      rw [CaseResolves, ← caseGroup_alike hkeyed hkeyed' halike]
      exact hmembers
    | some g =>
      obtain ⟨spec, name, hname, hg⟩ := hmembers
      rw [caseGroup_alike hkeyed hkeyed' halike] at hname
      exact ⟨spec, name, hname, hresolves spec name g hg⟩

theorem Derives.alike {x : Derived} (h : Derives registry settings r x) :
    Derives registry' settings r x := by
  intro P hP
  exact h P fun r x hx => hP r x (hx.alike hkeyed hkeyed' halike)

end Alike

/-! ## Schemas -/

namespace Schema

variable {s t fresh : Schema} {reference : Reference} {x : Derived}

/-- Everything that is kept is faithful to the records. -/
structure Sound (registry : Registry) (settings : Options) (s : Schema) : Prop where
  registry_eq : s.registry = registry
  settings_eq : s.settings = settings
  known : Known (Faithful registry settings) s.progress.cache

theorem Filled.sound (h : s.Filled) : s.Sound s.registry s.settings := by
  refine ⟨rfl, rfl, ?_⟩
  rw [h.cache_eq]
  intro k d hk
  cases hk

/-- The derivation of one more record. -/
theorem Sound.deriveRecord (h : s.Sound registry settings) (hkeyed : registry.Keyed)
    (hr : registry.records.get? r.key = some r) :
    (s.deriveRecord r).2.Sound registry settings ∧
      (∀ d, (s.deriveRecord r).1 = .ok d → Exact registry settings r d) ∧
      ∀ e, (s.deriveRecord r).1 = .error e → ∀ x, ¬ Derives registry settings r x := by
  obtain ⟨rfl, rfl, hknown⟩ := h
  have hleads : Leads s.registry [] r := by
    intro k hk
    cases hk
  obtain ⟨hkeep, hok, herror⟩ := deriveWithin_exact hkeyed (.start hr) hleads s.progress hknown
  exact ⟨⟨rfl, rfl, hkeep⟩, hok, herror⟩

theorem Explored.sound (h : s.Explored t) (hs : s.Filled) : t.Sound s.registry s.settings := by
  refine h.keeps ?_ ?_ hs.sound
  · intro u r hu hr
    rw [hu.registry_eq] at hr
    exact (hu.deriveRecord hs.keyed hr).1
  · intro u hu
    rw [hu.registry_eq]
    exact hs.keyed

theorem Sound.derive? (h : s.Sound registry settings)
    (hr : registry.record? reference = some r) :
    s.derive? reference = some (s.deriveRecord r) := by
  rw [Schema.derive?, h.registry_eq, hr]
  rfl

/-- Whatever was derived before, deriving a reference yields the result of its record. -/
theorem Sound.yields_iff (h : s.Sound registry settings) (hkeyed : registry.Keyed)
    (hr : registry.record? reference = some r) :
    s.Yields reference x ↔ Derives registry settings r x := by
  obtain ⟨-, hok, herror⟩ := h.deriveRecord hkeyed (hkeyed.get?_of_record? hr)
  rw [Yields, h.derive? hr]
  constructor
  · rintro ⟨d, t, hd, hx⟩
    exact (hok d (congrArg Prod.fst (Option.some.inj hd))).sound x hx
  · intro hx
    cases hd : (s.deriveRecord r).1 with
    | error e => exact absurd hx (herror e hd x)
    | ok d => exact ⟨d, _, congrArg some (Prod.ext hd rfl), (hok d hd).complete x hx⟩

/-- After any derivations a reference yields what it yields where the same records are registered
and nothing has been derived. It yields nothing where a cycle of the group graph can be reached;
where none can, no recursive group is reported for the record or for any that it reaches. -/
theorem Explored.yields_iff_fresh (hs : s.Filled) (h : s.Explored t) (hfresh : fresh.Filled)
    (hrecords : ∀ reference, s.registry.record? reference = fresh.registry.record? reference)
    (hsettings : fresh.settings = s.settings) (hr : s.registry.record? reference = some r) :
    (∀ x, t.Yields reference x ↔ fresh.Yields reference x) ∧
      (¬ s.registry.AcyclicFrom r → ∀ x, ¬ t.Yields reference x) ∧
      (s.registry.AcyclicFrom r → ∀ outcome u, t.derive? reference = some (outcome, u) →
        (∀ d, outcome = .ok d → ∀ report ∈ d.diagnostics, report.isRecursive = false) ∧
        ∀ m d, Relation.ReflTransGen s.registry.Refers r m →
          u.progress.cache.get? m.key = some d →
          ∀ report ∈ d.diagnostics, report.isRecursive = false) ∧
      ∀ extra, deriveWithin t.registry t.settings (t.registry.records.length + extra) [] r =
        deriveWithin t.registry t.settings t.registry.records.length [] r := by
  have hsound := h.sound hs
  have hget := hs.keyed.get?_of_record? hr
  refine ⟨fun x => ?_, fun hcyclic x hx => ?_, fun hacyclic outcome u hu => ?_, fun extra => ?_⟩
  · have hr' : fresh.registry.record? reference = some r := by rw [← hrecords, hr]
    rw [hsound.yields_iff hs.keyed hr, hfresh.sound.yields_iff hfresh.keyed hr', hsettings]
    constructor
    · exact Derives.alike hs.keyed hfresh.keyed hrecords
    · exact Derives.alike hfresh.keyed hs.keyed fun reference => (hrecords reference).symm
  · exact hcyclic ((hsound.yields_iff hs.keyed hr).mp hx).acyclicFrom
  · rw [hsound.derive? hr] at hu
    cases hu
    obtain ⟨hkeep, hok, -⟩ := hsound.deriveRecord hs.keyed hget
    have hplain : ∀ {m d}, s.registry.AcyclicFrom m → Exact s.registry s.settings m d →
        ∀ report ∈ d.diagnostics, report.isRecursive = false := by
      intro m d hm hd report hreport
      cases hrecursive : report.isRecursive with
      | false => rfl
      | true => exact absurd hm (hd.recursive report hreport hrecursive)
    refine ⟨fun d hd => hplain hacyclic (hok d hd), fun m d hm hd => ?_⟩
    exact hplain (hacyclic.of_reaches hm) ((hkeep.known m.key d hd).exact
      (hs.keyed.get?_of_reaches hget hm))
  · rw [hsound.registry_eq, hsound.settings_eq]
    exact deriveWithin_depth hs.keyed hget extra

/-- A table that contains itself. -/
def nodeRecord : Record where
  name := "Node"
  attributes := [{ name := "Table" }]
  fields := [
    { name := "value", type := some .integer },
    { name := "next", type := some { name := "Node", isOptional := true }
      attributes := [{ name := "Columns" }] }]

def nodes : Schema := (Schema.registerAll {} [nodeRecord]).1

theorem nodes_filled : nodes.Filled := (Filled.empty {}).registerAll _

theorem nodeRecord_cyclic : ¬ nodes.registry.AcyclicFrom nodeRecord := by
  have hedge : nodes.registry.Refers nodeRecord nodeRecord :=
    .field (by decide) (List.mem_cons_of_mem _ List.mem_cons_self) rfl rfl rfl rfl rfl
  intro h
  exact h nodeRecord .refl (.single hedge)

/-- The table yields nothing, neither at first nor once its failure has been kept. -/
theorem not_yields_node :
    (∀ x, (nodes.deriveRecord nodeRecord).2.Yields (.name "Node") x ↔
        nodes.Yields (.name "Node") x) ∧
      ∀ x, ¬ (nodes.deriveRecord nodeRecord).2.Yields (.name "Node") x := by
  have hd : nodes.derive? (.name "Node") =
      some ((nodes.deriveRecord nodeRecord).1, (nodes.deriveRecord nodeRecord).2) := rfl
  have hr : nodes.registry.record? (.name "Node") = some nodeRecord := rfl
  have h := Explored.yields_iff_fresh nodes_filled (.derive .start hd) nodes_filled (fun _ => rfl)
    rfl hr
  exact ⟨h.1, h.2.1 nodeRecord_cyclic⟩

end Schema

end RowSchema
