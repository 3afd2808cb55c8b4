import RowSchema.Proofs.Schema.Growth

/-! # Calls of a schema

Whatever is asked of a schema, in whichever order and with whichever failures, either records are
registered one after another or derivations make the cache grow. So what a registration and a
derivation each keep is kept by every run of calls. -/

namespace RowSchema

theorem Record.name_eq_of_same {a b : Record} (h : a.same b = true) : a.name = b.name := by
  simp only [Record.same, Bool.and_eq_true, beq_iff_eq] at h
  exact h.1.1.1.1.1

/-! ## Names -/

namespace Registry

variable {registry registry' : Registry} {r : Record}

/-- A name stands for a record of that name, and the name of every record stands for one. -/
structure Named (registry : Registry) : Prop where
  name_eq : ∀ n k r, registry.names.get? n = some k → registry.records.get? k = some r → r.name = n
  has_name : ∀ k r, registry.records.get? k = some r → (registry.names.get? r.name).isSome = true

theorem Named.empty : Named {} := by
  refine ⟨?_, ?_⟩
  · intro n k r h
    cases h
  · intro k r h
    cases h

/-- A record takes the place of one that is the same, and so has the same name. -/
theorem Named.register? (h : registry.Named) (hkeyed : registry.Keyed)
    (hr : registry.register? r = some registry') : registry'.Named := by
  obtain ⟨hsame, rfl⟩ := register?_eq_some hr
  refine ⟨?_, ?_⟩
  · intro n k r' hname hget
    rcases Dictionary.get?_put_eq hname with ⟨rfl, rfl⟩ | hname
    · rw [Dictionary.get?_put_self] at hget
      rw [← Option.some.inj hget]
    · rcases Dictionary.get?_put_eq hget with ⟨rfl, rfl⟩ | hget
      · obtain ⟨existing, hexisting⟩ := hkeyed.named n _ hname
        rw [← Record.name_eq_of_same (hsame existing hexisting)]
        exact h.name_eq n _ existing hname hexisting
      · exact h.name_eq n k r' hname hget
  · intro k r' hget
    rcases Dictionary.get?_put_eq hget with ⟨-, rfl⟩ | hget
    · dsimp only
      rw [Dictionary.get?_put_self]
      rfl
    · exact Dictionary.isSome_get?_put (h.has_name k r' hget) _ _

/-- The record that a name stands for has that name, also where the name is a key itself. -/
theorem Named.name_of_record? (h : registry.Named) (hkeyed : registry.Keyed) {n : String}
    (hr : registry.record? (.name n) = some r) : r.name = n := by
  obtain ⟨k, hk, hget⟩ := Option.bind_eq_some_iff.mp hr
  rw [key?] at hk
  split at hk
  · cases hk
    have hkey := hkeyed.key_eq _ r hget
    unfold Record.key at hkey
    split at hkey <;> cases hkey
    rfl
  · exact h.name_eq n k r hk hget

theorem Named.contains_iff (h : registry.Named) (hkeyed : registry.Keyed) {n : String} :
    registry.contains (.name n) = true ↔
      ∃ k r, registry.records.get? k = some r ∧ r.name = n := by
  constructor
  · intro hn
    rw [hkeyed.contains_eq, Option.isSome_iff_exists] at hn
    obtain ⟨r, hr⟩ := hn
    exact ⟨r.key, r, hkeyed.get?_of_record? hr, h.name_of_record? hkeyed hr⟩
  · rintro ⟨k, r, hget, rfl⟩
    rw [contains, key?]
    split
    · rfl
    · exact h.has_name k r hget

end Registry

namespace Schema

variable {s t : Schema} {r : Record}

/-! ## Calls -/

/-- What can be asked of a schema. -/
inductive Call where
  | parse (source : String)
  | register (r : Record)
  | decorate (attr : Attribute) (c : AnyClass)
  | derive (reference : Reference)
  | deriveAll

/-- The schema after a call, also after one that fails. -/
def after (s : Schema) : Call → Schema
  | .parse source => (s.parse source).1
  | .register r => (s.register r).toOption.getD s
  | .decorate attr c => ((s.registerClass attr c).toOption.map (·.1)).getD s
  | .derive reference => ((s.derive? reference).map (·.2)).getD s
  | .deriveAll => s.deriveAll.2

def run (s : Schema) (calls : List Call) : Schema := calls.foldl after s

@[simp] theorem run_nil (s : Schema) : s.run [] = s := rfl

@[simp] theorem run_cons (s : Schema) (call : Call) (calls : List Call) :
    s.run (call :: calls) = (s.after call).run calls := rfl

@[simp] theorem run_append (s : Schema) (calls more : List Call) :
    s.run (calls ++ more) = (s.run calls).run more :=
  List.foldl_append

/-- A call registers records, none if it fails at once, or it derives. -/
theorem after_cases (hkeyed : s.registry.Keyed) (call : Call) :
    (∃ records, s.after call = (s.registerAll records).1) ∨ s.Extends (s.after call) := by
  cases call with
  | parse source => exact .inl (s.parse_fst source)
  | register r =>
    refine .inl ?_
    rw [after]
    cases hr : s.register r with
    | error e => exact ⟨[], rfl⟩
    | ok t =>
      refine ⟨[r], ?_⟩
      rw [registerAll, hr]
      rfl
  | decorate attr c =>
    refine .inl ?_
    rw [after]
    cases hc : s.registerClass attr c with
    | error e => exact ⟨[], rfl⟩
    | ok pair =>
      refine ⟨[pair.2], ?_⟩
      rw [registerAll, (registerClass_eq_ok hc).1]
      rfl
  | derive reference =>
    refine .inr ?_
    rw [after]
    cases hd : s.derive? reference with
    | none => exact .refl s
    | some pair => exact extends_derive? hkeyed hd
  | deriveAll => exact .inr (extends_deriveAll hkeyed rfl)

/-- What is shown of schemas that come about holds after any calls. -/
theorem Reachable.run (h : s.Reachable) (calls : List Call) : (s.run calls).Reachable := by
  induction calls generalizing s with
  | nil => exact h
  | cons call calls ih =>
    refine ih ?_
    cases call with
    | parse source => exact h.parse source
    | register r =>
      rw [after]
      cases hr : s.register r with
      | error e => exact h
      | ok t => exact h.register hr
    | decorate attr c =>
      rw [after]
      cases hc : s.registerClass attr c with
      | error e => exact h
      | ok pair => exact h.registerClass hc
    | derive reference =>
      rw [after]
      cases hd : s.derive? reference with
      | none => exact h
      | some pair => exact h.derive hd
    | deriveAll => exact h.deriveAll rfl

/-! ## What calls keep -/

/-- The records and the names of a schema fit together, and only what is registered is known. -/
structure Intact (s : Schema) : Prop where
  keyed : s.registry.Keyed
  named : s.registry.Named
  stored : Known (fun k _ => ∃ r, s.registry.records.get? k = some r) s.progress.cache

theorem Intact.empty (settings : Options) : Intact { settings } := by
  refine ⟨.empty, .empty, ?_⟩
  intro k d h
  cases h

theorem Intact.register (h : s.Intact) (hr : s.register r = .ok t) : t.Intact := by
  obtain ⟨hregistry, -, hcache⟩ := register_eq_ok hr
  refine ⟨h.keyed.register? hregistry, h.named.register? h.keyed hregistry, ?_⟩
  intro k d hd
  rw [hcache] at hd
  obtain ⟨r', hr'⟩ := h.stored k d hd
  rw [(Registry.register?_eq_some hregistry).2]
  exact Option.isSome_iff_exists.mp (Dictionary.isSome_get?_put (Option.isSome_of_mem hr') _ _)

theorem Intact.extends (h : s.Intact) (ht : s.Extends t) : t.Intact := by
  obtain ⟨hregistry, -, -, hcomposed⟩ := ht
  refine ⟨hregistry ▸ h.keyed, hregistry ▸ h.named, ?_⟩
  intro k d hd
  rw [hregistry]
  rcases hcomposed k d hd with hold | ⟨r, hr, -⟩
  · exact h.stored k d hold
  · exact ⟨r, hr⟩

theorem Intact.after (h : s.Intact) (call : Call) : (s.after call).Intact := by
  rcases after_cases h.keyed call with ⟨records, hrecords⟩ | hextends
  · rw [hrecords]
    exact registerAll_keeps (fun _ _ _ h hr => h.register hr) h records
  · exact h.extends hextends

theorem Intact.run (h : s.Intact) (calls : List Call) : (s.run calls).Intact := by
  induction calls generalizing s with
  | nil => exact h
  | cons call calls ih => exact ih (h.after call)

theorem registerAll_cache (s : Schema) (records : List Record) :
    (s.registerAll records).1.progress.cache = s.progress.cache := by
  refine registerAll_keeps (P := fun t => t.progress.cache = s.progress.cache) ?_ rfl records
  intro t u r ht hr
  rw [(register_eq_ok hr).2.2, ht]

theorem grows_after (h : s.registry.Keyed) (call : Call) :
    Grows s.progress.cache (s.after call).progress.cache := by
  rcases after_cases h call with ⟨records, hrecords⟩ | hextends
  · rw [hrecords, registerAll_cache]
    exact fun _ _ h => h
  · exact hextends.grows

/-- Nothing that is known is lost or replaced, whatever is called. -/
theorem Intact.grows_run (h : s.Intact) (calls : List Call) :
    Grows s.progress.cache (s.run calls).progress.cache := by
  induction calls generalizing s with
  | nil => exact fun _ _ h => h
  | cons call calls ih => exact IsTrans.trans _ _ _ (grows_after h.keyed call) (ih (h.after call))

/-! ## Records added -/

/-- `t` is `s` with the records added in order; only the log has changed besides. -/
structure Added (s : Schema) (records : List Record) (t : Schema) : Prop where
  records_eq : t.registry.records = records.foldl (fun d r => d.put r.key r) s.registry.records
  names_eq : t.registry.names = records.foldl (fun d r => d.put r.name r.key) s.registry.names
  settings_eq : t.settings = s.settings
  cache_eq : t.progress.cache = s.progress.cache

theorem Added.nil (s : Schema) : s.Added [] s := ⟨rfl, rfl, rfl, rfl⟩

theorem Added.cons {u : Schema} {records : List Record} (hr : s.register r = .ok t)
    (h : t.Added records u) : s.Added (r :: records) u := by
  obtain ⟨hregistry, hsettings, hcache⟩ := register_eq_ok hr
  obtain ⟨hrecords, hnames, hsettings', hcache'⟩ := h
  rw [(Registry.register?_eq_some hregistry).2] at hrecords hnames
  exact ⟨hrecords, hnames, hsettings'.trans hsettings, hcache'.trans hcache⟩

/-- A record that cannot be registered leaves just those before it added. -/
theorem registerAll_eq_error {e : SchemaError} :
    ∀ {s t : Schema} {records : List Record}, s.registerAll records = (t, some e) →
    ∃ before r later, records = before ++ r :: later ∧ s.Added before t ∧ t.register r = .error e
  | s, _, [], h => by
    cases h
  | s, _, r :: records, h => by
    rw [registerAll] at h
    cases hr : s.register r with
    | error e' =>
      rw [hr] at h
      cases h
      exact ⟨[], r, records, rfl, .nil s, hr⟩
    | ok s' =>
      rw [hr] at h
      obtain ⟨before, r', later, rfl, hadded, hr'⟩ := registerAll_eq_error h
      exact ⟨r :: before, r', later, rfl, .cons hr hadded, hr'⟩

theorem register_eq_error {e : SchemaError} (h : s.register r = .error e) :
    e = .alreadyRegistered r.name := by
  unfold register at h
  split at h <;> cases h
  rfl

/-- A text is refused for what it says, or for one of its records. -/
theorem parse_eq_error {source : String} {e : SchemaError} (h : (s.parse source).2 = .error e) :
    (∃ fault, Record.readAll source = .error fault ∧ e = .source fault ∧ (s.parse source).1 = s) ∨
      ∃ before r later, Record.readAll source = .ok (before ++ r :: later) ∧
        e = .alreadyRegistered r.name ∧ (s.parse source).1.register r = .error e ∧
        s.Added before (s.parse source).1 := by
  unfold parse at h ⊢
  cases hread : Record.readAll source with
  | error fault =>
    rw [hread] at h
    cases h
    exact .inl ⟨fault, rfl, rfl, rfl⟩
  | ok records =>
    rw [hread] at h
    refine .inr ?_
    rcases hall : s.registerAll records with ⟨t, _ | e'⟩
    · simp only [hall] at h
      cases h
    · simp only [hall] at h ⊢
      cases h
      obtain ⟨before, r, later, rfl, hadded, hr⟩ := registerAll_eq_error hall
      exact ⟨before, r, later, rfl, register_eq_error hr, hr, hadded⟩

/-! ## Derivations that are known -/

/-- What has been derived is given again whenever a record of the same key is derived. -/
theorem Intact.derive?_again (h : s.Intact) {reference reference' : Reference} {r' : Record}
    {d : Derivation Derived} (hr : s.registry.record? reference = some r)
    (hd : s.derive? reference = some (.ok d, t)) {calls : List Call}
    (hr' : (t.run calls).registry.record? reference' = some r') (hkey : r'.key = r.key) :
    ∃ u, (t.run calls).derive? reference' = some (.ok d, u) := by
  have hextends : s.Extends t := extends_derive? h.keyed hd
  have hrun : s.deriveRecord r = (.ok d, t) := by
    rw [derive?, hr] at hd
    exact Option.some.inj hd
  have hknown : t.progress.cache.get? r.key = some d := by
    have := ((Extends.refl s).deriveRecord h.keyed (h.keyed.get?_of_record? hr)).2 d
    rw [hrun] at this
    exact this rfl
  have hlater := (h.extends hextends).grows_run calls _ d hknown
  rw [← hkey] at hlater
  exact ⟨_, by rw [derive?, hr', Option.map_some, deriveRecord_of_known hlater]⟩

/-- After any calls, the failing ones included: every record is under its own key; just the names of
these records are known, and stand for a record of that name; only registered records have been
derived. What has been derived once stays and is given again. A registration that fails changes
nothing; of a text that fails, the records before the one that is refused have been added. -/
theorem run_consistent (settings : Options) (calls : List Call) :
    let s := Schema.run { settings } calls
    (∀ k r, s.registry.records.get? k = some r → r.key = k) ∧
    (∀ n, (s.registry.contains (.name n) = true ↔
        ∃ k r, s.registry.records.get? k = some r ∧ r.name = n) ∧
      (s.registry.contains (.name n) = true → ∃ r, s.registry.record? (.name n) = some r) ∧
      ∀ r, s.registry.record? (.name n) = some r →
        r.name = n ∧ s.registry.records.get? r.key = some r) ∧
    (∀ k d, s.progress.cache.get? k = some d →
      (∃ r, s.registry.records.get? k = some r) ∧
        ∀ more, (s.run more).progress.cache.get? k = some d) ∧
    (∀ reference r d t, s.registry.record? reference = some r →
      s.derive? reference = some (.ok d, t) → ∀ more reference' r',
        (t.run more).registry.record? reference' = some r' → r'.key = r.key →
        ∃ u, (t.run more).derive? reference' = some (.ok d, u)) ∧
    (∀ r e, s.register r = .error e → s.after (.register r) = s) ∧
    (∀ attr c e, s.registerClass attr c = .error e → s.after (.decorate attr c) = s) ∧
    (∀ source fault, (s.parse source).2 = .error (.source fault) →
      s.after (.parse source) = s) ∧
    ∀ source name, (s.parse source).2 = .error (.alreadyRegistered name) →
      ∃ before r later, Record.readAll source = .ok (before ++ r :: later) ∧ r.name = name ∧
        (s.after (.parse source)).register r = .error (.alreadyRegistered name) ∧
        s.Added before (s.after (.parse source)) := by
  intro s
  have hs : s.Intact := (Intact.empty settings).run calls
  refine ⟨hs.keyed.key_eq, fun n => ⟨hs.named.contains_iff hs.keyed, fun hn => ?_, fun r hr => ?_⟩,
    fun k d hd => ⟨hs.stored k d hd, fun more => hs.grows_run more k d hd⟩,
    fun _ _ _ _ hr hd _ _ _ hr' hkey => hs.derive?_again hr hd hr' hkey, ?_, ?_, ?_, ?_⟩
  · rw [hs.keyed.contains_eq] at hn
    exact Option.isSome_iff_exists.mp hn
  · exact ⟨hs.named.name_of_record? hs.keyed hr, hs.keyed.get?_of_record? hr⟩
  · intro r e hr
    rw [after, hr]
    rfl
  · intro attr c e hc
    rw [after, hc]
    rfl
  · intro source fault hfault
    rcases parse_eq_error hfault with ⟨_, -, -, hsame⟩ | ⟨_, _, _, -, h, -⟩
    · exact hsame
    · cases h
  · intro source name hname
    rcases parse_eq_error hname with ⟨_, -, h, -⟩ | ⟨before, r, later, hread, h, hr, hadded⟩
    · cases h
    · cases h
      exact ⟨before, r, later, hread, rfl, hr, hadded⟩

end Schema

end RowSchema
