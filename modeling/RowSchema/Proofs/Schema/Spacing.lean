import RowSchema.Proofs.Reader.Spacing
import RowSchema.Proofs.Schema.Closed
import RowSchema.Proofs.Schema.Erase

/-! # Spacing has no effect

Whatever is done with a text is done in the same way with one that has the same tokens. Where the
records of one text are registered, so are those of the other one; and what is derived from them is
the same but for where the spans in it are. -/

namespace RowSchema

open RowSchema.Span (erase)

/-! ## Texts -/

theorem Record.spanned_of_readAll {source : String} {records : List Record}
    (h : Record.readAll source = .ok records)
    (hlength : (source.toList.length : Int) ≤ RangeError.longest) {r : Record} (hr : r ∈ records) :
    r.Spanned := by
  obtain ⟨span, hspan, hrecord⟩ := exists_placed_of_readAll h hr
  exact hrecord.spanned hspan hlength

theorem Record.span_eq_of_same {a b : Record} (h : a.same b = true) : a.span = b.span := by
  simp only [Record.same, Bool.and_eq_true, beq_iff_eq] at h
  exact h.2

/-- No two records of a text are the same, even if they say the same. -/
theorem Record.pairwise_of_readAll {source : String} {records : List Record}
    (h : Record.readAll source = .ok records) :
    records.Pairwise fun r q => r.same q = false := by
  obtain ⟨spans, hplaced, hbefore, hinside⟩ := recordsIn_of_readAll h
  clear h
  induction hplaced with
  | nil => exact .nil
  | @cons r span rest spans hr hrest ih =>
    obtain ⟨hfirst, hbefore⟩ := List.pairwise_cons.mp hbefore
    obtain ⟨hspan, hinside⟩ := List.forall_mem_cons.mp hinside
    refine .cons (fun q hq => ?_) (ih hbefore hinside)
    obtain ⟨other, hother, hq⟩ := exists_right_of_mem hrest hq
    by_contra hsame
    have hspans := span_eq_of_same (Bool.eq_true_of_not_eq_false hsame)
    rw [hr.span_eq, hq.span_eq] at hspans
    obtain rfl := Option.some.inj hspans
    exact absurd (Int.lt_of_lt_of_le hspan.proper (hfirst _ hother)) (Int.lt_irrefl _)

/-- No record is registered that is the same as `r`. -/
def Registry.Lacks (registry : Registry) (r : Record) : Prop :=
  ∀ m, registry.records.get? r.key = some m → m.same r = false

namespace Schema

variable {s s' t t' : Schema} {r r' : Record}

/-! ## Schemas that are the same but for spans -/

/-- The schemas are the same but for where the spans in them are. -/
def Alike (s s' : Schema) : Prop := s'.respan erase = s.respan erase

theorem Alike.get? (h : s.Alike s') (k : Key) :
    (s'.registry.records.get? k).map (Record.respan erase) =
      (s.registry.records.get? k).map (Record.respan erase) := by
  have hrecords := congrArg (fun u : Schema => u.registry.records.get? k) h
  simpa only [respan, Registry.respan, Dictionary.get?_mapValues] using hrecords

/-- The schema with one record more. -/
def add (s : Schema) (r : Record) : Schema :=
  { s with
    registry :=
      { records := s.registry.records.put r.key r, names := s.registry.names.put r.name r.key }
    progress := s.progress.note [.registered r.kind.text r.name] }

theorem register_of_absent (h : s.registry.records.get? r.key = none) :
    s.register r = .ok (s.add r) := by
  simp only [register, Registry.register?, h]
  rfl

theorem register_of_lacks (h : (s.registry.records.get? r.key).isSome = true)
    (hlacks : s.registry.Lacks r) : s.register r = .error (.alreadyRegistered r.name) := by
  obtain ⟨m, hm⟩ := Option.isSome_iff_exists.mp h
  have hdiffers : m.same r = false := hlacks m hm
  simp [register, Registry.register?, hm, hdiffers]

theorem add_respan (f : Option Span → Option Span) (s : Schema) (r : Record) :
    (s.add r).respan f = (s.respan f).add (r.respan f) := by
  simp only [add, respan, Registry.respan, Progress.respan, Progress.note, Record.key_respan,
    Dictionary.put_mapValues]
  rfl

/-- A record is registered in both schemas, or refused in both. -/
theorem Alike.register (h : s.Alike s') (hr : r'.respan erase = r.respan erase)
    (hlacks : s.registry.Lacks r) (hlacks' : s'.registry.Lacks r') :
    (s.register r = .ok (s.add r) ∧ s'.register r' = .ok (s'.add r') ∧
        (s.add r).Alike (s'.add r')) ∨
      ∃ e, s.register r = .error e ∧ s'.register r' = .error e := by
  have hkey : r'.key = r.key := by simpa using congrArg Record.key hr
  have hname : (r'.respan erase).name = (r.respan erase).name := congrArg Record.name hr
  have hname : r'.name = r.name := hname
  have hget := congrArg Option.isSome (h.get? r.key)
  rw [Option.isSome_map, Option.isSome_map] at hget
  cases hold : s.registry.records.get? r.key with
  | none =>
    rw [hold, Option.isSome_none, Option.isSome_eq_false_iff, Option.isNone_iff_eq_none] at hget
    refine .inl ⟨register_of_absent hold, register_of_absent (hkey ▸ hget), ?_⟩
    rw [Alike, add_respan, add_respan, h, hr]
  | some m =>
    rw [hold] at hget
    refine .inr ⟨.alreadyRegistered r.name, register_of_lacks (by rw [hold]; rfl) hlacks, ?_⟩
    rw [register_of_lacks (by rw [hkey, hget]; rfl) hlacks', hname]

/-- What a schema with one record more lacks. -/
theorem lacks_add {q : Record} (h : s.registry.Lacks q) (hdiffers : r.same q = false) :
    (s.add r).registry.Lacks q := by
  intro m hm
  rcases Dictionary.get?_put_eq hm with ⟨-, rfl⟩ | hm
  · exact hdiffers
  · exact h m hm

/-- Records are all registered in both schemas, or the same one is the first to be refused. -/
theorem Alike.registerAll : ∀ {records records' : List Record} {s s' : Schema}, s.Alike s' →
    records'.map (Record.respan erase) = records.map (Record.respan erase) →
    (∀ r ∈ records, s.registry.Lacks r) → (∀ r ∈ records', s'.registry.Lacks r) →
    records.Pairwise (fun r q => r.same q = false) →
    records'.Pairwise (fun r q => r.same q = false) →
    (s.registerAll records).1.Alike (s'.registerAll records').1 ∧
      (s'.registerAll records').2 = (s.registerAll records).2
  | [], records', s, s', h, hrecords, _, _, _, _ => by
    obtain rfl : records' = [] := List.map_eq_nil_iff.mp hrecords
    exact ⟨h, rfl⟩
  | r :: rest, records', s, s', h, hrecords, hlacks, hlacks', hdiffer, hdiffer' => by
    obtain ⟨r', rest', rfl, hr, hrest⟩ := List.map_eq_cons_iff.mp hrecords
    obtain ⟨hfirst, hlacks⟩ := List.forall_mem_cons.mp hlacks
    obtain ⟨hfirst', hlacks'⟩ := List.forall_mem_cons.mp hlacks'
    obtain ⟨hothers, hdiffer⟩ := List.pairwise_cons.mp hdiffer
    obtain ⟨hothers', hdiffer'⟩ := List.pairwise_cons.mp hdiffer'
    rw [Schema.registerAll, Schema.registerAll]
    rcases h.register hr hfirst hfirst' with ⟨hok, hok', hadded⟩ | ⟨e, herror, herror'⟩
    · rw [hok, hok']
      exact hadded.registerAll hrest (fun q hq => lacks_add (hlacks q hq) (hothers q hq))
        (fun q hq => lacks_add (hlacks' q hq) (hothers' q hq)) hdiffer hdiffer'
    · rw [herror, herror']
      exact ⟨h, rfl⟩

/-- Records that are all registered, and none of which was there, are found by their keys. -/
theorem get?_of_registerAll : ∀ {records : List Record} {s t : Schema},
    s.registerAll records = (t, none) → records.Pairwise (fun r q => r.same q = false) →
    (∀ k m, s.registry.records.get? k = some m → (∀ q ∈ records, m.same q = false) →
      t.registry.records.get? k = some m) ∧
    ∀ r ∈ records, t.registry.records.get? r.key = some r
  | [], s, t, h, _ => by
    cases h
    exact ⟨fun k m hm _ => hm, List.forall_mem_nil _⟩
  | r :: rest, s, t, h, hdiffer => by
    obtain ⟨hothers, hdiffer⟩ := List.pairwise_cons.mp hdiffer
    rw [Schema.registerAll] at h
    cases hr : s.register r with
    | error e =>
      rw [hr] at h
      cases h
    | ok u =>
      rw [hr] at h
      obtain ⟨hkept, hrest⟩ := get?_of_registerAll h hdiffer
      obtain ⟨hold, hregistry⟩ := Registry.register?_eq_some (register_eq_ok hr).1
      have hrecords : u.registry.records = s.registry.records.put r.key r := by rw [hregistry]
      refine ⟨fun k m hm hm' => hkept k m ?_ fun q hq => hm' q (List.mem_cons_of_mem _ hq),
        List.forall_mem_cons.mpr ⟨hkept r.key r ?_ hothers, hrest⟩⟩
      · have hk : k ≠ r.key := by
          rintro rfl
          have hsame := hm' r List.mem_cons_self
          rw [hold m hm] at hsame
          cases hsame
        rw [hrecords, Dictionary.get?_put_of_ne _ _ hk, hm]
      · rw [hrecords, Dictionary.get?_put_self]

/-! ## Derivations -/

theorem deriveRecord_erase (s : Schema) (r : Record) :
    (s.respan erase).deriveRecord (r.respan erase) =
      ((s.deriveRecord r).1.map (Derivation.respan erase), (s.deriveRecord r).2.respan erase) := by
  have hlength : (s.respan erase).registry.records.length = s.registry.records.length :=
    List.length_map _
  simp only [deriveRecord, hlength]
  have hrun := @deriveWithin_erase s.registry s.settings s.registry.records.length [] r s.progress
  exact congrArg (fun x => (x.1, { s.respan erase with progress := x.2 })) hrun

theorem derive?_erase (s : Schema) (reference : Reference) :
    (s.respan erase).derive? reference = (s.derive? reference).map fun x =>
      (x.1.map (Derivation.respan erase), x.2.respan erase) := by
  have hrecord := s.registry.record?_respan erase reference
  rw [derive?, derive?]
  cases hfound : s.registry.record? reference with
  | none =>
    rw [hfound] at hrecord
    exact congrArg (Option.map (s.respan erase).deriveRecord) hrecord
  | some r =>
    rw [hfound] at hrecord
    exact (congrArg (Option.map (s.respan erase).deriveRecord) hrecord).trans
      (congrArg some (s.deriveRecord_erase r))

theorem deriveEach_erase : ∀ (records : List Record) (s : Schema),
    (s.respan erase).deriveEach (records.map (Record.respan erase)) =
      ((s.deriveEach records).1.map (List.map (Derivation.respan erase)),
        (s.deriveEach records).2.respan erase)
  | [], _ => rfl
  | r :: rest, s => by
    rw [List.map_cons, deriveEach, deriveEach, deriveRecord_erase]
    rcases s.deriveRecord r with ⟨e | d, t⟩
    · rfl
    · dsimp only [Except.map]
      rw [deriveEach_erase rest t]
      rcases t.deriveEach rest with ⟨e | ds, u⟩ <;> rfl

theorem deriveAll_erase (s : Schema) :
    (s.respan erase).deriveAll =
      (s.deriveAll.1.map (Dictionary.mapValues (Derivation.respan erase)),
        s.deriveAll.2.respan erase) := by
  have hlist : (s.respan erase).registry.list = s.registry.list.map (Record.respan erase) := by
    simp only [Registry.list, respan, Registry.respan, Dictionary.mapValues, List.map_map]
    rfl
  have hnames : (s.registry.list.map (Record.respan erase)).map (·.name) =
      s.registry.list.map (·.name) := by
    rw [List.map_map]
    rfl
  rw [deriveAll, deriveAll, hlist, deriveEach_erase, hnames]
  rcases s.deriveEach s.registry.list with ⟨e | ds, u⟩
  · rfl
  · dsimp only [Except.map]
    rw [List.zip_map_right, ← Dictionary.ofList_mapValues]
    rfl

/-- The call derives records that are registered, and registers none. -/
def Call.Derives : Call → Prop
  | .derive _ | .deriveAll => True
  | _ => False

/-- Schemas that are the same but for spans stay so while records are derived. -/
theorem Alike.run (h : s.Alike s') {calls : List Call} (hcalls : ∀ call ∈ calls, call.Derives) :
    (s.run calls).Alike (s'.run calls) := by
  induction calls generalizing s s' with
  | nil => exact h
  | cons call calls ih =>
    obtain ⟨hcall, hcalls⟩ := List.forall_mem_cons.mp hcalls
    have hafter (u : Schema) : (u.respan erase).after call = (u.after call).respan erase := by
      cases call with
      | derive reference =>
        rw [after, after, derive?_erase, Option.map_map]
        cases u.derive? reference <;> rfl
      | deriveAll => rw [after, after, deriveAll_erase]
      | _ => exact hcall.elim
    refine ih ?_ hcalls
    rw [Alike, ← hafter, ← hafter, h]

/-! ## Texts in schemas -/

/-- No record of the text is registered as it stands there. In an empty schema this holds of every
text; it keeps out a text that is taken in once more, which is no error, as it would be with other
spacing: the same record at another place is another declaration of the name. -/
def NewTo (s : Schema) (source : String) : Prop :=
  ∀ records, Record.readAll source = .ok records → ∀ r ∈ records, s.registry.Lacks r

/-- Nothing is registered in an empty schema. -/
theorem newTo_empty (settings : Options) (source : String) : NewTo { settings } source := by
  intro records _ r _ m hm
  cases hm

/-- Where the texts are read they declare the same records but for where these stand, and else they
are refused at the same place. -/
inductive ReadAlike (source source' : String) :
    Except SourceError (List Record) → Except SourceError (List Record) → Prop
  | declared {records records' : List Record}
      (h : records'.map (Record.respan erase) = records.map (Record.respan erase)) :
      ReadAlike source source' (.ok records) (.ok records')
  | refused {e e' : SourceError} (h : SourceError.SamePlace source source' e e') :
      ReadAlike source source' (.error e) (.error e')

section

variable {source source' : String}

theorem readAlike (hsame : Token.Alike source source')
    (hlength : (source.toList.length : Int) ≤ RangeError.longest)
    (hlength' : (source'.toList.length : Int) ≤ RangeError.longest) :
    ReadAlike source source' (Record.readAll source) (Record.readAll source') := by
  rcases Record.readAll_alike hsame with ⟨records, records', hread, hread', hrecords⟩ |
    ⟨e, e', hread, hread', hplace⟩
  · rw [hread, hread']
    have hfilled {text : String} {l : List Record} (h : Record.readAll text = .ok l)
        (hlength : (text.toList.length : Int) ≤ RangeError.longest) :
        l.map (Record.respan erase) =
          (l.map Record.unplaced).map (Record.respan fun _ => some ⟨-1, 0⟩) := by
      rw [List.map_map]
      exact List.map_congr_left fun r hr => (Record.spanned_of_readAll h hlength hr).respan_erase
    refine .declared ?_
    rw [hfilled hread' hlength', hrecords, ← hfilled hread hlength]
  · rw [hread, hread']
    exact .refused hplace

/-- A text that is read is taken in if all its records are registered. -/
theorem parse_of_readAll {records : List Record} (h : Record.readAll source = .ok records) :
    (s.parse source).1 = (s.registerAll records).1 ∧
      ∀ taken, (s.parse source).2 = .ok taken ↔
        taken = records ∧ (s.registerAll records).2 = none := by
  unfold parse
  simp only [h]
  rcases s.registerAll records with ⟨t, _ | e⟩
  · exact ⟨rfl, fun taken => by simp [eq_comm]⟩
  · exact ⟨rfl, fun taken => by simp⟩

/-- The texts are both taken in or both refused, and the schemas stay the same but for spans. -/
theorem parse_alike (hsame : Token.Alike source source')
    (hlength : (source.toList.length : Int) ≤ RangeError.longest)
    (hlength' : (source'.toList.length : Int) ≤ RangeError.longest)
    (hnew : s.NewTo source) (hnew' : s.NewTo source') :
    (s.parse source).1.Alike (s.parse source').1 ∧
      ((∃ records, (s.parse source).2 = .ok records) ↔
        ∃ records, (s.parse source').2 = .ok records) := by
  have hread := readAlike hsame hlength hlength'
  cases hrecords : Record.readAll source with
  | error e =>
    rw [hrecords] at hread
    cases hrecords' : Record.readAll source' with
    | error e' => simp [parse, hrecords, hrecords', Alike]
    | ok records' =>
      rw [hrecords'] at hread
      cases hread
  | ok records =>
    rw [hrecords] at hread
    cases hrecords' : Record.readAll source' with
    | error e' =>
      rw [hrecords'] at hread
      cases hread
    | ok records' =>
      rw [hrecords'] at hread
      obtain ⟨hrespan⟩ := hread
      have hself : s.Alike s := rfl
      obtain ⟨halike, herror⟩ := hself.registerAll hrespan (hnew records hrecords)
        (hnew' records' hrecords') (Record.pairwise_of_readAll hrecords)
        (Record.pairwise_of_readAll hrecords')
      obtain ⟨hafter, htaken⟩ := parse_of_readAll (s := s) hrecords
      obtain ⟨hafter', htaken'⟩ := parse_of_readAll (s := s) hrecords'
      rw [hafter, hafter']
      refine ⟨halike, ?_⟩
      simp only [htaken, htaken', herror, exists_eq_left]

/-- Each record that a text declares is found by its name once the text is taken in. -/
theorem record?_of_parse {records : List Record} (h : (s.parse source).2 = .ok records) {r : Record}
    (hr : r ∈ records) : (s.parse source).1.registry.record? (.name r.name) = some r := by
  cases hread : Record.readAll source with
  | error e =>
    simp only [parse, hread] at h
    cases h
  | ok declared =>
    obtain ⟨hafter, htaken⟩ := parse_of_readAll (s := s) hread
    obtain ⟨rfl, hall⟩ := (htaken records).mp h
    have hget := (get?_of_registerAll (Prod.ext rfl hall)
      (Record.pairwise_of_readAll hread)).2 r hr
    rw [Record.key, Record.reflected_of_readAll hread hr] at hget
    rw [hafter]
    exact Registry.record?_of_declared hget

end

theorem registry_run_of_derives (hkeyed : s.registry.Keyed) {calls : List Call}
    (hcalls : ∀ call ∈ calls, call.Derives) : (s.run calls).registry = s.registry := by
  induction calls generalizing s with
  | nil => rfl
  | cons call calls ih =>
    obtain ⟨hcall, hcalls⟩ := List.forall_mem_cons.mp hcalls
    have hextends : s.Extends (s.after call) := by
      cases call with
      | derive reference =>
        rw [after]
        cases hd : s.derive? reference with
        | none => exact .refl s
        | some pair => exact extends_derive? hkeyed hd
      | deriveAll => exact extends_deriveAll hkeyed rfl
      | _ => exact hcall.elim
    rw [run_cons, ih (hextends.1 ▸ hkeyed) hcalls, hextends.1]

theorem Alike.exists_record? (h : s.Alike s') {reference : Reference}
    (hr : s.registry.record? reference = some r) :
    ∃ r', s'.registry.record? reference = some r' := by
  have hrecord := congrArg (fun u : Schema => u.registry.record? reference) h
  simp only [respan, Registry.record?_respan, hr] at hrecord
  obtain ⟨r', hr', -⟩ := Option.map_eq_some_iff.mp hrecord
  exact ⟨r', hr'⟩

theorem Alike.derivations (h : s.Alike s') {reference : Reference} {d d' : Derivation Derived}
    (hd : s.derive? reference = some (.ok d, t)) (hd' : s'.derive? reference = some (.ok d', t')) :
    d'.respan erase = d.respan erase := by
  have hrun : (s'.respan erase).derive? reference = (s.respan erase).derive? reference := by rw [h]
  rw [derive?_erase, derive?_erase, hd, hd'] at hrun
  simpa [Except.map] using (congrArg (Option.map Prod.fst) hrun)

/-- After a text and some derivations, every record that is registered has a derivation. -/
theorem exists_derived_after_parse {settings : Options} {calls more : List Call} {source : String}
    (hcalls : ∀ call ∈ calls, call.IsMeasured)
    (hlength : (source.toList.length : Int) ≤ RangeError.longest)
    (hmore : ∀ call ∈ more, call.Derives) {reference : Reference}
    (hr : (((run { settings } calls).parse source).1.run more).registry.record? reference =
      some r) :
    ∃ d t, (((run { settings } calls).parse source).1.run more).derive? reference =
      some (.ok d, t) := by
  have hmeasured : ∀ call ∈ calls ++ .parse source :: more, call.IsMeasured := by
    refine List.forall_mem_append.mpr
      ⟨hcalls, List.forall_mem_cons.mpr ⟨hlength, fun call hcall => ?_⟩⟩
    have hderives := hmore call hcall
    cases call with
    | derive | deriveAll => trivial
    | _ => exact hderives.elim
  have hrun : run { settings } (calls ++ .parse source :: more) =
      ((run { settings } calls).parse source).1.run more := by
    rw [run_append, run_cons]
    rfl
  rw [← hrun] at hr ⊢
  exact run_derives hmeasured hr

/-- Texts with the same tokens are taken in alike: both are read or both are refused, at the same
token; their records are registered or not, both times; and whatever is derived after that, the
derivation of every record gives the same result and the same diagnostics, but for where spans
are. -/
theorem run_spacing {settings : Options} {calls more : List Call} {source source' : String}
    (hcalls : ∀ call ∈ calls, call.IsMeasured)
    (hlength : (source.toList.length : Int) ≤ RangeError.longest)
    (hlength' : (source'.toList.length : Int) ≤ RangeError.longest)
    (hsame : Token.Alike source source')
    (hnew : (run { settings } calls).NewTo source) (hnew' : (run { settings } calls).NewTo source')
    (hmore : ∀ call ∈ more, call.Derives) :
    let s := run { settings } calls
    let u := (s.parse source).1.run more
    let u' := (s.parse source').1.run more
    ReadAlike source source' (Record.readAll source) (Record.readAll source') ∧
      ((∃ records, (s.parse source).2 = .ok records) ↔
        ∃ records, (s.parse source').2 = .ok records) ∧
      (∀ records, (s.parse source).2 = .ok records →
        ∀ r ∈ records, u.registry.record? (.name r.name) = some r) ∧
      ∀ reference r, u.registry.record? reference = some r →
        ∃ d t d' t', u.derive? reference = some (.ok d, t) ∧
          u'.derive? reference = some (.ok d', t') ∧ d'.respan erase = d.respan erase := by
  intro s u u'
  obtain ⟨hparsed, hregistered⟩ := parse_alike hsame hlength hlength' hnew hnew'
  have halike : u.Alike u' := hparsed.run hmore
  refine ⟨readAlike hsame hlength hlength', hregistered, fun records hrecords r hr => ?_,
    fun reference r hr => ?_⟩
  · have hkeyed := (((Intact.empty settings).run calls).after (.parse source)).keyed
    have hregistry : u.registry = (s.parse source).1.registry :=
      registry_run_of_derives hkeyed hmore
    rw [hregistry]
    exact record?_of_parse hrecords hr
  · obtain ⟨r', hr'⟩ := halike.exists_record? hr
    obtain ⟨d, t, hd⟩ := exists_derived_after_parse hcalls hlength hmore hr
    obtain ⟨d', t', hd'⟩ := exists_derived_after_parse hcalls hlength' hmore hr'
    exact ⟨d, t, d', t', hd, hd', halike.derivations hd hd'⟩

/-- A generated column that is declared with `var`. -/
def totalText : String := "@Table struct T\x7b@Column(generated:.stored)var n:Int\x7d"

/-- The same with other spacing. -/
def totalTextSpaced : String :=
  "@Table struct T \x7b // totals\n  @Column(generated: .stored) var n: Int\n\x7d"

/-- What the first of the texts declares. -/
def totalDeclared : Record where
  name := "T"
  span := some ⟨0, 52⟩
  attributes := [{ name := "Table", span := some ⟨0, 6⟩ }]
  fields := [
    { name := "n", type := some { name := "Int" }
      attributes := [
        { name := "Column", span := some ⟨16, 42⟩
          arguments := [⟨some "generated", .member "stored", some ⟨24, 41⟩⟩] }]
      span := some ⟨16, 51⟩, bindingSpan := some ⟨42, 45⟩, nameSpan := some ⟨46, 47⟩ }]

theorem run_spacing_total :
    Token.Alike totalText totalTextSpaced ∧ Record.readAll totalText = .ok [totalDeclared] ∧
      ∃ d t d' t', (parse {} totalText).1.derive? (.name "T") = some (.ok d, t) ∧
        (parse {} totalTextSpaced).1.derive? (.name "T") = some (.ok d', t') ∧
          d'.respan erase = d.respan erase := by
  have hsame : Token.Alike totalText totalTextSpaced := ⟨by cbv, by cbv⟩
  have hread : Record.readAll totalText = .ok [totalDeclared] := by
    rw [Record.readAll]
    conv in Token.scan _ => cbv
    rfl
  have hlength : totalText.toList.length = 52 := by cbv
  have hlength' : totalTextSpaced.toList.length = 70 := by cbv
  have hparsed : (parse {} totalText).2 = .ok [totalDeclared] :=
    ((parse_of_readAll hread).2 _).mpr ⟨rfl, rfl⟩
  obtain ⟨-, -, hfound, hderived⟩ := @run_spacing {} [] [] totalText totalTextSpaced
    (List.forall_mem_nil _) (by rw [hlength]; decide) (by rw [hlength']; decide) hsame
    (newTo_empty _ _) (newTo_empty _ _) (List.forall_mem_nil _)
  exact ⟨hsame, hread, hderived (.name "T") totalDeclared
    (hfound _ hparsed totalDeclared List.mem_cons_self)⟩

end Schema

end RowSchema
