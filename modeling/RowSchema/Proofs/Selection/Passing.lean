import RowSchema.Proofs.Schema.Defaults
import RowSchema.Proofs.Schema.ReadBack

/-! # Ways to pass arguments

A call may give an argument in the place of its parameter or by its name. What is bound to the
parameters depends on the arguments and not on the way they are passed. Only a name that a
constructor keeps for itself makes a difference: an argument for a parameter so named can be given
by its place alone. -/

namespace RowSchema

/-! ## Calls that pass the same -/

namespace Supplies

variable {supplies other : Supplies} {target name : String} {names : List String}
  {assigned : String → Option Supplied} {before given : Dictionary String Supplied}
  {rest : List (String × Supplied)}

/-- The call passes what is assigned to the parameters: to the first ones by their places, and to
those of the others that have an argument by their names, in any order. -/
structure Passes (supplies : Supplies) (names : List String)
    (assigned : String → Option Supplied) : Prop where
  placed : List.Forall₂ (fun name argument => assigned name = some argument)
    (names.take supplies.positional.length) supplies.positional
  named : supplies.named.Perm
    ((names.drop supplies.positional.length).filterMap fun name => (assigned name).map (name, ·))

/-- Named arguments are added if they are for different parameters that have none. -/
theorem exists_byName_iff :
    (∃ given, byName target names before rest = .ok given) ↔
      (∀ entry ∈ rest, entry.1 ∈ names ∧ before.has entry.1 = false) ∧
        (rest.map (·.1)).Nodup := by
  induction rest generalizing before with
  | nil => simp [byName]
  | cons first rest ih =>
    obtain ⟨name, argument⟩ := first
    simp only [byName_cons_eq_ok, exists_and_left, ih, Dictionary.has_put, List.forall_mem_cons,
      List.map_cons, List.nodup_cons, Bool.or_eq_false_iff, beq_eq_false_iff_ne]
    constructor
    · intro h
      obtain ⟨hname, hfresh, hrest, hnodup⟩ := h
      refine ⟨⟨⟨hname, hfresh⟩, fun entry hentry => ?_⟩, fun hmem => ?_, hnodup⟩
      · exact ⟨(hrest entry hentry).1, (hrest entry hentry).2.2⟩
      · obtain ⟨entry, hentry, hsame⟩ := List.mem_map.mp hmem
        exact (hrest entry hentry).2.1 hsame
    · intro h
      obtain ⟨⟨⟨hname, hfresh⟩, hrest⟩, hnew, hnodup⟩ := h
      refine ⟨hname, hfresh, fun entry hentry => ?_, hnodup⟩
      have hne : entry.1 ≠ name := fun hsame => hnew (hsame ▸ List.mem_map_of_mem hentry)
      exact ⟨(hrest entry hentry).1, hne, (hrest entry hentry).2⟩

/-! ### Parameters with an argument in their place -/

theorem zip_take_positional (hroom : supplies.positional.length ≤ names.length) :
    (names.take supplies.positional.length).zip supplies.positional =
      names.zip supplies.positional := by
  conv_rhs => rw [List.zip_eq_zip_take_min, Nat.min_eq_right hroom, List.take_length]

theorem keys_zip_positional (hroom : supplies.positional.length ≤ names.length) :
    Dictionary.keys (names.zip supplies.positional) = names.take supplies.positional.length := by
  rw [← zip_take_positional hroom, Dictionary.keys]
  exact List.map_fst_zip (by rw [List.length_take, Nat.min_eq_left hroom])

theorem ofList_zip_positional (hnames : names.Nodup) :
    Dictionary.ofList (names.zip supplies.positional) = names.zip supplies.positional :=
  Dictionary.ofList_of_nodup (hnames.sublist (sublist_of_zip names supplies.positional))

/-- A parameter with an argument in its place has that one. -/
theorem exists_placed (hroom : supplies.positional.length ≤ names.length)
    (hname : name ∈ names.take supplies.positional.length) :
    ∃ argument, (name, argument) ∈
        (names.take supplies.positional.length).zip supplies.positional ∧
      supplies.argument? names name = some argument := by
  rw [← keys_zip_positional hroom, ← Dictionary.has_iff_mem_keys, Dictionary.has] at hname
  obtain ⟨argument, hget⟩ := Option.isSome_iff_exists.mp hname
  refine ⟨argument, ?_, by rw [argument?, hget, Option.some_or]⟩
  rw [zip_take_positional hroom]
  exact Dictionary.mem_of_get? hget

/-- Any other parameter has the one with its name. -/
theorem argument?_of_drop (hnames : names.Nodup)
    (hroom : supplies.positional.length ≤ names.length)
    (hname : name ∈ names.drop supplies.positional.length) :
    supplies.argument? names name = supplies.named.get? name := by
  have hnone : Dictionary.get? (names.zip supplies.positional) name = none := by
    rw [Dictionary.get?_eq_none_iff, keys_zip_positional hroom]
    exact fun htake => List.disjoint_take_drop hnames le_rfl htake hname
  rw [argument?, hnone, Option.none_or]

/-! ### What a call passes -/

namespace Passes

theorem room (h : supplies.Passes names assigned) :
    supplies.positional.length ≤ names.length := by
  have hlength := h.placed.length_eq
  rw [List.length_take] at hlength
  omega

theorem keys_named (h : supplies.Passes names assigned) : supplies.named.keys.Perm
    ((names.drop supplies.positional.length).filter fun name => (assigned name).isSome) := by
  rw [← Dictionary.keys_filterMap]
  exact h.named.map _

theorem nodup_named (h : supplies.Passes names assigned) (hnames : names.Nodup) :
    supplies.named.keys.Nodup :=
  h.keys_named.nodup_iff.mpr
    (hnames.sublist (List.filter_sublist.trans (List.drop_sublist _ _)))

/-- The argument of a parameter is the one that is assigned to it. -/
theorem argument?_eq (h : supplies.Passes names assigned) (hnames : names.Nodup)
    (hname : name ∈ names) : supplies.argument? names name = assigned name := by
  rw [← List.take_append_drop supplies.positional.length names, List.mem_append] at hname
  cases hname with
  | inl htake =>
    obtain ⟨argument, hmem, hargument⟩ := exists_placed h.room htake
    rw [hargument, (List.forall₂_iff_zip.mp h.placed).2 hmem]
  | inr hdrop =>
    rw [argument?_of_drop hnames h.room hdrop,
      Dictionary.get?_of_perm h.named (h.nodup_named hnames), Dictionary.get?_filterMap,
      if_pos hdrop]

/-- Nothing is passed twice, and nothing to a parameter that there is not. -/
theorem exists_byName (h : supplies.Passes names assigned) (hnames : names.Nodup)
    (target : String) : ∃ given,
      byName target names (.ofList (names.zip supplies.positional)) supplies.named = .ok given := by
  rw [ofList_zip_positional hnames, exists_byName_iff]
  refine ⟨fun entry hentry => ?_, h.nodup_named hnames⟩
  have hdrop : entry.1 ∈ names.drop supplies.positional.length :=
    List.mem_of_mem_filter (h.keys_named.mem_iff.mp (List.mem_map_of_mem hentry))
  refine ⟨List.mem_of_mem_drop hdrop, ?_⟩
  rw [← Bool.not_eq_true, Dictionary.has_iff_mem_keys, keys_zip_positional h.room]
  exact fun htake => List.disjoint_take_drop hnames le_rfl htake hdrop

/-- A call that binds its arguments passes them. -/
theorem of_byName (hnames : names.Nodup) (hroom : supplies.positional.length ≤ names.length)
    (h : byName target names (.ofList (names.zip supplies.positional)) supplies.named =
      .ok given) : supplies.Passes names (supplies.argument? names) := by
  rw [ofList_zip_positional hnames] at h
  obtain ⟨hfresh, hnodup⟩ := exists_byName_iff.mp ⟨given, h⟩
  have htake : (names.take supplies.positional.length).Nodup :=
    hnames.sublist (List.take_sublist _ _)
  constructor
  · rw [List.forall₂_iff_zip, List.length_take, Nat.min_eq_left hroom, zip_take_positional hroom]
    refine ⟨rfl, fun {name argument} hmem => ?_⟩
    rw [argument?, Dictionary.get?_of_mem
      (hnames.sublist (sublist_of_zip names supplies.positional)) hmem, Option.some_or]
  -- both sides have different keys and the same entries
  · rw [List.perm_ext_iff_of_nodup hnodup.of_map]
    · intro entry
      obtain ⟨name, argument⟩ := entry
      simp only [List.mem_filterMap, Option.map_eq_some_iff, Prod.mk.injEq]
      constructor
      · intro hmem
        have hdrop : name ∈ names.drop supplies.positional.length := by
          obtain ⟨hname, hnew⟩ := hfresh _ hmem
          rw [← Bool.not_eq_true, Dictionary.has_iff_mem_keys, keys_zip_positional hroom] at hnew
          rw [← List.take_append_drop supplies.positional.length names, List.mem_append] at hname
          exact hname.resolve_left hnew
        refine ⟨name, hdrop, argument, ?_, rfl, rfl⟩
        rw [argument?_of_drop hnames hroom hdrop, Dictionary.get?_of_mem hnodup hmem]
      · intro hassigned
        obtain ⟨name, hdrop, argument, hargument, rfl, rfl⟩ := hassigned
        rw [argument?_of_drop hnames hroom hdrop] at hargument
        exact Dictionary.mem_of_get? hargument
    · refine List.Nodup.of_map (·.1) ?_
      rw [← Dictionary.keys, Dictionary.keys_filterMap]
      exact hnames.sublist (List.filter_sublist.trans (List.drop_sublist _ _))

end Passes

end Supplies

/-! ## The expressions of a call -/

/-- The expressions in the place of a parameter: what its argument is expanded to, or else its
default. -/
inductive Parameter.Binds (p : Parameter) : Option Supplied → List SqlExpr → Prop
  | argument {argument : Supplied} {block : List SqlExpr} :
      p.expand argument = .ok block → p.Binds (some argument) block
  | default {default : SqlExpr} : p.default = some default → p.Binds none [default]

/-- An entry has as many expressions in its place as it has columns: a scalar just one. -/
structure Entry.Filled (e : Entry) (argument : Option Supplied) (block : List SqlExpr) :
    Prop where
  binds : (Parameter.ofEntry e.column.field e).Binds argument block
  length : (block.length : Int) = if e.isGroup then e.width else 1

theorem Parameter.IsBound.binds {p : Parameter} {given : Dictionary String Supplied}
    (h : p.IsBound given) : p.Binds (given.get? p.name) (p.block given) := by
  have hbound := h
  rw [IsBound, boundTo] at hbound
  cases hget : given.get? p.name with
  | some argument =>
    rw [hget] at hbound
    obtain ⟨block, hexpand, hblock⟩ := map_eq_ok.mp hbound
    exact .argument ((Prod.mk.inj hblock).1 ▸ hexpand)
  | none =>
    rw [hget] at hbound
    cases hdefault : p.default with
    | some default =>
      rw [hdefault] at hbound
      rw [← (Prod.mk.inj (Except.ok.inj hbound)).1]
      exact .default hdefault
    | none =>
      simp [hdefault] at hbound

theorem Entry.filled {e : Entry} (hs : e.Sized) {given : Dictionary String Supplied}
    (h : (Parameter.ofEntry e.column.field e).IsBound given) :
    e.Filled (given.get? e.column.field) ((Parameter.ofEntry e.column.field e).block given) := by
  refine ⟨h.binds, ?_⟩
  have hlength := Parameter.length_boundTo (Parameter.ofEntry_fits _ hs) h
  cases hgroup : e.isGroup with
  | true => exact hlength
  | false => exact hlength.trans (hs.width_eq_one hgroup)

namespace Catalog

variable {c : Catalog} {supplies other : Supplies} {projection : Projection}
  {assigned : String → Option Supplied}

/-- A call that makes a projection passes the arguments it has. -/
theorem passes_of_select (hnames : (c.parameters.map (·.name)).Nodup)
    (h : c.select supplies = .ok projection) :
    supplies.Passes (c.parameters.map (·.name))
      (supplies.argument? (c.parameters.map (·.name))) := by
  rw [select_eq] at h
  obtain ⟨expressions, hbound, -⟩ := map_eq_ok.mp h
  obtain ⟨-, -, hbound⟩ := bind_eq_ok.mp hbound
  obtain ⟨hroom, given, hgiven, -⟩ := bindArguments_eq_ok.mp hbound
  exact .of_byName hnames (by rwa [List.length_map]) hgiven

/-- Calls that pass the same make the same projection. -/
theorem select_of_passes (hnames : (c.parameters.map (·.name)).Nodup)
    (hpasses : supplies.Passes (c.parameters.map (·.name)) assigned)
    (hother : other.Passes (c.parameters.map (·.name)) assigned)
    (hself : "self" ∉ other.named.keys) (h : c.select supplies = .ok projection) :
    c.select other = .ok projection := by
  rw [select_eq] at h ⊢
  obtain ⟨expressions, hbound, rfl⟩ := map_eq_ok.mp h
  obtain ⟨-, -, hbound⟩ := bind_eq_ok.mp hbound
  obtain ⟨-, given, hgiven, hall⟩ := bindArguments_eq_ok.mp hbound
  obtain ⟨hblocks, rfl⟩ := expandAll_eq_ok.mp hall
  obtain ⟨given', hgiven'⟩ := hother.exists_byName hnames c.typeName
  have hsame : ∀ p ∈ c.parameters, given.get? p.name = given'.get? p.name := by
    intro p hp
    have hname := List.mem_map_of_mem (f := (·.name)) hp
    rw [Supplies.get?_bound hnames hgiven, Supplies.get?_bound hnames hgiven',
      hpasses.argument?_eq hnames hname, hother.argument?_eq hnames hname]
  have hexpressions : c.parameters.flatMap (Parameter.block given) =
      c.parameters.flatMap (Parameter.block given') :=
    List.flatMap_congr fun p hp => Parameter.block_congr (hsame p hp)
  have hall' : expandAll given' c.parameters =
      .ok (c.parameters.flatMap (Parameter.block given), []) :=
    expandAll_eq_ok.mpr ⟨fun p hp => (hblocks p hp).congr (hsame p hp), hexpressions⟩
  have hroom := hother.room
  rw [List.length_map] at hroom
  exact map_eq_ok.mpr ⟨_, bind_eq_ok.mpr ⟨(), Supplies.checkReserved_eq_ok.mpr hself,
    bindArguments_eq_ok.mpr ⟨hroom, given', hgiven', hall'⟩⟩, rfl⟩

/-- The expressions of a projection are those of the entries one after another. -/
theorem filled_of_select (hs : c.Sized) (hnames : (c.parameters.map (·.name)).Nodup)
    (hpasses : supplies.Passes (c.parameters.map (·.name)) assigned)
    (h : c.select supplies = .ok projection) :
    ∃ blocks, List.Forall₂ (fun e block => e.Filled (assigned e.column.field) block)
        c.entries blocks ∧ projection.expressions = blocks.flatten := by
  obtain ⟨given, hgiven, hbound, hexpressions⟩ := select_eq_ok hs hnames h
  refine ⟨c.entries.map fun e => (Parameter.ofEntry e.column.field e).block given, ?_, ?_⟩
  · rw [List.forall₂_map_right_iff, List.forall₂_same]
    intro e he
    have hp : Parameter.ofEntry e.column.field e ∈ c.parameters := List.mem_map_of_mem he
    have hname : e.column.field ∈ c.parameters.map (·.name) := List.mem_map_of_mem hp
    have hfilled := Entry.filled (sized_iff.mp hs e he) (hbound _ hp)
    rwa [hgiven, hpasses.argument?_eq hnames hname] at hfilled
  · rw [hexpressions, List.flatMap_def, parameters, List.map_map]
    rfl

end Catalog

namespace Schema

/-- In a selection whose parameters have different names, every call that makes a projection passes
its arguments. Whatever it passes, every other way to pass the same, with any of the first arguments
by place and the others by name in any order, makes the same projection, as long as nothing is given
by the name that the constructor keeps for itself. Its expressions are, in the order of the entries,
those of the argument for each entry or of its default. -/
theorem Yields.select_passed {s : Schema} {reference : Reference} {x : Derived} {c : Catalog}
    (hs : s.Reachable) (hx : s.Yields reference x) (hc : x.catalog = .record c)
    (hnames : (c.parameters.map (·.name)).Nodup) {supplies : Supplies} {projection : Projection}
    (h : c.select supplies = .ok projection) :
    supplies.Passes (c.parameters.map (·.name))
        (supplies.argument? (c.parameters.map (·.name))) ∧
      ∀ assigned, supplies.Passes (c.parameters.map (·.name)) assigned →
        (∀ other : Supplies, other.Passes (c.parameters.map (·.name)) assigned →
          "self" ∉ other.named.keys → c.select other = .ok projection) ∧
        ∃ blocks, List.Forall₂ (fun e block => e.Filled (assigned e.column.field) block)
            c.entries blocks ∧ projection.expressions = blocks.flatten := by
  have hsized : c.Sized := by
    have hcatalog := (hs.sized hx).catalog
    rwa [hc, Group.Sized] at hcatalog
  refine ⟨Catalog.passes_of_select hnames h, fun assigned hpasses => ⟨?_, ?_⟩⟩
  · intro other hother hself
    exact Catalog.select_of_passes hnames hpasses hother hself h
  · exact Catalog.filled_of_select hsized hnames hpasses h

/-- A badge is the same by names in either order, or with its place before its named size. -/
theorem select_passed_badge :
    badgeCatalog.select
        { named := [("size", .value (.int 5)), ("place", .value (.list [.int 1, .int 2]))] } =
      badgeCatalog.select
        { positional := [.value (.list [.int 1, .int 2])], named := [("size", .value (.int 5))] } := by
  have hbadge : badges.Yields (.name "Badge")
      { record := badgeRecord, catalog := .record badgeCatalog, policy := .failFast } :=
    ⟨_, _, rfl, rfl⟩
  obtain ⟨hpasses, hall⟩ := Yields.select_passed badges_reachable hbadge rfl (by decide)
    (rfl : badgeCatalog.select
      { named := [("place", .value (.list [.int 1, .int 2])), ("size", .value (.int 5))] } = .ok _)
  obtain ⟨hother, -⟩ := hall _ hpasses
  refine (hother _ ⟨.nil, .swap ..⟩ (by decide)).trans (hother _ ⟨?_, .refl _⟩ (by decide)).symm
  exact .cons rfl .nil

end Schema

/-! ## Cases -/

/-- The name of the parameter for the associated value of a case. -/
def CaseEntry.parameterName (k : CaseEntry) : String :=
  (k.label.filter (!·.isEmpty)).getD k.name

/-- The names that the constructor of a case keeps for itself. -/
def EnumCatalog.keptNames : List String := ["self", "name"]

/-- One argument is bound alike by its place and by its name. -/
theorem bindArguments_named (target : String) (p : Parameter) (argument : Supplied) :
    bindArguments target [p] { named := [(p.name, argument)] } =
      bindArguments target [p] { positional := [argument] } := by
  have hnamed : Supplies.byName target [p.name] [] [(p.name, argument)] =
      .ok [(p.name, argument)] := Supplies.byName_cons_eq_ok.mpr ⟨by simp, rfl, rfl⟩
  rw [bindArguments, bindArguments]
  simp only [List.map_singleton, List.zip_nil_right]
  rw [show Dictionary.ofList ([] : List (String × Supplied)) = [] from rfl, hnamed]
  rfl

/-- One parameter has a signature if its name may be one of a parameter. -/
theorem Parameter.signature_singleton (p : Parameter) :
    Parameter.signature [p] = match nameFault? p.name with
      | some fault => .error fault
      | none => .ok [⟨p.name, p.default.map .sql, none⟩] := by
  rw [Parameter.signature, RowSchema.signature]
  cases hfault : nameFault? p.name with
  | none => simp [hfault, firstRepeated?]
  | some fault => simp [hfault]

namespace EnumCatalog

variable {c : EnumCatalog} {k : CaseEntry} {e : Entry}

theorem parameters_of_payload (he : k.payload = some e) :
    k.parameters = [.ofEntry k.parameterName e] := by
  rw [CaseEntry.parameters, he]
  rfl

theorem select_eq_map {name : String} {supplies : Supplies}
    (hreserved : supplies.checkReserved "VariantSelection.case" keptNames = .ok ())
    (hk : c.selected name = .ok k) :
    c.select name supplies = (bindArguments (c.typeName ++ "." ++ name) k.parameters supplies).map
      fun expressions => .ofExpressions (aliasesOf c.leaves) (c.spread .null name expressions) := by
  rw [select, ← keptNames, hreserved, hk]
  cases hbind : bindArguments (c.typeName ++ "." ++ name) k.parameters supplies with
  | error e => simp [bind, Except.bind, Except.map, hbind]
  | ok expressions => simp [bind, Except.bind, Except.map, hbind, pure, Except.pure, spread]

/-- The constructor of a case takes its one argument also by name, unless the name is its own. -/
theorem select_named (hd : c.Distinct) (hk : k ∈ c.cases) (he : k.payload = some e)
    (argument : Supplied) :
    c.select k.name { named := [(k.parameterName, argument)] } =
      if k.parameterName ∈ keptNames then
        .error (.reserved "VariantSelection.case" k.parameterName)
      else c.select k.name { positional := [argument] } := by
  have hnamed : bindArguments (c.typeName ++ "." ++ k.name) k.parameters
        { named := [(k.parameterName, argument)] } =
      bindArguments (c.typeName ++ "." ++ k.name) k.parameters { positional := [argument] } := by
    rw [parameters_of_payload he]
    exact bindArguments_named _ (.ofEntry k.parameterName e) argument
  by_cases hkept : k.parameterName ∈ keptNames
  · have hreserved : Supplies.checkReserved { named := [(k.parameterName, argument)] }
        "VariantSelection.case" keptNames =
          .error (.reserved "VariantSelection.case" k.parameterName) := by
      simp [Supplies.checkReserved, Dictionary.keys, hkept]
    rw [if_pos hkept, select, ← keptNames, hreserved]
    rfl
  · have hreserved : Supplies.checkReserved { named := [(k.parameterName, argument)] }
        "VariantSelection.case" keptNames = .ok () := by
      simp [Supplies.checkReserved, Dictionary.keys, hkept]
    rw [if_neg hkept, select_eq_map hreserved (hd.selected hk), hnamed,
      select_eq_map rfl (hd.selected hk)]

end EnumCatalog

namespace Schema

variable {s : Schema} {c : EnumCatalog}

/-- The signature of a case with an associated value shows one parameter, if that may be the name of
one. An argument that is taken in its place is taken also by that name and makes the same projection,
unless the constructor has a parameter of its own with that name. -/
theorem Plan.case_by_name (hs : s.Reachable) (hg : s.Plan (.enum c)) {k : CaseEntry} {e : Entry}
    (hk : k ∈ c.cases) (he : k.payload = some e) {argument : Supplied} {projection : Projection}
    (h : c.select k.name { positional := [argument] } = .ok projection) :
    (∀ shown, (Group.enum c).selectionSignature (some k.name) = .ok (.ok shown) →
      shown.map (·.name) = [k.parameterName]) ∧
    ((∃ shown, (Group.enum c).selectionSignature (some k.name) = .ok (.ok shown)) ↔
      nameFault? k.parameterName = none) ∧
    c.select k.name { named := [(k.parameterName, argument)] } =
      if k.parameterName ∈ EnumCatalog.keptNames then
        .error (.reserved "VariantSelection.case" k.parameterName)
      else .ok projection := by
  have hdistinct := hg.distinct hs
  have hsignature : (Group.enum c).selectionSignature (some k.name) =
      .ok (Parameter.signature [.ofEntry k.parameterName e]) := by
    rw [Group.selectionSignature, hdistinct.selected hk, ← EnumCatalog.parameters_of_payload he]
    rfl
  have hname : (Parameter.ofEntry k.parameterName e).name = k.parameterName := rfl
  rw [hsignature, Parameter.signature_singleton, hname, ← h]
  refine ⟨?_, ?_, EnumCatalog.select_named hdistinct hk he argument⟩
  · intro shown hshown
    cases hfault : nameFault? k.parameterName with
    | some fault => simp [hfault] at hshown
    | none =>
      simp only [hfault, Except.ok.injEq] at hshown
      subst hshown
      rfl
  · cases nameFault? k.parameterName <;> simp

/-- A link to a page has an address, and one to a file has a name. -/
def linkRecord : Record where
  name := "Link"
  kind := .enum
  attributes := [{ name := "Table" }]
  cases := [
    { name := "web", payloads := [{ type := .string, label := some "url" }] },
    { name := "file", payloads := [{ type := .string, label := some "name" }] }]

def links : Schema := (Schema.registerAll {} [linkRecord]).1

theorem links_reachable : links.Reachable := (Reachable.empty {}).registerAll _

def webCase : CaseEntry where
  name := "web"
  label := some "url"
  payload := some { column := { name := "url", field := "web", type := some .string } }

def fileCase : CaseEntry where
  name := "file"
  label := some "name"
  payload := some { column := { name := "name", field := "file", type := some .string } }

def linkCatalog : EnumCatalog where
  typeName := "Link"
  cases := [webCase, fileCase]
  table := some "links"

theorem plan_links : links.Plan (.enum linkCatalog) := by
  have hlink : links.Yields (.name "Link")
      { record := linkRecord, catalog := .enum linkCatalog, policy := .failFast } :=
    ⟨_, _, rfl, rfl⟩
  exact .catalog hlink

/-- A link to a page takes its address by name. -/
theorem case_by_name_web :
    linkCatalog.select "web" { named := [("url", .value (.text "a"))] } =
      linkCatalog.select "web" { positional := [.value (.text "a")] } :=
  (Plan.case_by_name links_reachable plan_links (k := webCase) List.mem_cons_self rfl rfl).2.2

/-- The name of a file is shown as a parameter, but an argument is refused under that name. -/
theorem not_case_by_name : ¬ ∀ (s : Schema) (c : EnumCatalog) (k : CaseEntry) (e : Entry)
    (argument : Supplied) (projection : Projection), s.Reachable → s.Plan (.enum c) →
    k ∈ c.cases → k.payload = some e →
    c.select k.name { positional := [argument] } = .ok projection →
    ∀ shown, (Group.enum c).selectionSignature (some k.name) = .ok (.ok shown) →
    ∀ p ∈ shown, c.select k.name { named := [(p.name, argument)] } = .ok projection := by
  intro h
  have hrefused := h links linkCatalog fileCase _ (.value (.text "a")) _ links_reachable plan_links
    (List.mem_cons_of_mem _ List.mem_cons_self) rfl rfl _ rfl ⟨"name", none, none⟩
    List.mem_cons_self
  have herror : linkCatalog.select "file" { named := [("name", .value (.text "a"))] } =
      .error (.reserved "VariantSelection.case" "name") := rfl
  cases herror.symm.trans hrefused

end Schema

end RowSchema
