import RowSchema.Proofs.Dictionary
import RowSchema.Proofs.Selection.Bound

/-! # The arguments of a call

A call gives arguments by place and by name. Each parameter is bound to expressions of its own,
which depend on nothing but the argument that the call has for it; so two calls with the same
argument for a parameter have the same expressions in its place. -/

namespace RowSchema

/-- The names that items are put beside stay in their order. -/
theorem sublist_of_zip {α β : Type} (names : List α) (items : List β) :
    ((names.zip items).map (·.1)).Sublist names := by
  induction names generalizing items with
  | nil => exact .slnil
  | cons name rest ih =>
    cases items with
    | nil => exact List.nil_sublist _
    | cons item more => exact (ih more).cons_cons name

/-! ## Arguments by name -/

namespace Supplies

variable {target name : String} {names : List String} {argument : Supplied}
  {before given : Dictionary String Supplied} {rest : List (String × Supplied)}

/-- The argument of a call for the parameter with that name: by its place, or else by its name. -/
def argument? (supplies : Supplies) (names : List String) (name : String) : Option Supplied :=
  (Dictionary.get? (names.zip supplies.positional) name).or (supplies.named.get? name)

/-- The call with one more argument by name. -/
def withNamed (supplies : Supplies) (name : String) (argument : Supplied) : Supplies :=
  { supplies with named := supplies.named ++ [(name, argument)] }

/-- Two calls that differ in one parameter, which the first leaves out and the second gives null. -/
structure Nulls (names : List String) (name : String) (leaving passing : Supplies) : Prop where
  left : leaving.argument? names name = none
  passed : passing.argument? names name = some (.value .null)
  others : ∀ other, other ≠ name →
    leaving.argument? names other = passing.argument? names other

theorem argument?_withNamed (supplies : Supplies) (other : String) :
    (supplies.withNamed name argument).argument? names other =
      (supplies.argument? names other).or (if name == other then some argument else none) := by
  rw [argument?, argument?, withNamed, Dictionary.get?_concat, Option.or_assoc]

/-- Null may be passed by name. -/
theorem nulls_withNamed {supplies : Supplies} (hleft : supplies.argument? names name = none) :
    Nulls names name supplies (supplies.withNamed name (.value .null)) := by
  refine ⟨hleft, ?_, fun other hother => ?_⟩
  · rw [argument?_withNamed, hleft, if_pos (beq_self_eq_true name), Option.none_or]
  · rw [argument?_withNamed, if_neg (by simpa using Ne.symm hother), Option.or_none]

theorem checkReserved_eq_ok {supplies : Supplies} {constructor : String} :
    supplies.checkReserved constructor ["self"] = .ok () ↔ "self" ∉ supplies.named.keys := by
  rw [checkReserved]
  cases hfind : supplies.named.keys.find? ["self"].contains with
  | none =>
    rw [List.find?_eq_none] at hfind
    exact ⟨fun _ hmem => hfind _ hmem rfl, fun _ => rfl⟩
  | some name =>
    have hmem := List.mem_of_find?_eq_some hfind
    obtain rfl : name = "self" := by simpa using List.find?_some hfind
    simp [hmem]

theorem byName_cons_eq_ok :
    byName target names before ((name, argument) :: rest) = .ok given ↔
      name ∈ names ∧ before.has name = false ∧
        byName target names (before.put name argument) rest = .ok given := by
  rw [byName]
  by_cases hname : name ∈ names
  · cases hhas : before.has name <;> simp [hname]
  · simp [hname]

/-- Named arguments are added to those that are there. -/
theorem get?_of_byName (h : byName target names before rest = .ok given) (name : String) :
    given.get? name = (before.get? name).or (Dictionary.get? rest name) := by
  induction rest generalizing before with
  | nil =>
    cases h
    exact (Option.or_none ..).symm
  | cons first rest ih =>
    obtain ⟨own, argument⟩ := first
    obtain ⟨-, hfresh, hrest⟩ := byName_cons_eq_ok.mp h
    rw [ih hrest, Dictionary.get?]
    by_cases hname : name = own
    · subst hname
      rw [Dictionary.get?_put_self, if_pos (beq_self_eq_true name),
        Option.isNone_iff_eq_none.mp (Option.isSome_eq_false_iff.mp hfresh)]
      rfl
    · rw [Dictionary.get?_put_of_ne _ _ hname, if_neg (by simpa using Ne.symm hname)]

/-- One more argument is added if it is for a parameter that has none. -/
theorem byName_concat (h : byName target names before rest = .ok given) (hname : name ∈ names)
    (hfresh : given.has name = false) :
    byName target names before (rest ++ [(name, argument)]) = .ok (given.put name argument) := by
  induction rest generalizing before with
  | nil =>
    cases h
    exact byName_cons_eq_ok.mpr ⟨hname, hfresh, rfl⟩
  | cons first rest ih =>
    obtain ⟨own, ownArgument⟩ := first
    obtain ⟨hown, hownFresh, hrest⟩ := byName_cons_eq_ok.mp h
    exact byName_cons_eq_ok.mpr ⟨hown, hownFresh, ih hrest⟩

/-- What a call binds by place and then by name are its arguments. -/
theorem get?_bound {supplies : Supplies} (hnames : names.Nodup)
    (h : byName target names (.ofList (names.zip supplies.positional)) supplies.named = .ok given)
    (name : String) : given.get? name = supplies.argument? names name := by
  have hplaced : ((names.zip supplies.positional).map (·.1)).Nodup :=
    hnames.sublist (sublist_of_zip names supplies.positional)
  rw [get?_of_byName h, Dictionary.ofList_of_nodup hplaced, argument?]

end Supplies

/-! ## Expressions of parameters -/

/-- The expressions that are bound to a parameter, if there are any. -/
def Parameter.block (given : Dictionary String Supplied) (p : Parameter) : List SqlExpr :=
  match p.boundTo given with
  | .ok (expressions, _) => expressions
  | .error _ => []

/-- A parameter for which there is an argument or a default is bound to its block. -/
def Parameter.IsBound (given : Dictionary String Supplied) (p : Parameter) : Prop :=
  p.boundTo given = .ok (p.block given, [])

section

variable {given given' : Dictionary String Supplied} {p : Parameter}

theorem Parameter.isBound_of {expressions : List SqlExpr}
    (h : p.boundTo given = .ok (expressions, [])) :
    p.IsBound given ∧ p.block given = expressions := by
  have hblock : p.block given = expressions := by rw [block, h]
  exact ⟨by rw [IsBound, h, hblock], hblock⟩

/-- What a parameter is bound to depends only on the argument for it. -/
theorem Parameter.boundTo_congr (h : given.get? p.name = given'.get? p.name) :
    p.boundTo given = p.boundTo given' := by
  rw [boundTo, boundTo, h]

theorem Parameter.block_congr (h : given.get? p.name = given'.get? p.name) :
    p.block given = p.block given' := by
  rw [block, block, boundTo_congr h]

theorem Parameter.IsBound.congr (hbound : p.IsBound given)
    (h : given.get? p.name = given'.get? p.name) : p.IsBound given' := by
  rw [IsBound, ← boundTo_congr h, ← block_congr h]
  exact hbound

/-- The expressions of a call are those of its parameters one after another. -/
theorem expandAll_eq_ok {parameters : List Parameter} {expressions : List SqlExpr} :
    expandAll given parameters = .ok (expressions, []) ↔
      (∀ p ∈ parameters, p.IsBound given) ∧
        expressions = parameters.flatMap (Parameter.block given) := by
  induction parameters generalizing expressions with
  | nil => simp [expandAll, eq_comm]
  | cons p rest ih =>
    rw [expandAll_cons_eq_ok, List.forall_mem_cons, List.flatMap_cons]
    constructor
    · rintro ⟨own, ownMissing, more, moreMissing, hown, hmore, rfl, hmissing⟩
      obtain ⟨rfl, rfl⟩ := List.append_eq_nil_iff.mp hmissing.symm
      obtain ⟨hbound, rfl⟩ := Parameter.isBound_of hown
      obtain ⟨hrest, rfl⟩ := ih.mp hmore
      exact ⟨⟨hbound, hrest⟩, rfl⟩
    · rintro ⟨⟨hfirst, hrest⟩, rfl⟩
      exact ⟨_, _, _, _, hfirst, ih.mpr ⟨hrest, rfl⟩, rfl, rfl⟩

end

/-! ## Calls of a selection -/

namespace Catalog

variable {c : Catalog} {supplies : Supplies} {projection : Projection}

/-- A projection has the expressions of the parameters, each bound by its own argument. -/
theorem select_eq_ok (hs : c.Sized) (hnames : (c.parameters.map (·.name)).Nodup)
    (h : c.select supplies = .ok projection) :
    ∃ given, (∀ name, given.get? name =
        supplies.argument? (c.parameters.map (·.name)) name) ∧
      (∀ p ∈ c.parameters, p.IsBound given) ∧
      projection.expressions = c.parameters.flatMap (Parameter.block given) := by
  rw [select_eq] at h
  obtain ⟨expressions, hbound, rfl⟩ := map_eq_ok.mp h
  have hlength := length_bound hs hbound
  have hleaves : c.width = c.leaves.length :=
    Group.Sized.width_eq (g := .record c) (by rwa [Group.Sized])
  obtain ⟨-, -, hbound⟩ := bind_eq_ok.mp hbound
  obtain ⟨-, given, hgiven, hall⟩ := bindArguments_eq_ok.mp hbound
  obtain ⟨hblocks, hexpressions⟩ := expandAll_eq_ok.mp hall
  refine ⟨given, Supplies.get?_bound hnames hgiven, hblocks, ?_⟩
  rw [Projection.expressions_ofExpressions, hexpressions]
  rw [length_aliasesOf]
  omega

/-- A call succeeds also with one more argument that its parameter takes. -/
theorem exists_select_withNamed (hnames : (c.parameters.map (·.name)).Nodup)
    (h : c.select supplies = .ok projection) {p : Parameter} (hp : p ∈ c.parameters)
    (hself : p.name ≠ "self")
    (hleft : supplies.argument? (c.parameters.map (·.name)) p.name = none)
    {argument : Supplied} {block : List SqlExpr} (hexpand : p.expand argument = .ok block) :
    ∃ projection, c.select (supplies.withNamed p.name argument) = .ok projection := by
  rw [select_eq] at h
  obtain ⟨expressions, hbound, -⟩ := map_eq_ok.mp h
  obtain ⟨_, hreserved, hbound⟩ := bind_eq_ok.mp hbound
  obtain ⟨hroom, given, hgiven, hall⟩ := bindArguments_eq_ok.mp hbound
  obtain ⟨hblocks, -⟩ := expandAll_eq_ok.mp hall
  have hfresh : given.has p.name = false := by
    rw [Dictionary.has, Supplies.get?_bound hnames hgiven, hleft]
    rfl
  have hreserved' : (supplies.withNamed p.name argument).checkReserved "Selection.__call__"
      ["self"] = .ok () := by
    rw [Supplies.checkReserved_eq_ok] at hreserved ⊢
    rw [Supplies.withNamed, Dictionary.keys, List.map_append, List.mem_append, not_or]
    exact ⟨hreserved, by simpa using Ne.symm hself⟩
  have hblocks' : ∀ q ∈ c.parameters, q.IsBound (given.put p.name argument) := by
    intro q hq
    by_cases hname : q.name = p.name
    · obtain rfl := List.inj_on_of_nodup_map hnames hq hp hname
      have hbound : q.boundTo (given.put q.name argument) = .ok (block, []) := by
        rw [Parameter.boundTo, Dictionary.get?_put_self]
        exact map_eq_ok.mpr ⟨block, hexpand, rfl⟩
      exact (Parameter.isBound_of hbound).1
    · exact (hblocks q hq).congr (Dictionary.get?_put_of_ne _ _ hname).symm
  rw [select_eq]
  refine ⟨_, map_eq_ok.mpr ⟨_, bind_eq_ok.mpr ⟨(), hreserved', bindArguments_eq_ok.mpr
    ⟨hroom, _, ?_, expandAll_eq_ok.mpr ⟨hblocks', rfl⟩⟩⟩, rfl⟩⟩
  exact Supplies.byName_concat hgiven (List.mem_map_of_mem hp) hfresh

/-- A call without arguments has the defaults, if there is one for every parameter. -/
theorem exists_select_defaults (h : ∀ p ∈ c.parameters, p.default.isSome = true) :
    ∃ projection, c.select {} = .ok projection := by
  have hblocks : ∀ p ∈ c.parameters, p.IsBound [] := by
    intro p hp
    obtain ⟨default, hdefault⟩ := Option.isSome_iff_exists.mp (h p hp)
    have hbound : p.boundTo [] = .ok ([default], []) := by
      rw [Parameter.boundTo, hdefault]
      rfl
    exact (Parameter.isBound_of hbound).1
  rw [select_eq]
  refine ⟨_, map_eq_ok.mpr ⟨_, bind_eq_ok.mpr ⟨(), rfl, bindArguments_eq_ok.mpr
    ⟨Nat.zero_le _, [], ?_, expandAll_eq_ok.mpr ⟨hblocks, rfl⟩⟩⟩, rfl⟩⟩
  rw [List.zip_nil_right]
  rfl

end Catalog

end RowSchema
