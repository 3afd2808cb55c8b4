import Mathlib.Data.List.Nodup
import RowSchema.Proofs.Basic
import RowSchema.Proofs.Decode.Match
import RowSchema.Selection

/-! # The expressions of a selection

A call of a selection first binds one expression to each column and then puts the aliases beside
them. On a sized catalog there are as many expressions as columns, whatever the arguments are, so
that none is lost when both are put together. -/

namespace RowSchema

/-! ## Aliases -/

theorem Alias.length_assign (names taken : List String) (used : String → Nat)
    (rest : List String) : (Alias.assign names taken used rest).length = rest.length := by
  induction rest generalizing taken used with
  | nil => rfl
  | cons name rest ih =>
    rw [Alias.assign]
    split <;> simp [ih]

@[simp] theorem length_aliasesOf (leaves : List Column) :
    (aliasesOf leaves).length = leaves.length := by
  simp [aliasesOf, Alias.disambiguate, Alias.length_assign]

namespace Projection

variable {aliases : List String} {expressions : List SqlExpr}

theorem aliases_ofExpressions (h : expressions.length = aliases.length) :
    (ofExpressions aliases expressions).aliases = aliases := by
  rw [ofExpressions, Projection.aliases, ← List.map_uncurry_zip_eq_zipWith, List.map_map]
  exact List.map_fst_zip (Nat.le_of_eq h.symm)

theorem expressions_ofExpressions (h : expressions.length = aliases.length) :
    (ofExpressions aliases expressions).expressions = expressions := by
  rw [ofExpressions, Projection.expressions, ← List.map_uncurry_zip_eq_zipWith, List.map_map]
  exact List.map_snd_zip (Nat.le_of_eq h)

theorem length_columns_ofExpressions (h : expressions.length = aliases.length) :
    (ofExpressions aliases expressions).columns.length = aliases.length := by
  simp [ofExpressions, h]

end Projection

/-! ## Arguments -/

/-- A plain column takes up one cell. -/
theorem Entry.Sized.width_eq_one {e : Entry} (h : e.Sized) (hplain : e.isGroup = false) :
    e.width = 1 := by
  obtain ⟨column, members⟩ := e
  cases members with
  | none => rwa [Entry.Sized] at h
  | some g => cases hplain

namespace Parameter

/-- The parameter stands for a sized entry, and has a default only if that is one column. -/
structure Fits (p : Parameter) : Prop where
  sized : p.entry.Sized
  plain : ∀ default, p.default = some default → p.entry.isGroup = false

theorem ofEntry_fits (name : String) {e : Entry} (h : e.Sized) : (ofEntry name e).Fits := by
  refine ⟨h, ?_⟩
  intro default hdefault
  cases hgroup : e.isGroup with
  | false => exact hgroup
  | true =>
    simp only [ofEntry, hgroup, if_true] at hdefault
    cases hdefault

theorem checkWidth_eq_ok {p : Parameter} {given expressions : List SqlExpr} :
    p.checkWidth given = .ok expressions ↔
      expressions = given ∧ (given.length : Int) = p.entry.width := by
  unfold checkWidth
  split
  · rename_i h
    constructor
    · intro hok
      cases hok
      exact ⟨rfl, eq_of_beq h⟩
    · rintro ⟨rfl, -⟩
      rfl
  · rename_i h
    constructor
    · intro hok
      cases hok
    · rintro ⟨-, hwidth⟩
      exact absurd (beq_iff_eq.mpr hwidth) h

/-- One expression for each cell of the entry, whatever the argument is. -/
theorem length_expand {p : Parameter} (hp : p.Fits) {argument : Supplied}
    {expressions : List SqlExpr} (h : p.expand argument = .ok expressions) :
    (expressions.length : Int) = p.entry.width := by
  have hnonneg := hp.sized.width_nonneg
  have hchecked : ∀ given, p.checkWidth given = .ok expressions →
      (expressions.length : Int) = p.entry.width := by
    intro given hgiven
    obtain ⟨rfl, hwidth⟩ := checkWidth_eq_ok.mp hgiven
    exact hwidth
  unfold expand at h
  split at h
  · split at h
    · split at h
      · cases h
        rw [List.length_replicate]
        omega
      · cases h
    · exact hchecked _ h
    · exact hchecked _ h
    · exact hchecked _ h
    · cases h
  · rename_i hplain
    have hone := hp.sized.width_eq_one (by simpa using hplain)
    split at h <;> cases h <;> simp [hone]

end Parameter

/-- The expressions of one parameter, or its name if it has none. -/
def Parameter.boundTo (given : Dictionary String Supplied) (p : Parameter) :
    Except BindError (List SqlExpr × List String) :=
  match given.get? p.name, p.default with
  | some argument, _ => (p.expand argument).map (·, [])
  | none, some default => .ok ([default], [])
  | none, none => .ok ([], [p.name])

theorem expandAll_cons_eq_ok {given : Dictionary String Supplied} {p : Parameter}
    {rest : List Parameter} {expressions : List SqlExpr} {missing : List String} :
    expandAll given (p :: rest) = .ok (expressions, missing) ↔
      ∃ own ownMissing more moreMissing, p.boundTo given = .ok (own, ownMissing) ∧
        expandAll given rest = .ok (more, moreMissing) ∧ expressions = own ++ more ∧
        missing = ownMissing ++ moreMissing := by
  have hbind : expandAll given (p :: rest) = (p.boundTo given >>= fun own =>
      expandAll given rest >>= fun more => .ok (own.1 ++ more.1, own.2 ++ more.2)) := by
    rw [expandAll, Parameter.boundTo]
    cases given.get? p.name with
    | some argument => rfl
    | none => cases p.default <;> rfl
  rw [hbind, bind_eq_ok]
  constructor
  · rintro ⟨⟨own, ownMissing⟩, hown, h⟩
    obtain ⟨⟨more, moreMissing⟩, hmore, h⟩ := bind_eq_ok.mp h
    cases h
    exact ⟨own, ownMissing, more, moreMissing, hown, hmore, rfl, rfl⟩
  · rintro ⟨own, ownMissing, more, moreMissing, hown, hmore, rfl, rfl⟩
    exact ⟨_, hown, bind_eq_ok.mpr ⟨_, hmore, rfl⟩⟩

/-- A parameter that is bound takes up the cells of its entry. -/
theorem Parameter.length_boundTo {p : Parameter} (hp : p.Fits)
    {given : Dictionary String Supplied} {expressions : List SqlExpr}
    (h : p.boundTo given = .ok (expressions, [])) :
    (expressions.length : Int) = p.entry.width := by
  unfold boundTo at h
  split at h
  · obtain ⟨expanded, hexpand, hpair⟩ := map_eq_ok.mp h
    cases hpair
    exact length_expand hp hexpand
  · rename_i default _ hdefault
    cases h
    exact (hp.sized.width_eq_one (hp.plain default hdefault)).symm
  · cases h

/-- Parameters that all have an argument or a default are bound to the cells of their entries. -/
theorem length_expandAll {given : Dictionary String Supplied} {parameters : List Parameter}
    (hp : ∀ p ∈ parameters, p.Fits) : ∀ {expressions : List SqlExpr},
    expandAll given parameters = .ok (expressions, []) →
    (expressions.length : Int) = Entry.totalWidth (parameters.map (·.entry)) := by
  induction parameters with
  | nil =>
    intro expressions h
    cases h
    rfl
  | cons p rest ih =>
    intro expressions h
    obtain ⟨own, ownMissing, more, moreMissing, hown, hmore, rfl, hmissing⟩ :=
      expandAll_cons_eq_ok.mp h
    obtain ⟨rfl, rfl⟩ := List.append_eq_nil_iff.mp hmissing.symm
    have hfirst := Parameter.length_boundTo (hp p List.mem_cons_self) hown
    have hrest := ih (fun q hq => hp q (List.mem_cons_of_mem _ hq)) hmore
    rw [List.length_append, List.map_cons, Entry.totalWidth]
    omega

/-- What a call binds it has expanded, with no argument missing. -/
theorem bindArguments_eq_ok {target : String} {parameters : List Parameter} {supplies : Supplies}
    {expressions : List SqlExpr} :
    bindArguments target parameters supplies = .ok expressions ↔
      supplies.positional.length ≤ parameters.length ∧ ∃ given,
        Supplies.byName target (parameters.map (·.name))
          (.ofList ((parameters.map (·.name)).zip supplies.positional)) supplies.named = .ok given ∧
        expandAll given parameters = .ok (expressions, []) := by
  unfold bindArguments
  by_cases hmany : supplies.positional.length > parameters.length
  · rw [if_pos hmany]
    constructor
    · intro h
      cases h
    · rintro ⟨hle, -⟩
      omega
  · rw [if_neg hmany]
    constructor
    · intro h
      obtain ⟨given, hgiven, h⟩ := bind_eq_ok.mp h
      obtain ⟨⟨all, missing⟩, hall, h⟩ := bind_eq_ok.mp h
      dsimp only at h
      split at h
      · rename_i hmissing
        cases h
        rw [List.isEmpty_iff.mp hmissing] at hall
        exact ⟨Nat.le_of_not_lt hmany, given, hgiven, hall⟩
      · cases h
    · rintro ⟨-, given, hgiven, hall⟩
      exact bind_eq_ok.mpr ⟨given, hgiven, bind_eq_ok.mpr ⟨_, hall, rfl⟩⟩

/-- One parameter takes one argument. -/
theorem bindArguments_singleton {target : String} {p : Parameter} {argument : Supplied}
    {expressions : List SqlExpr} (h : p.expand argument = .ok expressions) :
    bindArguments target [p] { positional := [argument] } = .ok expressions := by
  have hgiven : Dictionary.get? (Dictionary.ofList [(p.name, argument)]) p.name = some argument := by
    simp [Dictionary.ofList, Dictionary.put, Dictionary.get?]
  have hbound : p.boundTo (Dictionary.ofList [(p.name, argument)]) = .ok (expressions, []) := by
    rw [Parameter.boundTo, hgiven]
    exact map_eq_ok.mpr ⟨expressions, h, rfl⟩
  refine bindArguments_eq_ok.mpr ⟨Nat.le_refl 1, _, rfl, expandAll_cons_eq_ok.mpr ?_⟩
  exact ⟨expressions, [], [], [], hbound, rfl, (List.append_nil _).symm, rfl⟩

theorem length_bindArguments {target : String} {parameters : List Parameter}
    (hp : ∀ p ∈ parameters, p.Fits) {supplies : Supplies} {expressions : List SqlExpr}
    (h : bindArguments target parameters supplies = .ok expressions) :
    (expressions.length : Int) = Entry.totalWidth (parameters.map (·.entry)) := by
  obtain ⟨-, given, -, hall⟩ := bindArguments_eq_ok.mp h
  exact length_expandAll hp hall

/-! ## Records -/

namespace Catalog

/-- The expressions that a call binds to the columns of a record. -/
def bound (c : Catalog) (supplies : Supplies) : Except BindError (List SqlExpr) := do
  supplies.checkReserved "Selection.__call__" ["self"]
  bindArguments c.typeName c.parameters supplies

theorem select_eq (c : Catalog) (supplies : Supplies) :
    c.select supplies = (c.bound supplies).map (.ofExpressions (aliasesOf c.leaves)) := by
  unfold Catalog.select Catalog.bound
  cases supplies.checkReserved "Selection.__call__" ["self"] with
  | error e => rfl
  | ok _ => cases bindArguments c.typeName c.parameters supplies <;> rfl

theorem length_bound {c : Catalog} (hs : c.Sized) {supplies : Supplies}
    {expressions : List SqlExpr} (h : c.bound supplies = .ok expressions) :
    (expressions.length : Int) = c.width := by
  obtain ⟨-, -, h⟩ := bind_eq_ok.mp h
  have hfits : ∀ p ∈ c.parameters, p.Fits := by
    intro p hp
    obtain ⟨e, he, rfl⟩ := List.mem_map.mp hp
    exact Parameter.ofEntry_fits _ (sized_iff.mp hs e he)
  have hentries : c.parameters.map (·.entry) = c.entries := by
    rw [parameters, List.map_map]
    exact List.map_id _
  rw [length_bindArguments hfits h, hentries]
  rfl

end Catalog

/-! ## Enums -/

namespace CaseEntry

/-- Where every case lays out as many cells as it is wide, its own ones stand after those of the
cases before it. -/
theorem slice_flatMap {α : Type} {f : CaseEntry → List α} {cases : List CaseEntry}
    (hf : ∀ k ∈ cases, (f k).length = k.width.toNat) {i : Nat} {k : CaseEntry}
    (hk : cases[i]? = some k) :
    ((cases.flatMap f).drop (start cases i)).take k.width.toNat = f k := by
  induction cases generalizing i with
  | nil => cases hk
  | cons first rest ih =>
    have hfirst := hf first List.mem_cons_self
    rw [List.flatMap_cons]
    cases i with
    | zero =>
      cases hk
      rw [start_zero, List.drop_zero, List.take_left' hfirst]
    | succ i =>
      rw [start_cons_succ, ← List.drop_drop, List.drop_left' hfirst]
      exact ih (fun k hk => hf k (List.mem_cons_of_mem _ hk)) hk

theorem length_flatMap {α : Type} {f : CaseEntry → List α} {cases : List CaseEntry}
    (hf : ∀ k ∈ cases, (f k).length = k.width.toNat) :
    (cases.flatMap f).length = start cases cases.length := by
  induction cases with
  | nil => rfl
  | cons first rest ih =>
    rw [List.flatMap_cons, List.length_append, hf first List.mem_cons_self,
      ih fun k hk => hf k (List.mem_cons_of_mem _ hk), List.length_cons, start_cons_succ]

end CaseEntry

namespace EnumCatalog

/-- The cells of a case among nulls for the cells of all other cases. -/
def spread {α : Type} (null : α) (c : EnumCatalog) (name : String) (cells : List α) : List α :=
  c.cases.flatMap fun other =>
    if other.name == name then cells else List.replicate other.width.toNat null

variable {c : EnumCatalog} {k : CaseEntry}

/-- Every case lays out as many cells as it is wide, for only the case itself has its name. -/
theorem Distinct.length_slice {α : Type} (null : α) (hd : c.Distinct) (hk : k ∈ c.cases)
    {cells : List α} (hcells : (cells.length : Int) = k.width) :
    ∀ other ∈ c.cases, (if other.name == k.name then cells
      else List.replicate other.width.toNat null).length = other.width.toNat := by
  intro other hother
  split
  · rename_i hname
    obtain rfl := List.inj_on_of_nodup_map hd hother hk (eq_of_beq hname)
    omega
  · exact List.length_replicate

/-- The cells of a case and the nulls around them are as many as the enum is wide. -/
theorem length_spread {α : Type} (null : α) (hs : c.Sized) (hd : c.Distinct) (hk : k ∈ c.cases)
    {cells : List α} (hcells : (cells.length : Int) = k.width) :
    ((c.spread null k.name cells).length : Int) = c.width := by
  rw [spread, CaseEntry.length_flatMap (hd.length_slice null hk hcells), hs.start_length]

/-- The expressions that a call binds for a case to the columns of an enum. -/
def bound (c : EnumCatalog) (name : String) (supplies : Supplies) :
    Except BindError (List SqlExpr) := do
  supplies.checkReserved "VariantSelection.case" ["self", "name"]
  let entry ← c.selected name
  let expressions ← bindArguments (c.typeName ++ "." ++ name) entry.parameters supplies
  return c.spread .null name expressions

theorem select_eq (c : EnumCatalog) (name : String) (supplies : Supplies) :
    c.select name supplies =
      (c.bound name supplies).map (.ofExpressions (aliasesOf c.leaves)) := by
  unfold EnumCatalog.select EnumCatalog.bound
  cases supplies.checkReserved "VariantSelection.case" ["self", "name"] with
  | error e => rfl
  | ok _ =>
    cases c.selected name with
    | error e => rfl
    | ok entry =>
      cases hbind : bindArguments (c.typeName ++ "." ++ name) entry.parameters supplies with
      | error e => simp [bind, Except.bind, Except.map, hbind]
      | ok expressions => simp [bind, Except.bind, Except.map, hbind, pure, Except.pure, spread]

theorem selected_eq_ok {name : String} (h : c.selected name = .ok k) :
    k ∈ c.cases ∧ k.name = name := by
  unfold selected case? at h
  split at h
  · rename_i entry hfind
    cases h
    exact ⟨List.mem_of_find?_eq_some hfind, by simpa using List.find?_some hfind⟩
  · cases h

theorem length_bindCase (hs : k.Sized) {target : String} {supplies : Supplies}
    {expressions : List SqlExpr}
    (h : bindArguments target k.parameters supplies = .ok expressions) :
    (expressions.length : Int) = k.width := by
  obtain ⟨name, label, payload⟩ := k
  cases payload with
  | none => exact length_bindArguments (by simp [CaseEntry.parameters]) h
  | some e =>
    rw [CaseEntry.Sized] at hs
    have hfits : ∀ p ∈ (CaseEntry.mk name label (some e)).parameters, p.Fits := by
      intro p hp
      rw [List.mem_singleton.mp hp]
      exact Parameter.ofEntry_fits _ hs
    have hwidth := length_bindArguments hfits h
    rwa [CaseEntry.parameters, Option.toList_some, List.map_cons, List.map_cons, List.map_nil,
      List.map_nil, Entry.totalWidth, Entry.totalWidth, Int.add_zero] at hwidth

theorem length_bound (hs : c.Sized) (hd : c.Distinct) {name : String} {supplies : Supplies}
    {expressions : List SqlExpr} (h : c.bound name supplies = .ok expressions) :
    (expressions.length : Int) = c.width := by
  obtain ⟨-, -, h⟩ := bind_eq_ok.mp h
  obtain ⟨k, hk, h⟩ := bind_eq_ok.mp h
  obtain ⟨own, hown, h⟩ := bind_eq_ok.mp h
  cases h
  obtain ⟨hmem, rfl⟩ := selected_eq_ok hk
  exact length_spread _ hs hd hmem (length_bindCase (sized_iff.mp hs k hmem) hown)

end EnumCatalog

/-! ## Selections -/

namespace Group

/-- The expressions that a call of the selection binds to the columns. -/
def bound (g : Group) (case : Option String) (supplies : Supplies) :
    Except BindError (List SqlExpr) :=
  match g, case with
  | record c, none => c.bound supplies
  | record _, some _ => .error .hasNoCases
  | enum _, none => .error .callNeedsCase
  | enum c, some name => c.bound name supplies

/-- A projection is made of the expressions that are bound, each under the alias of its column. -/
theorem select_eq (g : Group) (case : Option String) (supplies : Supplies) :
    g.select case supplies =
      (g.bound case supplies).map (.ofExpressions (aliasesOf g.leaves)) := by
  cases g with
  | record c =>
    cases case with
    | none => exact c.select_eq supplies
    | some name => rfl
  | enum c =>
    cases case with
    | none => rfl
    | some name => exact c.select_eq name supplies

theorem length_bound {g : Group} (hs : g.Sized) (hd : ∀ c, g = .enum c → c.Distinct)
    {case : Option String} {supplies : Supplies} {expressions : List SqlExpr}
    (h : g.bound case supplies = .ok expressions) : (expressions.length : Int) = g.width := by
  cases g with
  | record c =>
    rw [Group.Sized] at hs
    cases case with
    | none => exact Catalog.length_bound hs h
    | some name => cases h
  | enum c =>
    rw [Group.Sized] at hs
    cases case with
    | none => cases h
    | some name => exact EnumCatalog.length_bound hs (hd c rfl) h

end Group

end RowSchema
