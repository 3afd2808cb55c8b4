import Mathlib.Data.List.Perm.Basic
import RowSchema.Proofs.Basic
import RowSchema.TypeHint.Name

/-! # Hints in layers

A hint may be made optional and annotated any number of times, in any order. Unions stay flat and
annotations do not nest, so layers may fall together. Still, unwrapping comes back to the hint
inside: in at most one turn for each layer, with all markers, and optional if any layer is. -/

namespace RowSchema

namespace TypeHint

variable {h k u : TypeHint} {style : UnionStyle}

/-! ## Unwrapping turn by turn -/

namespace Unwrapped

/-- One turn of unwrapping: a layer is taken off the base, if there is one. -/
def turn? (u : Unwrapped) : Option Unwrapped :=
  match u.base with
  | .annotated base markers => some { u with base, markers := u.markers ++ markers }
  | .union _ [a, b] =>
    if a.isAbsent && !b.isAbsent then some { u with base := b, isOptional := true }
    else if b.isAbsent && !a.isAbsent then some { u with base := a, isOptional := true }
    else none
  | _ => none

/-- What a number of turns come to, if there are as many. -/
def after : Nat → Unwrapped → Option Unwrapped
  | 0, u => some u
  | n + 1, u => u.turn?.bind (after n)

/-- What is there once the base is unwrapped as well. -/
def finish (u : Unwrapped) : Unwrapped where
  base := u.base.unwrap.base
  isOptional := u.isOptional || u.base.unwrap.isOptional
  markers := u.markers ++ u.base.unwrap.markers

end Unwrapped

/-- How many layers there are to take off. -/
def depth : TypeHint → Nat
  | .annotated base _ => base.depth + 1
  | .union _ [a, b] =>
    if a.isAbsent && !b.isAbsent then b.depth + 1
    else if b.isAbsent && !a.isAbsent then a.depth + 1
    else 0
  | _ => 0

namespace Unwrapped

variable {u v : Unwrapped}

/-- A turn leaves what there is to come to as it is, and one layer less to take off. -/
theorem of_turn? (h : u.turn? = some v) :
    v.finish = u.finish ∧ u.base.depth = v.base.depth + 1 := by
  obtain ⟨base, isOptional, markers⟩ := u
  unfold turn? at h
  dsimp only at h
  split at h
  · obtain rfl := Option.some.inj h
    exact ⟨by simp [finish, unwrap, List.append_assoc], by simp [depth]⟩
  · split at h
    · next hfirst =>
      obtain rfl := Option.some.inj h
      exact ⟨by simp [finish, unwrap, hfirst], by simp [depth, hfirst]⟩
    · next hfirst =>
      split at h
      · next hlast =>
        obtain rfl := Option.some.inj h
        exact ⟨by simp [finish, unwrap, hfirst, hlast], by simp [depth, hfirst, hlast]⟩
      · cases h
  · cases h

/-- Where there is no turn, there is nothing to take off. -/
theorem of_turn?_eq_none (h : u.turn? = none) : u.finish = u ∧ u.base.depth = 0 := by
  obtain ⟨base, isOptional, markers⟩ := u
  unfold turn? at h
  dsimp only at h
  split at h
  · cases h
  · split at h
    · cases h
    · next hfirst =>
      split at h
      · cases h
      · next hlast =>
        exact ⟨by simp [finish, unwrap, hfirst, hlast], by simp [depth, hfirst, hlast]⟩
  · next hannotated hunion =>
    have hunwrap : base.unwrap = { base } := by
      rw [unwrap]
      · exact hannotated
      · exact hunion
    have hdepth : base.depth = 0 := by
      rw [depth]
      · exact hannotated
      · exact hunion
    exact ⟨by simp [finish, hunwrap], hdepth⟩

/-- There are as many turns as there are layers to take off. -/
theorem after_depth {n : Nat} (hn : u.base.depth = n) :
    after n u = some u.finish ∧ u.finish.turn? = none := by
  induction n generalizing u with
  | zero =>
    cases hturn : u.turn? with
    | none =>
      rw [(of_turn?_eq_none hturn).1]
      exact ⟨rfl, hturn⟩
    | some v =>
      have hdepth := (of_turn? hturn).2
      omega
  | succ n ih =>
    cases hturn : u.turn? with
    | none =>
      have hdepth := (of_turn?_eq_none hturn).2
      omega
    | some v =>
      obtain ⟨hfinish, hdepth⟩ := of_turn? hturn
      obtain ⟨hafter, hlast⟩ := ih (u := v) (by omega)
      rw [after, hturn, Option.bind_some, ← hfinish]
      exact ⟨hafter, hlast⟩

end Unwrapped

/-- Unwrapping ends after as many turns as there are layers to take off. -/
theorem unwrap_turns (h : TypeHint) :
    Unwrapped.after h.depth { base := h } = some h.unwrap ∧ h.unwrap.turn? = none := by
  have hfinish : Unwrapped.finish { base := h } = h.unwrap := by
    rw [Unwrapped.finish, Bool.false_or, List.nil_append]
  rw [← hfinish]
  exact Unwrapped.after_depth rfl

/-! ## Layers -/

/-- One layer around a hint. -/
inductive Layer where
  /-- a union by name with the absent value -/
  | optional
  /-- bars between the hint and the absent value, which may come first -/
  | barred (absentFirst : Bool)
  | annotated (markers : List Marker)

namespace Layer

def around (h : TypeHint) : Layer → Except HintError TypeHint
  | optional => .ok h.optionalOf
  | barred false => .ok (h.either absent)
  | barred true => .ok (absent.either h)
  | annotated markers => h.annotate markers

def isOptional : Layer → Bool
  | annotated _ => false
  | _ => true

def markers : Layer → List Marker
  | annotated markers => markers
  | _ => []

end Layer

/-- The hint with the layers around it, the inner ones first. -/
def layered (h : TypeHint) (layers : List Layer) : Except HintError TypeHint :=
  layers.foldlM Layer.around h

/-- The hint is no union, no annotation and not the absent value. -/
def isCore : TypeHint → Bool
  | .union _ _ | .annotated _ _ => false
  | h => !h.isAbsent

/-! ### Optional layers -/

/-- The union of the hint with the absent value, in either order. -/
inductive OptionalOf (k : TypeHint) : TypeHint → Prop
  | absentLast {style : UnionStyle} : OptionalOf k (.union style [k, absent])
  | absentFirst {style : UnionStyle} : OptionalOf k (.union style [absent, k])

/-- The hint is one by itself, or the union of some hint with the absent value. -/
inductive Narrow : TypeHint → Prop
  | alone {h : TypeHint} (members : h.members = [h]) (present : h.isAbsent = false) : Narrow h
  | optional {h k : TypeHint} (present : k.isAbsent = false) (union : OptionalOf k h) : Narrow h

theorem absent_same (h : k.isAbsent = false) : absent.same k = false := by
  cases k with
  | builtin t => cases t <;> first | rfl | cases h
  | _ => rfl

theorem same_absent (h : k.isAbsent = false) : k.same absent = false := by
  cases k with
  | builtin t => cases t <;> first | rfl | cases h
  | _ => rfl

theorem OptionalOf.unwrap (hu : OptionalOf k u) (present : k.isAbsent = false) :
    u.unwrap = { k.unwrap with isOptional := true } := by
  have habsent : absent.isAbsent = true := rfl
  cases hu <;> simp [TypeHint.unwrap, present, habsent]

theorem OptionalOf.depth (hu : OptionalOf k u) (present : k.isAbsent = false) :
    u.depth = k.depth + 1 := by
  have habsent : absent.isAbsent = true := rfl
  cases hu <;> simp [TypeHint.depth, present, habsent]

theorem united_of_distinct {hints : List TypeHint} {a b : TypeHint}
    (h : distinct [] (hints.flatMap members) = [a, b]) :
    united style hints = .union style [a, b] := by
  rw [united, h]

/-- A narrow hint and the absent value make an optional hint, in whichever order. -/
theorem Narrow.exists_optional (hn : Narrow h) : ∃ k, k.isAbsent = false ∧
    (k = h ∨ OptionalOf k h) ∧ ∀ style, OptionalOf k (united style [h, absent]) ∧
      OptionalOf k (united style [absent, h]) := by
  have hself : absent.same absent = true := rfl
  have hmembers : absent.members = [absent] := rfl
  cases hn with
  | alone members present =>
    have hleft := absent_same present
    have hright := same_absent present
    refine ⟨h, present, .inl rfl, fun style => ?_⟩
    have hlast : united style [h, absent] = .union style [h, absent] :=
      united_of_distinct (by simp [members, hmembers, distinct, hleft])
    have hfirst : united style [absent, h] = .union style [absent, h] :=
      united_of_distinct (by simp [members, hmembers, distinct, hright])
    rw [hlast, hfirst]
    exact ⟨.absentLast, .absentFirst⟩
  | @optional k present hk =>
    have hleft := absent_same present
    have hright := same_absent present
    have hunion (style : UnionStyle) (hints : List TypeHint) :
        (TypeHint.union style hints).members = hints := rfl
    refine ⟨k, present, .inr hk, fun style => ?_⟩
    cases hk with
    | @absentLast written =>
      have hlast : united style [.union written [k, absent], absent] = .union style [k, absent] :=
        united_of_distinct (by simp [hunion, hmembers, distinct, hleft, hself])
      have hfirst : united style [absent, .union written [k, absent]] = .union style [absent, k] :=
        united_of_distinct (by simp [hunion, hmembers, distinct, hright, hself])
      rw [hlast, hfirst]
      exact ⟨.absentLast, .absentFirst⟩
    | @absentFirst written =>
      have hlast : united style [.union written [absent, k], absent] = .union style [absent, k] :=
        united_of_distinct (by simp [hunion, hmembers, distinct, hright, hself])
      have hfirst : united style [absent, .union written [absent, k]] = .union style [absent, k] :=
        united_of_distinct (by simp [hunion, hmembers, distinct, hright, hself])
      rw [hlast, hfirst]
      exact ⟨.absentFirst, .absentFirst⟩

/-! ### What a layer adds -/

/-- The hint is unwrapped like the one inside of the layer, with what the layer adds. -/
structure Wraps (layer : Layer) (h u : TypeHint) : Prop where
  narrow : Narrow u
  base : u.unwrap.base = h.unwrap.base
  isOptional : u.unwrap.isOptional = (h.unwrap.isOptional || layer.isOptional)
  markers : u.unwrap.markers.Perm (h.unwrap.markers ++ layer.markers)
  depth : u.depth ≤ h.depth + 1

theorem wraps_optional {layer : Layer} (present : k.isAbsent = false) (hk : k = h ∨ OptionalOf k h)
    (hu : OptionalOf k u) (hoptional : layer.isOptional = true) (hmarkers : layer.markers = []) :
    Wraps layer h u := by
  have hunwrap := hu.unwrap present
  have hdepth := hu.depth present
  have hsame : k.unwrap.base = h.unwrap.base ∧ k.unwrap.markers = h.unwrap.markers ∧
      k.depth ≤ h.depth := by
    rcases hk with rfl | hk
    · exact ⟨rfl, rfl, Nat.le_refl _⟩
    · rw [hk.unwrap present, hk.depth present]
      exact ⟨rfl, rfl, Nat.le_succ _⟩
  obtain ⟨hbase, hmarkers', hdepth'⟩ := hsame
  constructor
  · exact .optional present hu
  · rw [hunwrap, ← hbase]
  · rw [hunwrap, hoptional, Bool.or_true]
  · rw [hunwrap, hmarkers, List.append_nil, ← hmarkers']
  · rw [hdepth]
    exact Nat.succ_le_succ hdepth'

theorem wraps_annotated {markers : List Marker} (hu : h.annotate markers = .ok u) :
    Wraps (.annotated markers) h u := by
  unfold annotate at hu
  split at hu
  · cases hu
  · split at hu
    · next base earlier =>
      cases hu
      constructor
      · exact .alone rfl rfl
      · simp [unwrap]
      · simp [unwrap, Layer.isOptional]
      · simp only [unwrap, Layer.markers, List.append_assoc]
        exact List.perm_append_comm.append_left _
      · simp [depth]
    · next hannotated =>
      cases hu
      constructor
      · exact .alone rfl rfl
      · simp [unwrap]
      · simp [unwrap, Layer.isOptional]
      · simp only [unwrap, Layer.markers]
        exact List.perm_append_comm
      · simp [depth]

theorem Layer.wraps {layer : Layer} (hn : Narrow h) (hu : layer.around h = .ok u) :
    Wraps layer h u := by
  obtain ⟨k, present, hk, hoptional⟩ := hn.exists_optional
  cases layer with
  | optional =>
    obtain rfl := Except.ok.inj hu
    exact wraps_optional present hk (hoptional _).1 rfl rfl
  | barred absentFirst =>
    cases absentFirst <;> obtain rfl := Except.ok.inj hu
    · exact wraps_optional present hk (hoptional _).1 rfl rfl
    · exact wraps_optional present hk (hoptional _).2 rfl rfl
  | annotated markers => exact wraps_annotated hu

/-- What all layers add together. -/
theorem layered_wraps {layers : List Layer} (hn : Narrow h) (hu : h.layered layers = .ok u) :
    u.unwrap.base = h.unwrap.base ∧
      u.unwrap.isOptional = (h.unwrap.isOptional || layers.any Layer.isOptional) ∧
      u.unwrap.markers.Perm (h.unwrap.markers ++ layers.flatMap Layer.markers) ∧
      u.depth ≤ h.depth + layers.length := by
  induction layers generalizing h with
  | nil =>
    obtain rfl := Except.ok.inj hu
    simp
  | cons layer layers ih =>
    obtain ⟨next, hnext, hrest⟩ := bind_eq_ok.mp hu
    have hwraps := layer.wraps hn hnext
    obtain ⟨hbase, hoptional, hmarkers, hdepth⟩ := ih hwraps.narrow hrest
    have hlayer := hwraps.depth
    refine ⟨hbase.trans hwraps.base, ?_, ?_, ?_⟩
    · rw [hoptional, hwraps.isOptional, List.any_cons, Bool.or_assoc]
    · rw [List.flatMap_cons, ← List.append_assoc]
      exact hmarkers.trans (hwraps.markers.append_right _)
    · rw [List.length_cons]
      omega

/-! ## Declared types -/

/-- There is nothing to take off a core. -/
theorem narrow_of_isCore (h : k.isCore = true) :
    Narrow k ∧ k.unwrap = { base := k } ∧ k.depth = 0 := by
  cases k with
  | union style members => cases h
  | annotated base markers => cases h
  | builtin t =>
    have hpresent : isAbsent (.builtin t) = false := by simpa [isCore] using h
    exact ⟨.alone rfl hpresent, by simp [unwrap], by simp [depth]⟩
  | _ => exact ⟨.alone rfl rfl, by simp [unwrap], by simp [depth]⟩

theorem typeRef_eq (h : TypeHint) : h.typeRef = match h.unwrap.base.element? with
    | some element =>
      { name := element.unwrap.base.name, isOptional := h.unwrap.isOptional, isArray := true }
    | none => { name := h.unwrap.base.name, isOptional := h.unwrap.isOptional } := rfl

/-- Whatever layers are put around a hint that is no union, no annotation and not the absent value:
unwrapping ends after at most one turn for each, and comes back to the hint, with all markers, and
optional just if any layer is. The declared type is that of the hint but for being optional. -/
theorem typeRef_layered {core hint : TypeHint} {layers : List Layer} (hcore : core.isCore = true)
    (h : core.layered layers = .ok hint) :
    (∃ n ≤ layers.length, Unwrapped.after n { base := hint } = some hint.unwrap ∧
      hint.unwrap.turn? = none) ∧
    hint.unwrap.base = core ∧
    hint.unwrap.isOptional = layers.any Layer.isOptional ∧
    hint.unwrap.markers.Perm (layers.flatMap Layer.markers) ∧
    hint.typeRef = { core.typeRef with isOptional := layers.any Layer.isOptional } := by
  obtain ⟨hnarrow, hunwrap, hdepth⟩ := narrow_of_isCore hcore
  obtain ⟨hbase, hoptional, hmarkers, hlength⟩ := layered_wraps hnarrow h
  rw [hunwrap] at hbase hoptional hmarkers
  rw [hdepth, Nat.zero_add] at hlength
  rw [Bool.false_or] at hoptional
  refine ⟨⟨hint.depth, hlength, unwrap_turns hint⟩, hbase, hoptional, hmarkers, ?_⟩
  rw [typeRef_eq, typeRef_eq core, hbase, hoptional, hunwrap]
  split <;> rfl

/-- A list of integers in six layers. Two annotations next to each other fall together, and so do
two unions. -/
theorem typeRef_layered_list : ∃ hint,
    layered (.list (.builtin .integer)) [.annotated [.remark "a"], .annotated [.columns], .optional,
      .barred true, .annotated [.ephemeral, .remark "b"], .optional] = .ok hint ∧
    hint.typeRef = { name := "Int", isOptional := true, isArray := true } ∧
    hint.unwrap.markers.Perm [.remark "a", .columns, .ephemeral, .remark "b"] := by
  have hcore : (list (.builtin .integer)).isCore = true := rfl
  obtain ⟨hint, hlayered⟩ : ∃ hint, layered (.list (.builtin .integer)) [.annotated [.remark "a"],
      .annotated [.columns], .optional, .barred true, .annotated [.ephemeral, .remark "b"],
      .optional] = .ok hint := ⟨_, rfl⟩
  obtain ⟨-, -, -, hmarkers, htype⟩ := typeRef_layered hcore hlayered
  refine ⟨hint, hlayered, htype.trans ?_, hmarkers⟩
  simp [typeRef_eq, unwrap, element?, name, BuiltinType.name, Layer.isOptional]

end TypeHint

end RowSchema
