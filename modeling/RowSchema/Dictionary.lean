/-! Dictionaries that keep the order in which their keys were first put. -/

namespace RowSchema

/-- Entries by key. A key is put at the end once and then stays in its place. -/
abbrev Dictionary (κ α : Type) := List (κ × α)

namespace Dictionary

variable {κ α : Type} [BEq κ]

def get? : Dictionary κ α → κ → Option α
  | [], _ => none
  | (l, a) :: rest, k => if l == k then some a else get? rest k

def has (d : Dictionary κ α) (k : κ) : Bool := (d.get? k).isSome

def put : Dictionary κ α → κ → α → Dictionary κ α
  | [], k, a => [(k, a)]
  | (l, b) :: rest, k, a => if l == k then (l, a) :: rest else (l, b) :: put rest k a

def keys (d : Dictionary κ α) : List κ := d.map (·.1)

def ofList (entries : List (κ × α)) : Dictionary κ α :=
  entries.foldl (fun d e => d.put e.1 e.2) []

theorem keys_put (d : Dictionary κ α) (k : κ) (a : α) :
    (d.put k a).keys = if d.has k then d.keys else d.keys ++ [k] := by
  induction d with
  | nil => rfl
  | cons e rest ih =>
    by_cases h : e.1 == k
    · simp [put, keys, has, get?, h]
    · simp only [put, h, Bool.false_eq_true, ↓reduceIte, keys, has, get?, List.map_cons] at *
      split <;> simp_all

theorem get?_put_self [LawfulBEq κ] (d : Dictionary κ α) (k : κ) (a : α) :
    (d.put k a).get? k = some a := by
  induction d with
  | nil => simp [put, get?]
  | cons e rest ih => by_cases h : e.1 == k <;> simp_all [put, get?]

theorem get?_put_of_ne [LawfulBEq κ] (d : Dictionary κ α) {k l : κ} (a : α) (h : l ≠ k) :
    (d.put k a).get? l = d.get? l := by
  induction d with
  | nil => simp [put, get?, Ne.symm h]
  | cons e rest ih =>
    by_cases hk : e.1 = k
    · simp [put, get?, hk, Ne.symm h]
    · by_cases hl : e.1 = l <;> simp_all [put, get?]

end Dictionary

end RowSchema
