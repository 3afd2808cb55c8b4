import RowSchema.Record

/-! Type hints: what a class says about the types of its fields. Hints are kept in a normal form, in
which unions are flat and free of repetitions, and annotations do not nest. -/

namespace RowSchema

/-- The types that need no declaration. -/
inductive BuiltinType where
  | integer
  | double
  | string
  | boolean
  | bytes
  | dateTime
  | date
  | uuid
  | decimal
  | list
  | dict
  /-- the type of the absent value -/
  | absent
deriving DecidableEq, Repr

/-- How a union is written: by name, or with bars between its members. -/
inductive UnionStyle where
  | named
  | barred
deriving DecidableEq, Repr

mutual

inductive TypeHint where
  | builtin (t : BuiltinType)
  /-- a class with fields -/
  | record (id : ClassId)
  /-- any other class -/
  | plain (id : ClassId)
  | list (element : TypeHint)
  | tuple (members : List TypeHint)
  | dict (key value : TypeHint)
  | union (style : UnionStyle) (members : List TypeHint)
  | annotated (base : TypeHint) (markers : List Marker)

/-- What an annotation adds to a type. -/
inductive Marker where
  | column (name : Option String) (representation : Option TypeHint) (primaryKey : Option Bool)
      (generated : Option String)
  /-- the field is not stored -/
  | ephemeral
  /-- the field is a column group -/
  | columns
  /-- a remark for others -/
  | remark (text : String)

end

instance : Inhabited TypeHint := ⟨.builtin .absent⟩

mutual

/-- Whether two hints denote one type. The members of unions count in any order. -/
def TypeHint.same : TypeHint → TypeHint → Bool
  | .builtin t, .builtin u => t == u
  | .record a, .record b => a == b
  | .plain a, .plain b => a == b
  | .list a, .list b => a.same b
  | .tuple as, .tuple bs => TypeHint.sameList as bs
  | .dict a b, .dict c d => a.same c && b.same d
  | .union _ as, .union _ bs => TypeHint.sameMembers as bs
  | .annotated a ms, .annotated b ns => a.same b && Marker.sameList ms ns
  | _, _ => false
termination_by structural h => h

def TypeHint.sameList : List TypeHint → List TypeHint → Bool
  | [], [] => true
  | a :: as, b :: bs => a.same b && TypeHint.sameList as bs
  | _, _ => false
termination_by structural hints => hints

/-- Whether two lists without repetitions have the same members. -/
def TypeHint.sameMembers : List TypeHint → List TypeHint → Bool
  | [], bs => bs.isEmpty
  | a :: as, bs =>
    bs.any (fun b => a.same b) && TypeHint.sameMembers as (bs.filter fun b => !a.same b)
termination_by structural hints => hints

def Marker.same : Marker → Marker → Bool
  | .column n none k g, .column m none l h => n == m && k == l && g == h
  | .column n (some a) k g, .column m (some b) l h => n == m && a.same b && k == l && g == h
  | .ephemeral, .ephemeral => true
  | .columns, .columns => true
  | .remark s, .remark t => s == t
  | _, _ => false
termination_by structural m => m

def Marker.sameList : List Marker → List Marker → Bool
  | [], [] => true
  | a :: as, b :: bs => a.same b && Marker.sameList as bs
  | _, _ => false
termination_by structural markers => markers

end

/-- Why parts make no hint. -/
inductive HintError where
  | emptyUnion
  /-- no members to put bars between -/
  | noMembers
  | unmarked
deriving DecidableEq, Repr

def HintError.message : HintError → String
  | emptyUnion => "Cannot take a Union of no types."
  | noMembers => "reduce() of empty iterable with no initial value"
  | unmarked =>
    "Annotated[...] should be used with at least two arguments (a type and an annotation)."

namespace TypeHint

def absent : TypeHint := .builtin .absent

def isAbsent : TypeHint → Bool
  | .builtin .absent => true
  | _ => false

/-- The members of a union; any other hint is its own only member. -/
def members : TypeHint → List TypeHint
  | .union _ members => members
  | h => [h]

/-- The hints without those that repeat an earlier one. -/
def distinct (seen : List TypeHint) : List TypeHint → List TypeHint
  | [] => []
  | h :: rest =>
    if seen.any (h.same ·) then distinct seen rest else h :: distinct (h :: seen) rest

/-- A union of hints; a union of one is that hint. -/
def united (style : UnionStyle) (hints : List TypeHint) : TypeHint :=
  match distinct [] (hints.flatMap members) with
  | [h] => h
  | members => .union style members

/-- The union of hints, written by name. -/
def unionOf (hints : List TypeHint) : Except HintError TypeHint :=
  if hints.isEmpty then .error .emptyUnion else .ok (united .named hints)

def optionalOf (h : TypeHint) : TypeHint := united .named [h, absent]

/-- Whether a hint turns the bars that it is written between into a union by name. -/
def isNamed : TypeHint → Bool
  | .union .named _ => true
  | .annotated _ _ => true
  | _ => false

/-- The hint `a | b`. -/
def either (a b : TypeHint) : TypeHint :=
  united (if a.isNamed || b.isNamed then .named else .barred) [a, b]

/-- The hint with bars between its members. -/
def barred : List TypeHint → Except HintError TypeHint
  | [] => .error .noMembers
  | first :: rest => .ok (rest.foldl either first)

/-- A hint with more markers; those it has already come first. -/
def annotate (h : TypeHint) (markers : List Marker) : Except HintError TypeHint :=
  if markers.isEmpty then .error .unmarked
  else
    match h with
    | .annotated base earlier => .ok (.annotated base (earlier ++ markers))
    | h => .ok (.annotated h markers)

/-- Whether a value of the hint may be absent, its type without that, and all markers around it,
the outer ones first. -/
structure Unwrapped where
  base : TypeHint
  isOptional : Bool := false
  markers : List Marker := []

def unwrap : TypeHint → Unwrapped
  | .annotated base markers =>
    let inner := base.unwrap
    { inner with markers := markers ++ inner.markers }
  | .union style [a, b] =>
    if a.isAbsent && !b.isAbsent then { b.unwrap with isOptional := true }
    else if b.isAbsent && !a.isAbsent then { a.unwrap with isOptional := true }
    else { base := .union style [a, b] }
  | h => { base := h }

/-- The class that a hint is, if it is one by itself. The types that need no declaration have number
zero. -/
def class? : TypeHint → Option ClassId
  | .record id | .plain id => some id
  | .builtin _ => some ⟨0, "", "builtins"⟩
  | _ => none

end TypeHint

end RowSchema
