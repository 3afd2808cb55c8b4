/-! Aliases: names made distinct by numbered suffixes. -/

namespace RowSchema.Alias

def numbered (name : String) (n : Nat) : String := name ++ "_" ++ toString n

/-- The least number above `n` that makes of the name none of the `taken` ones. Of one more number
than there are taken names, one is free. -/
def nextFree (taken : List String) (name : String) (n : Nat) : Nat :=
  ((List.range' (n + 1) (taken.length + 1)).find? fun i => !taken.contains (numbered name i)).getD
    (n + taken.length + 1)

/-- The aliases of the names that are left. `used` holds the last number given to each name. -/
def assign (names taken : List String) (used : String → Nat) : List String → List String
  | [] => []
  | name :: rest =>
    if names.count name == 1 then name :: assign names taken used rest
    else
      let n := nextFree taken name (used name)
      let candidate := numbered name n
      candidate :: assign names (candidate :: taken)
        (fun other => if other == name then n else used other) rest

/-- A name that occurs once stays as it is. Every occurrence of another one gets the next number
that makes of it neither one of the names nor an alias given before. -/
def disambiguate (names : List String) : List String := assign names names (fun _ => 0) names

end RowSchema.Alias
