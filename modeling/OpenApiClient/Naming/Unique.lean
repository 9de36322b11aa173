import OpenApiClient.Entries

/-! Making names unique. The first of equal names stays as it is; each later one gets the least number from two on
that makes it new. Beside every name that was given out stands the last number that was tried for it, where the
search for the next one goes on. -/

namespace OpenApiClient.Naming

def numbered (name : String) (number : Nat) : String := name ++ "_" ++ toString number

/-- The names that were given out, in order, each with the last number that was tried for it. -/
abbrev GivenNames := List (String × Nat)

/-- The first number, from `number` on, under which the name was not given out. Among one number more than there
are names given out, one is free. -/
def freeNumber (given : GivenNames) (name : String) (number : Nat) : Nat → Nat
  | 0 => number
  | fuel + 1 =>
      if (Entries.find? (numbered name number) given).isSome then freeNumber given name (number + 1) fuel
      else number

/-- The name, with a number after it when it was given out before, and what is given out then. -/
def giveOut (given : GivenNames) (name : String) : String × GivenNames :=
  match Entries.find? name given with
  | none => (name, Entries.set name 1 given)
  | some tried =>
      let number := freeNumber given name (tried + 1) given.length
      let fresh := numbered name number
      (fresh, Entries.set name number (Entries.set fresh 1 given))

def uniqueFrom (given : GivenNames) : List String → List String
  | [] => []
  | name :: rest => (giveOut given name).1 :: uniqueFrom (giveOut given name).2 rest

def unique (names : List String) : List String := uniqueFrom [] names

end OpenApiClient.Naming
