import OpenApiClient.Failure
import OpenApiClient.Text.Character
import OpenApiClient.Value.Access

/-! Pointers into a document. A local reference names the keys on the way to a value; in a key a tilde is
written as ~0 and a slash as ~1. -/

namespace OpenApiClient

def replaceTilde (mark by_ : Char) : List Char → List Char
  | '~' :: c :: rest =>
      if c = mark then by_ :: replaceTilde mark by_ rest else '~' :: replaceTilde mark by_ (c :: rest)
  | c :: rest => c :: replaceTilde mark by_ rest
  | [] => []

def unescapeKey (part : List Char) : List Char := replaceTilde '0' '~' (replaceTilde '1' '/' part)

def pointerKeys? (reference : String) : Option (List String) :=
  (Text.after? reference.toList ['#', '/']).map fun rest =>
    (Text.splitAt '/' rest).map fun part => String.ofList (unescapeKey part)

namespace Value

def follow? (value : Value) : List String → Option Value
  | [] => some value
  | key :: keys =>
      match value with
      | .object members => (lookup key members).bind fun found => found.follow? keys
      | _ => none

def resolve (document : Value) (reference : String) : Except Failure Value :=
  match pointerKeys? reference with
  | none => .error (.ofProblem (.unsupportedReference reference))
  | some keys =>
      match document.follow? keys with
      | some found => .ok found
      | none => .error (.ofProblem (.unknownReference reference))

mutual

def referenceCount : Value → Nat
  | .array items | .tuple items => referenceCountItems items
  | .object members => referenceCountMembers members
  | _ => 0

def referenceCountItems : List Value → Nat
  | [] => 0
  | item :: rest => item.referenceCount + referenceCountItems rest

def referenceCountMembers : List (Value × Value) → Nat
  | [] => 0
  | (key, value) :: rest =>
      (if key.same (.string "$ref") then 1 else 0) + value.referenceCount + referenceCountMembers rest

end

/-- Follows references from a value until there is none; those followed so far are not followed again. The
second and every later one stands in the document, so one step more than there are references is enough. -/
def dereferenceFrom (document : Value) : Nat → List String → Value → Except Failure Value
  | 0, _, value => .ok value
  | fuel + 1, seen, value => do
      if ← value.has "$ref" then
        let reference ←
          match value with
          | .object members => pure ((lookup "$ref" members).getD .null)
          | _ => throw (.malformed .unsuitableKind)
        let reference ← (← reference.asKey).asText
        if seen.contains reference then throw (.ofProblem (.circularReference reference))
        else dereferenceFrom document fuel (reference :: seen) (← document.resolve reference)
      else pure value

def dereference (document value : Value) : Except Failure Value :=
  dereferenceFrom document (document.referenceCount + 3) [] value

end Value
end OpenApiClient
