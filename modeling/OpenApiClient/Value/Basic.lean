import OpenApiClient.Number.Binary64

/-! Values: what a document holds once it is read, and what a client sends and receives. Members of an
object keep their order; their keys are texts in JSON and may be other scalars in YAML. Octets, tuples and
records occur only as arguments of a client. -/

namespace OpenApiClient

inductive Value where
  | null
  | bool (truth : Bool)
  | int (number : Int)
  | float (number : Binary64)
  | string (text : String)
  | bytes (octets : List UInt8)
  | date (year month day : Nat)
  | array (items : List Value)
  | tuple (items : List Value)
  | object (members : List (Value × Value))
  | record (className : String) (fields : List (String × Value))
  deriving Repr, Inhabited

/-- What is wrong with a document that does not have the form its readers rely on. -/
inductive Malformed where
  | absentMember
  | unsupportedAccess
  | unsuitableKind
  | unpairedEntry
  deriving DecidableEq, Repr, Inhabited

namespace Value

def ofMembers (members : List (String × Value)) : Value :=
  .object (members.map fun (key, value) => (.string key, value))

def text? : Value → Option String
  | .string text => some text
  | _ => none

def isNull : Value → Bool
  | .null => true
  | _ => false

/-- Absent, zero and empty values count as false, all others as true. -/
def truth : Value → Bool
  | .null => false
  | .bool truth => truth
  | .int number => number != 0
  | .float number => !number.isZero
  | .string text => text != ""
  | .bytes octets => !octets.isEmpty
  | .date _ _ _ => true
  | .array items | .tuple items => !items.isEmpty
  | .object members => !members.isEmpty
  | .record _ _ => true

def kindName : Value → String
  | .null => "NoneType"
  | .bool _ => "bool"
  | .int _ => "int"
  | .float _ => "float"
  | .string _ => "str"
  | .bytes _ => "bytes"
  | .date _ _ _ => "date"
  | .array _ => "list"
  | .tuple _ => "tuple"
  | .object _ => "dict"
  | .record className _ => className

def integral? : Value → Option Int
  | .bool truth => some (if truth then 1 else 0)
  | .int number => some number
  | .float number => number.toInt?
  | _ => none

mutual

/-- Sameness: numbers are compared by size whatever their kind, objects without regard to order. A NaN is
the same as itself. -/
def same : Value → Value → Bool
  | .null, .null => true
  | .bool truth, other => (Value.bool truth).integral? == other.integral?
  | .int number, other => some number == other.integral?
  | .float number, other =>
      match other with
      | .float other => number == other || number.equal other
      | other => number.toInt?.isSome && number.toInt? == other.integral?
  | .string text, .string other => text == other
  | .bytes octets, .bytes other => octets == other
  | .date year month day, .date y m d => year == y && month == m && day == d
  | .array items, .array others => sameItems items others
  | .tuple items, .tuple others => sameItems items others
  | .object members, .object others => members.length == others.length && sameMembers members others
  | .record className fields, .record other others => className == other && sameFields fields others
  | _, _ => false

def sameItems : List Value → List Value → Bool
  | [], [] => true
  | item :: items, other :: others => item.same other && sameItems items others
  | _, _ => false

def sameMembers : List (Value × Value) → List (Value × Value) → Bool
  | [], _ => true
  | (key, value) :: members, others =>
      (others.any fun (otherKey, other) => key.same otherKey && value.same other) &&
        sameMembers members others

def sameFields : List (String × Value) → List (String × Value) → Bool
  | [], [] => true
  | (name, value) :: fields, (otherName, other) :: others =>
      name == otherName && value.same other && sameFields fields others
  | _, _ => false

end

/-- Equality differs from sameness for a NaN alone, which is not equal to itself. -/
def equal : Value → Value → Bool
  | .float number, .float other => number.equal other
  | left, right => left.same right

mutual

/-- Can the value be a key? Whatever can be changed cannot. -/
def isKey : Value → Bool
  | .array _ | .object _ | .record _ _ => false
  | .tuple items => areKeys items
  | _ => true

def areKeys : List Value → Bool
  | [] => true
  | item :: items => item.isKey && areKeys items

end

end Value
end OpenApiClient
