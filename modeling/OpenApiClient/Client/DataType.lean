/-! Types of the data that a client reads. Float, typed containers and records say how data is read; data
of any other type is taken as it is. -/

namespace OpenApiClient.Client

inductive DataType where
  | text
  | truth
  | integer
  | float
  | any
  | nothing
  | array
  | object
  | list (item : DataType)
  | map (item : DataType)
  | record (className : String)
  /-- One of several types, none of them a union and no two the same. -/
  | union (members : List DataType)
  deriving Repr, Inhabited

namespace DataType

mutual

def same : DataType → DataType → Bool
  | .text, .text | .truth, .truth | .integer, .integer | .float, .float | .any, .any
  | .nothing, .nothing | .array, .array | .object, .object => true
  | .list item, .list other => item.same other
  | .map item, .map other => item.same other
  | .record className, .record other => className == other
  | .union members, .union others => members.length == others.length && sameMembers members others
  | _, _ => false

def sameMembers : List DataType → List DataType → Bool
  | [], _ => true
  | member :: members, others => others.any (fun other => member.same other) && sameMembers members others

end

def isNothing : DataType → Bool
  | .nothing => true
  | _ => false

def alternatives : DataType → List DataType
  | .union members => members
  | single => [single]

def distinct (types : List DataType) : List DataType :=
  types.foldl (fun kept type => if kept.any (same type) then kept else kept ++ [type]) []

def oneOf (types : List DataType) : DataType :=
  match distinct (types.flatMap alternatives) with
  | [single] => single
  | several => .union several

/-- The type that data is read by. A union decides only if null has a single type beside it. -/
def essence : DataType → DataType
  | .union members =>
      match members.filter fun member => !member.isNothing with
      | [single] => single
      | _ => .any
  | single => single

end DataType
end OpenApiClient.Client
