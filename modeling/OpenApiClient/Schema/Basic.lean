import OpenApiClient.Value.Access

/-! Schemas: one type definition of a document each. Keywords that are not structural keep the value that
is written, whatever its kind; a wrong kind shows only where the keyword is used. -/

namespace OpenApiClient

/-- What an object schema says about members that are not among its properties. -/
inductive AdditionalMembers (α : Type) where
  | unrestricted
  | forbidden
  | typed (schema : α)
  deriving Repr, Inhabited

def AdditionalMembers.isUnrestricted {α : Type} : AdditionalMembers α → Bool
  | .unrestricted => true
  | _ => false

structure Keywords where
  reference : Value := .null
  type : Value := .null
  format : Value := .null
  title : Value := .null
  description : Value := .null
  nullable : Bool := false
  required : List Value := []
  enumeration : Option (List Value) := none
  /-- Constraints are kept as they are written and never evaluated. -/
  constraints : List (Value × Value) := []
  deriving Repr, Inhabited

structure Schema where
  keywords : Keywords := {}
  items : Option Schema := none
  properties : Option (List (Value × Schema)) := none
  additional : AdditionalMembers Schema := .unrestricted
  anyOf : Option (List Schema) := none
  oneOf : Option (List Schema) := none
  allOf : Option (List Schema) := none
  deriving Repr, Inhabited

inductive TypeName where
  | absent
  | integer
  | number
  | boolean
  | string
  | null
  | array
  | object
  | other
  deriving DecidableEq, Repr, Inhabited

def TypeName.ofValue : Value → TypeName
  | .null => .absent
  | .string "integer" => .integer
  | .string "number" => .number
  | .string "boolean" => .boolean
  | .string "string" => .string
  | .string "null" => .null
  | .string "array" => .array
  | .string "object" => .object
  | _ => .other

namespace Keywords

def typeName (keywords : Keywords) : TypeName := TypeName.ofValue keywords.type

def isReference (keywords : Keywords) : Bool := !keywords.reference.isNull

def requires (keywords : Keywords) (name : Value) : Bool := keywords.required.any (·.same name)

end Keywords

namespace Schema

def typeName (schema : Schema) : TypeName := schema.keywords.typeName

def isStruct (schema : Schema) : Bool :=
  !schema.keywords.isReference && schema.typeName == .object && schema.properties.isSome

end Schema
end OpenApiClient
