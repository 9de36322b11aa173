import OpenApiClient.Client.DataType

/-! Types as declarations write them. A written type is made of names and denotes a type if every name in
it can be seen from where it stands. -/

namespace OpenApiClient.Client

inductive WrittenType where
  | named (name : String)
  | null
  | list (item : WrittenType)
  | map (item : WrittenType)
  | optional (item : WrittenType)
  | union (members : List WrittenType)
  | alternatives (members : List WrittenType)
  deriving Repr, Inhabited

inductive TypeFault where
  | invisible (name : String)
  | joinedNulls
  deriving DecidableEq, Repr, Inhabited

def TypeFault.message : TypeFault → String
  | .invisible name => "name '" ++ name ++ "' is not defined"
  | .joinedNulls => "unsupported operand type(s) for |: 'NoneType' and 'NoneType'"

def builtinTypes : List (String × DataType) :=
  [("str", .text), ("bool", .truth), ("int", .integer), ("float", .float), ("list", .array),
    ("dict", .object)]

def importedTypes : List (String × DataType) :=
  [("Any", .any), ("Int32", .integer), ("Int64", .integer), ("Float32", .float), ("Float64", .float),
    ("List", .array), ("Dict", .object)]

def importedForms : List String := ["Optional", "Union"]

def isBuiltin (name : String) : Bool := (builtinTypes.lookup name).isSome

def isImported (name : String) : Bool :=
  (importedTypes.lookup name).isSome || importedForms.contains name

def namedType (name : String) : DataType :=
  ((builtinTypes ++ importedTypes).lookup name).getD (.record name)

def see (visible : String → Bool) (name : String) : Except TypeFault Unit :=
  if visible name then .ok () else .error (.invisible name)

namespace WrittenType

def beginsWithNulls : List WrittenType → Bool
  | .null :: .null :: _ => true
  | _ => false

mutual

/-- The type that is written. The names are looked at from left to right. -/
def denote (visible : String → Bool) : WrittenType → Except TypeFault DataType
  | .named name => do
      see visible name
      pure (namedType name)
  | .null => .ok .nothing
  | .list item => do
      see visible "list"
      .list <$> item.denote visible
  | .map item => do
      see visible "dict"
      see visible "str"
      .map <$> item.denote visible
  | .optional item => do
      see visible "Optional"
      pure (.oneOf [← item.denote visible, .nothing])
  | .union members => do
      see visible "Union"
      .oneOf <$> denoteAll visible members
  | .alternatives members =>
      if beginsWithNulls members then .error .joinedNulls else .oneOf <$> denoteAll visible members

def denoteAll (visible : String → Bool) : List WrittenType → Except TypeFault (List DataType)
  | [] => .ok []
  | member :: members => do
      let type ← member.denote visible
      pure (type :: (← denoteAll visible members))

end

end WrittenType
end OpenApiClient.Client
