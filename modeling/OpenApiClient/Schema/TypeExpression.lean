import OpenApiClient.Schema.Registry

/-! Type expressions: what a schema means as the type of a value in generated source. -/

namespace OpenApiClient

inductive PrimitiveKind where
  | int32
  | int64
  | float32
  | float64
  | bool
  | string
  deriving DecidableEq, Repr, Inhabited

inductive TypeExpression where
  | primitive (kind : PrimitiveKind)
  | named (module : Option String) (name : String)
  | array (element : TypeExpression)
  | map (value : TypeExpression)
  | freeform
  | unrepresentable
  deriving DecidableEq, Repr, Inhabited

def PrimitiveKind.name : PrimitiveKind → String
  | .int32 => "int32"
  | .int64 => "int64"
  | .float32 => "float32"
  | .float64 => "float64"
  | .bool => "bool"
  | .string => "string"

def PrimitiveKind.sourceName : PrimitiveKind → String
  | .int32 => "Int32"
  | .int64 => "Int64"
  | .float32 => "Float32"
  | .float64 => "Float64"
  | .bool => "bool"
  | .string => "str"

/-- The width of a number, by type and format. A format that is not known, or that says nothing for the
type, leaves the default width. -/
def numericKind (type : TypeName) (format : Value) : Except Malformed PrimitiveKind := do
  let width ←
    match type with
    | .integer => pure PrimitiveKind.int32
    | .number => pure PrimitiveKind.float32
    | _ => .error .absentMember
  match type, ← format.asKey with
  | .integer, .string "int64" | .integer, .string "unix-time" => pure .int64
  | .number, .string "double" => pure .float64
  | _, _ => pure width

namespace TypeExpression

/-- The source text of a type. Imported classes whose names are hidden are written as Any. -/
def render (hidden : List String) : TypeExpression → String
  | .primitive kind => kind.sourceName
  | .named module name => if module.isSome && hidden.contains name then "Any" else name
  | .array element => "list[" ++ element.render hidden ++ "]"
  | .map value => "dict[str, " ++ value.render hidden ++ "]"
  | .freeform => "Any"
  | .unrepresentable => "None"

def renderOptional (type : TypeExpression) : String :=
  let text := type.render []
  if text == "Any" || text == "None" then text else "Optional[" ++ text ++ "]"

end TypeExpression

/-- The name of the class for an object: its title, else the name that its place suggests. -/
def structName (keywords : Keywords) (suggested : Option String) : Except Failure String :=
  if keywords.title.truth then do
    pure (Naming.toIdentifierCamel (← keywords.title.asPattern))
  else
    match suggested with
    | none | some "" => .error (.ofProblem .missingTypeName)
    | some name => .ok name

namespace Registry

/-- The type of a schema. Unions of several members, oneOf and allOf are not told apart and are freeform. -/
def typeOf (registry : Registry) (suggested : Option String) : Schema → Traced TypeExpression
  | ⟨keywords, items, properties, additional, anyOf, _, _⟩ =>
      if keywords.isReference then do
        let named ← registry.resolveValue keywords.reference
        pure (.named (some named.moduleName) named.className)
      else
        match keywords.typeName with
        | .integer | .number => do pure (.primitive (← numericKind keywords.typeName keywords.format))
        | .boolean => pure (.primitive .bool)
        | .string => pure (.primitive .string)
        | .null => pure .unrepresentable
        | .array =>
            match items with
            | none => .fail (.ofProblem .missingItems)
            | some items => do pure (.array (← registry.typeOf suggested items))
        | .object =>
            match properties, additional with
            | some _, additional => do
                let name ← structName keywords suggested
                match additional with
                | .unrestricted =>
                    Traced.write .debug "clientgen.resolver" (name ++ " may have additional properties")
                | _ => pure ()
                pure (.named none name)
            | none, .typed value => do pure (.map (← registry.typeOf suggested value))
            | none, _ => pure .freeform
        | .absent | .other =>
            match anyOf with
            | some [member] => registry.typeOf suggested member
            | some members => do
                Traced.write .debug "clientgen.resolver"
                  ("anyOf with " ++ toString members.length ++ " members treated as freeform")
                pure .freeform
            | none => pure .freeform

end Registry
end OpenApiClient
