import OpenApiClient.Schema.Basic

/-! API documents: operations, schemas, security schemes and servers. Parts that only travel through to the
generated source keep the value that is written. -/

namespace OpenApiClient

structure Parameter where
  name : Value
  location : Value
  schema : Option Schema := none
  required : Bool := false
  description : Value := .null
  style : Value := .null
  explode : Value := .null
  deriving Repr, Inhabited

abbrev Content : Type := List (Value × Option Schema)

structure RequestBody where
  content : Content
  required : Bool := false
  description : Value := .null
  deriving Repr, Inhabited

structure Response where
  description : Value := .null
  content : Content := []
  deriving Repr, Inhabited

structure ServerVariable where
  default : String
  description : Value := .null
  enumeration : List String := []
  deriving Repr, Inhabited

structure Server where
  url : Value
  description : Value := .null
  placeholders : List (Value × ServerVariable) := []
  deriving Repr, Inhabited

structure Operation where
  method : String
  path : Value
  operationId : Value := .null
  summary : Value := .null
  description : Value := .null
  parameters : List Parameter := []
  requestBody : Option RequestBody := none
  responses : List (String × Response) := []
  securityOverride : Option (List Value) := none
  servers : List Server := []
  deriving Repr, Inhabited

structure SecurityScheme where
  name : Value
  type : Value
  scheme : Value := .null
  location : Value := .null
  parameterName : Value := .null
  description : Value := .null
  bearerFormat : Value := .null
  deriving Repr, Inhabited

structure ApiDocument where
  title : Value
  version : String
  schemas : List (Value × Schema)
  operations : List Operation
  securitySchemes : List (Value × SecurityScheme) := []
  servers : List Server := []
  security : List Value := []
  /-- A schema name stands for one schema. -/
  distinctSchemas : Entries.Distinct Value.same schemas := by decide
  deriving Repr

instance : Inhabited ApiDocument := ⟨{ title := .null, version := "", schemas := [], operations := [] }⟩

end OpenApiClient
