import OpenApiClient.Schema.Basic

/-! Reading schemas from documents. -/

namespace OpenApiClient.Schema

def constraintKeywords : List String :=
  ["pattern", "minLength", "maxLength", "minimum", "maximum", "exclusiveMinimum", "exclusiveMaximum",
    "multipleOf", "minItems", "maxItems", "uniqueItems", "minProperties", "maxProperties", "default",
    "example", "readOnly", "writeOnly", "deprecated"]

def isConstraint : Value × Value → Bool
  | (.string name, _) => constraintKeywords.contains name
  | _ => false

def isKeyNamed (name : String) : Value → Bool
  | .string text => text == name
  | _ => false

def distinct (values : List Value) : Except Malformed (List Value) := do
  let keys ← values.mapM Value.asKey
  pure (keys.foldl (fun kept key => if kept.any (·.same key) then kept else kept ++ [key]) [])

def readRequired (members : List (Value × Value)) : Except Malformed (List Value) :=
  match Value.lookup "required" members with
  | none => pure []
  | some required => do distinct (← required.items)

def readEnumeration (members : List (Value × Value)) : Except Malformed (Option (List Value)) :=
  match Value.lookup "enum" members with
  | none => pure none
  | some values => some <$> values.items

mutual

def ofValue : Value → Except Malformed Schema
  | .object members => do
      let items ← readItems members
      let properties ← readProperties members
      let additional ← readAdditional members
      let anyOf ← readAlternatives "anyOf" members
      let oneOf ← readAlternatives "oneOf" members
      let allOf ← readAlternatives "allOf" members
      let keyword (name : String) : Value := (Value.lookup name members).getD .null
      let required ← readRequired members
      let enumeration ← readEnumeration members
      pure {
        keywords := {
          reference := keyword "$ref"
          type := keyword "type"
          format := keyword "format"
          title := keyword "title"
          description := keyword "description"
          nullable := (keyword "nullable").truth
          required
          enumeration
          constraints := members.filter isConstraint
        }
        items, properties, additional, anyOf, oneOf, allOf
      }
  | _ => .error .unsupportedAccess

def readItems : List (Value × Value) → Except Malformed (Option Schema)
  | [] => pure none
  | (key, value) :: rest =>
      if isKeyNamed "items" key then
        match value with
        | .object members => some <$> ofValue (.object members)
        | _ => pure none
      else readItems rest

def readProperties : List (Value × Value) → Except Malformed (Option (List (Value × Schema)))
  | [] => pure none
  | (key, value) :: rest =>
      if isKeyNamed "properties" key then
        match value with
        | .object members => some <$> ofMembers members
        | _ => pure none
      else readProperties rest

def readAdditional : List (Value × Value) → Except Malformed (AdditionalMembers Schema)
  | [] => pure .unrestricted
  | (key, value) :: rest =>
      if isKeyNamed "additionalProperties" key then
        match value with
        | .null | .bool true => pure .unrestricted
        | .bool false => pure .forbidden
        | other => .typed <$> ofValue other
      else readAdditional rest

def readAlternatives (name : String) : List (Value × Value) → Except Malformed (Option (List Schema))
  | [] => pure none
  | (key, value) :: rest =>
      if isKeyNamed name key then
        match value with
        | .array values => some <$> ofValues values
        | _ => pure none
      else readAlternatives name rest

def ofMembers : List (Value × Value) → Except Malformed (List (Value × Schema))
  | [] => pure []
  | (name, value) :: rest => do
      let schema ← ofValue value
      pure ((name, schema) :: (← ofMembers rest))

def ofValues : List Value → Except Malformed (List Schema)
  | [] => pure []
  | value :: rest => do
      let schema ← ofValue value
      pure (schema :: (← ofValues rest))

end

end OpenApiClient.Schema
