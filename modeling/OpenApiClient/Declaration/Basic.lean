import OpenApiClient.Schema.TypeExpression
import OpenApiClient.Value.Display

/-! Declarations: the classes of the generated source, their fields and the classes nested in them. -/

namespace OpenApiClient

structure FieldDeclaration where
  name : String
  jsonName : String
  type : TypeExpression
  required : Bool
  nullable : Bool
  description : Value
  deriving Repr, Inhabited

namespace FieldDeclaration

def typeText (field : FieldDeclaration) : String :=
  if field.required && !field.nullable then field.type.render [] else field.type.renderOptional

def hasDefault (field : FieldDeclaration) : Bool := !field.required

end FieldDeclaration

structure ClassDeclaration where
  name : String
  qualifiedName : String
  description : Value
  fields : List FieldDeclaration
  inner : List ClassDeclaration
  openEnded : Bool
  deriving Repr, Inhabited

def Keywords.describe (keywords : Keywords) (given : Option String) : Value :=
  let text := (given.map Value.string).getD keywords.description
  match keywords.enumeration with
  | none | some [] => text
  | some values =>
      let values := ", ".intercalate (values.map Value.display)
      if text.truth then .string (text.display ++ " (values: " ++ values ++ ")")
      else .string ("Values: " ++ values)

end OpenApiClient
