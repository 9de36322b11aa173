import OpenApiClient.Declaration.Basic
import OpenApiClient.Declaration.NamingScope
import OpenApiClient.Naming.Unique

/-! Declaring the classes that a schema needs. Every class body is a scope of its own: schemas that come to
the same name in one body share a declaration, and classes of different bodies never meet. Arrays, maps and
unions of one member open no scope. -/

namespace OpenApiClient

def fieldNames (properties : List (Value × Schema)) : Except Malformed (List String) := do
  let names ← properties.mapM fun (name, _) => Naming.fieldName <$> name.asPattern
  pure (Naming.unique names)

/-- Declares a class whose body is the present scope. `body` yields the classes and fields in it, given the
names of the fields. -/
def declareWith (description : Value) (additional : AdditionalMembers Schema)
    (properties : List (Value × Schema)) (name : String)
    (body : String → List String → InScope (List ClassDeclaration × List FieldDeclaration)) :
    InScope ClassDeclaration := do
  let names ← fieldNames properties
  InScope.update (NamingScope.reserve names)
  let scope ← InScope.read
  let qualifiedName := scope.ownerOr name
  let openEnded := additional.isUnrestricted
  if openEnded then
    Traced.write .debug "clientgen.inner_types"
      ("Warning: " ++ qualifiedName ++ " may have additional properties!")
  let (inner, fields) ← body qualifiedName names
  pure ⟨name, qualifiedName, description, fields, inner, openEnded⟩

/-- Takes a name for a class: the one suggested, with an underscore after it if it is reserved. The class is
declared unless one of that name is there already. -/
def declareStruct (name : String) (declare : String → InScope ClassDeclaration) :
    InScope (List ClassDeclaration × TypeExpression) := do
  let scope ← InScope.read
  let name := scope.ownName name
  let type := TypeExpression.named none (scope.qualify name)
  if scope.contains name then
    Traced.write .info "clientgen.inner_types"
      ("Avoiding generating duplicate inner class '" ++ scope.qualify name ++ "'")
    pure ([], type)
  else
    InScope.update (NamingScope.add name)
    let declared ← InScope.inside (scope.child name) (declare name)
    pure ([declared], type)

namespace Registry

mutual

def emit (registry : Registry) (suggested : Option String) :
    Schema → InScope (List ClassDeclaration × TypeExpression)
  | ⟨keywords, items, properties, additional, anyOf, oneOf, allOf⟩ =>
      let typed : InScope (List ClassDeclaration × TypeExpression) := do
        pure ([], ← registry.typeOf suggested
          ⟨keywords, items, properties, additional, anyOf, oneOf, allOf⟩)
      if keywords.isReference then typed
      else
        match keywords.typeName with
        | .object =>
            match properties, additional with
            | some properties, additional => do
                let name ← structName keywords suggested
                declareStruct name fun name =>
                  declareWith (keywords.describe none) additional properties name
                    fun owner names => registry.emitFields owner keywords.required names properties
            | none, .typed value => do
                let (declared, type) ← registry.emit suggested value
                pure (declared, .map type)
            | none, _ => typed
        | .array =>
            match items with
            | none => InScope.ofTraced (.fail (.ofProblem .missingItems))
            | some items => do
                let (declared, type) ← registry.emit suggested items
                pure (declared, .array type)
        | .absent =>
            match anyOf with
            | some [member] => registry.emit suggested member
            | _ => typed
        | _ => typed

def emitFields (registry : Registry) (owner : String) (required : List Value) :
    List String → List (Value × Schema) → InScope (List ClassDeclaration × List FieldDeclaration)
  | name :: names, (jsonName, schema) :: rest => do
      let jsonName ← jsonName.asPattern
      let (declared, type) ← InScope.mapFailure (Failure.locate (owner ++ "." ++ jsonName))
        (registry.emit (some (Naming.toIdentifierCamel jsonName)) schema)
      let (inner, fields) ← registry.emitFields owner required names rest
      let field : FieldDeclaration := {
        name
        jsonName
        type
        required := required.any (·.same (.string jsonName))
        nullable := schema.keywords.nullable
        description := schema.keywords.describe none
      }
      pure (declared ++ inner, field :: fields)
  | _, _ => pure ([], [])

end

def buildClass (registry : Registry) (schema : Schema) (name : String) (scope : NamingScope)
    (description : Option String) : Traced ClassDeclaration :=
  let properties := schema.properties.getD []
  InScope.inside scope <|
    declareWith (schema.keywords.describe description) schema.additional properties name
      fun owner names => registry.emitFields owner schema.keywords.required names properties

/-- The declarations of a named schema: a struct becomes the class of its name; for anything else the
classes it needs are declared beside the alias that takes the name. -/
def emitNamed (registry : Registry) (named : NamedSchema) :
    Traced (List ClassDeclaration × TypeExpression) :=
  if named.schema.isStruct then do
    let scope := NamingScope.add named.className {}
    let declared ← registry.buildClass named.schema named.className (scope.child named.className) none
    pure ([declared], .named (some named.moduleName) named.className)
  else
    InScope.inside (NamingScope.reserve [named.className] {})
      (registry.emit (some (named.className ++ "Item")) named.schema)

end Registry
end OpenApiClient
