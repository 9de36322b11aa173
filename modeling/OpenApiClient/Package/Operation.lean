import OpenApiClient.Client.StatusPattern
import OpenApiClient.Declaration.Emission
import OpenApiClient.Document.Basic
import OpenApiClient.Naming.OperationName
import OpenApiClient.Package.Wording
import OpenApiClient.Schema.References

/-! Operations as methods of a service: the class of the parameters, the type of the body, and the class
with one callback for each status pattern. Of several content types only the first is used. -/

namespace OpenApiClient

structure ParameterBinding where
  field : String
  name : String
  location : Value
  style : Value
  explode : Value
  deriving Repr, Inhabited

namespace ParameterBinding

def setter (binding : ParameterBinding) : String :=
  match binding.location with
  | .string "path" => "set_path_param"
  | .string "header" => "set_header_param"
  | .string "cookie" => "set_cookie_param"
  | _ => "set_query_param"

end ParameterBinding

structure BodyShape where
  typeText : String
  contentType : Value
  required : Bool
  deriving Repr, Inhabited

structure ResponseShape where
  pattern : String
  callback : String
  typeText : Option String
  contentType : Value
  description : Value
  deriving Repr, Inhabited

structure OperationMethod where
  operation : Operation
  operationId : String
  methodName : String
  handlerClass : String
  declarations : List ClassDeclaration
  parametersClass : Option String
  parametersRequired : Bool
  parameters : List ParameterBinding
  body : Option BodyShape
  responses : List ResponseShape
  references : List String
  appliesSecurity : Bool
  serverUrl : Value
  docLines : List String
  deriving Repr, Inhabited

namespace Operation

def schemas (operation : Operation) : List (Option Schema) :=
  operation.parameters.map Parameter.schema ++
    (match operation.requestBody with
      | none => []
      | some body => body.content.map Prod.snd) ++
    operation.responses.flatMap fun (_, response) => response.content.map Prod.snd

def appliesSecurity (operation : Operation) (byDefault : Bool) : Bool :=
  match operation.securityOverride with
  | none => byDefault
  | some requirements => !requirements.isEmpty

def slot (operation : Operation) : String := operation.method ++ " " ++ operation.path.display

def docLines (operation : Operation) : Except Malformed (List String) := do
  let summary ← operation.summary.wrapped 80
  let lines ←
    if operation.description.truth && !operation.description.same operation.summary then do
      let description ← operation.description.wrapped 80
      pure (summary ++ (if summary.isEmpty then [] else [""]) ++ description)
    else pure summary
  pure (if lines.isEmpty then [operation.slot] else lines)

def nameOrDerived (operation : Operation) : Except Malformed Value := do
  if operation.operationId.truth then pure operation.operationId
  else
    pure (.string (Naming.operationName operation.method (← operation.path.asText)))

/-- The name given to the operation, else its own or a derived one. -/
def nameUnder (operation : Operation) (given : Option Value) : Except Malformed Value :=
  match given with
  | some given => if given.truth then pure given else operation.nameOrDerived
  | none => operation.nameOrDerived

end Operation

/-- The first name, with underscores after it, that is neither taken nor reserved. One underscore more than
there are names in the scope is enough. -/
def freeName (scope : NamingScope) (name : String) : Nat → String
  | 0 => name
  | fuel + 1 =>
      if scope.contains name || scope.reserved.contains name then freeName scope (name ++ "_") fuel
      else name

def claimName (name : String) : InScope String := do
  let scope ← InScope.read
  let free := freeName scope name (scope.names.length + scope.reserved.length + 1)
  InScope.update (NamingScope.add free)
  pure free

def firstContent (what : String) (contentType : Value) (schema : Option Schema) (others : Content) :
    Traced (Value × Option Schema) := do
  if !others.isEmpty then
    Traced.write .info "clientgen.operations"
      (what ++ " declares " ++ toString (others.length + 1) ++ " content types; only the first (" ++
        contentType.display ++ ") is used")
  pure (contentType, schema)

def defaultStyle (location : Value) : String :=
  match location with
  | .string "path" | .string "header" => "simple"
  | _ => "form"

def keepFirst (operation : Operation) (kept : List Parameter) : List Parameter → Traced (List Parameter)
  | [] => pure kept
  | parameter :: rest =>
      match kept.find? fun earlier => earlier.name.same parameter.name with
      | some earlier => do
          Traced.write .warning "clientgen.operations"
            (operation.slot ++ ": parameter '" ++ parameter.name.display ++
              "' appears in several locations; keeping the " ++ earlier.location.display ++ " one")
          keepFirst operation kept rest
      | none => keepFirst operation (kept ++ [parameter]) rest

namespace Parameter

def isRequired (parameter : Parameter) : Bool :=
  parameter.required || parameter.location.same (.string "path")

/-- The schema of a parameter, described as the parameter is. Without one it is a text. -/
def ownSchema (parameter : Parameter) : Schema :=
  let schema := parameter.schema.getD { keywords := { type := .string "string" } }
  if parameter.description.truth then
    { schema with keywords := { schema.keywords with description := parameter.description } }
  else schema

def binding (parameter : Parameter) (field : FieldDeclaration) : ParameterBinding :=
  let style :=
    if parameter.style.truth then parameter.style else .string (defaultStyle parameter.location)
  let explode :=
    if parameter.explode.isNull then .bool (style.same (.string "form")) else parameter.explode
  ⟨field.name, field.jsonName, parameter.location, style, explode⟩

end Parameter

def parameterGroup (parameters : List Parameter) : Schema where
  keywords := {
    type := .string "object"
    required := (parameters.filter Parameter.isRequired).map Parameter.name
  }
  properties := some (parameters.map fun parameter => (parameter.name, parameter.ownSchema))
  additional := .forbidden

structure OperationContext where
  registry : Registry
  securedByDefault : Bool := true

namespace OperationContext

def parameters (context : OperationContext) (operation : Operation) (start methodName : String) :
    InScope (List ClassDeclaration × Option String × Bool × List ParameterBinding) := do
  if operation.parameters.isEmpty then pure ([], none, false, [])
  else
    let kept ← keepFirst operation [] operation.parameters
    let name ← claimName (start ++ "Params")
    let scope ← InScope.read
    let declared ← context.registry.buildClass (parameterGroup kept) name (scope.child name)
      (some ("Parameters of " ++ methodName ++ "."))
    pure ([declared], some name, kept.any Parameter.isRequired,
      (kept.zip declared.fields).map fun (parameter, field) => parameter.binding field)

def contentType (context : OperationContext) (schema : Option Schema) (name : String) :
    InScope (List ClassDeclaration × String) :=
  match schema with
  | none => pure ([], "Any")
  | some schema => do
      let (declared, type) ← context.registry.emit (some name) schema
      pure (declared, type.render [])

def body (context : OperationContext) (operation : Operation) (start operationId : String) :
    InScope (List ClassDeclaration × Option BodyShape) :=
  match operation.requestBody with
  | none => pure ([], none)
  | some request =>
      match request.content with
      | [] => pure ([], none)
      | (contentType, schema) :: others => do
          let (contentType, schema) ←
            firstContent ("Request body of " ++ operationId) contentType schema others
          let (declared, typeText) ← context.contentType schema (start ++ "Body")
          pure (declared, some ⟨typeText, contentType, request.required⟩)

def responseEnding (key : String) : String := if key = Client.defaultPattern then "Default" else key

def response (context : OperationContext) (start operationId pattern : String) (response : Response) :
    InScope (List ClassDeclaration × ResponseShape) := do
  let key := Text.lowerText pattern
  let callback := "handle_response_" ++ key
  match response.content with
  | [] => pure ([], ⟨key, callback, none, .null, response.description⟩)
  | (contentType, schema) :: others => do
      let (contentType, schema) ←
        firstContent ("Response " ++ pattern ++ " of " ++ operationId) contentType schema others
      let (declared, typeText) ← context.contentType schema (start ++ "Response" ++ responseEnding key)
      pure (declared, ⟨key, callback, some typeText, contentType, response.description⟩)

/-- The responses with a valid status pattern. The others are passed over with a warning. -/
def responses (context : OperationContext) (start operationId : String) :
    List (String × Response) → InScope (List ClassDeclaration × List ResponseShape)
  | [] => pure ([], [])
  | (pattern, response) :: rest =>
      if Client.isStatusPattern pattern then do
        let (declared, shape) ← context.response start operationId pattern response
        let (others, shapes) ← context.responses start operationId rest
        pure (declared ++ others, shape :: shapes)
      else do
        Traced.write .warning "clientgen.operations"
          (operationId ++ ": skipping response with invalid status pattern '" ++ pattern ++ "'")
        context.responses start operationId rest

def compile (context : OperationContext) (operation : Operation) (given : Option Value) :
    InScope OperationMethod := do
  let operationId ← operation.nameUnder given
  let operationId ← operationId.asPattern
  let start := Naming.toIdentifierCamel operationId
  let methodName := Naming.methodName operationId
  let handlerClass ← claimName (start ++ "ResponseHandler")
  let references ← Schema.referencesOfAll operation.schemas
  let docLines ← operation.docLines
  let (forParameters, parametersClass, parametersRequired, parameters) ←
    context.parameters operation start methodName
  let (forBody, body) ← context.body operation start operationId
  let (forResponses, responses) ← context.responses start operationId operation.responses
  pure {
    operation, operationId, methodName, handlerClass
    declarations := forParameters ++ forBody ++ forResponses
    parametersClass, parametersRequired, parameters, body, responses, references
    appliesSecurity := operation.appliesSecurity context.securedByDefault
    serverUrl := (operation.servers.head?.map Server.url).getD .null
    docLines
  }

end OperationContext
end OpenApiClient
