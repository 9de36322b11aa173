import OpenApiClient.Document.Basic
import OpenApiClient.Document.Pointer
import OpenApiClient.Log
import OpenApiClient.Schema.Reader
import OpenApiClient.Text.Casing
import OpenApiClient.Value.Display

/-! Reading API documents. Parameters, bodies, responses, path items and security schemes may be references
to other places of the document; references of schemas stay as they are. -/

namespace OpenApiClient

def httpMethods : List String := ["get", "put", "post", "delete", "options", "head", "patch", "trace"]

def schemaIn (value : Value) (key : String) : Except Malformed (Option Schema) := do
  let schema ← value.memberOrNull key
  if schema.truth then some <$> Schema.ofValue schema else pure none

def readContent (content : Value) : Except Malformed Content := do
  (← content.membersOrNone).mapM fun (contentType, media) => do
    pure (contentType, ← schemaIn media "schema")

def readParameter (document raw : Value) : Except Failure Parameter := do
  let value ← document.dereference raw
  let schema ← value.member "schema"
  let location ← value.member? "in"
  match ← value.member? "name" with
  | none => throw (.malformed .absentMember)
  | some name =>
      pure {
        name
        location := location.getD (.string "query")
        schema := ← if schema.truth then some <$> Schema.ofValue schema else pure none
        required := (← value.member "required").truth
        description := ← value.member "description"
        style := ← value.member "style"
        explode := ← value.member "explode"
      }

def Parameter.sameSlot (left right : Value × Value) : Bool :=
  left.1.same right.1 && left.2.same right.2

/-- The parameters of an operation: one for each name and location. The first of a name and location gives
the place and the last one the content, so that an operation overrides its path. -/
def mergeParameters (document : Value) (pathLevel operationLevel : Value) :
    Except Failure (List Parameter) := do
  let pathLevel ← pathLevel.items
  let operationLevel ← operationLevel.items
  let slots ← (pathLevel ++ operationLevel).foldlM (fun slots raw => do
    let parameter ← readParameter document raw
    let name ← parameter.name.asKey
    let location ← parameter.location.asKey
    pure (Entries.put Parameter.sameSlot (name, location) parameter slots)) []
  pure (slots.map Prod.snd)

def readServerVariable (value : Value) : Except Malformed ServerVariable := do
  let default ← value.member? "default"
  let description ← value.member "description"
  let enumeration ←
    match ← value.member? "enum" with
    | none => pure []
    | some values => values.items
  pure ⟨(default.getD (.string "")).display, description, enumeration.map Value.display⟩

def readServer (value : Value) : Except Malformed Server := do
  let placeholders ← (← (← value.member "variables").membersOrNone).mapM fun (name, variable_) => do
    pure (name, ← readServerVariable variable_)
  pure ⟨(← value.member? "url").getD (.string "/"), ← value.member "description", placeholders⟩

def readServers (value : Value) : Except Malformed (List Server) := do
  (← value.itemsOrNone).mapM readServer

/-- A pair of a key and a value, written as any sequence of two items. -/
def readPair (value : Value) : Except Malformed (Value × Value) := do
  match ← value.items with
  | [key, item] => pure (← key.asKey, item)
  | _ => throw .unpairedEntry

def readRequirement (value : Value) : Except Malformed Value :=
  match value with
  | .object members => pure (.object members)
  | other => do
      let pairs ← (← other.items).mapM readPair
      pure (.object (Entries.ofPairs Value.same pairs))

def readSecurity (value : Value) : Except Malformed (List Value) := do
  (← value.itemsOrNone).mapM readRequirement

def presentMember (value : Value) (key : String) : Except Malformed Value :=
  match value with
  | .object members => pure ((Value.lookup key members).getD .null)
  | _ => .error .unsuitableKind

def readRequestBody (document operation : Value) : Except Failure (Option RequestBody) := do
  if ← operation.has "requestBody" then
    let body ← document.dereference (← presentMember operation "requestBody")
    pure (some {
      content := ← readContent (← body.member "content")
      required := (← body.member "required").truth
      description := ← body.member "description"
    })
  else pure none

/-- The responses by status. Statuses are texts, so that two spellings of one status are one entry. -/
def readResponses (document operation : Value) : Except Failure (List (String × Response)) := do
  (← (← operation.member "responses").membersOrNone).foldlM (fun responses (status, raw) => do
    let response ← document.dereference raw
    pure (Entries.set status.display
      { description := ← response.member "description"
        content := ← readContent (← response.member "content") } responses)) []

def readOperation (document : Value) (method : String) (path item : Value) : Except Failure Operation := do
  let operation ← presentMember item method
  let requestBody ← readRequestBody document operation
  let responses ← readResponses document operation
  let securityOverride ←
    if ← operation.has "security" then some <$> readSecurity (← presentMember operation "security")
    else pure none
  let operationId ← operation.member "operationId"
  let summary ← operation.member "summary"
  let description ← operation.member "description"
  let description ← if description.truth then pure description else item.member "description"
  let pathLevel ← item.member? "parameters"
  let operationLevel ← operation.member? "parameters"
  let parameters ← mergeParameters document (pathLevel.getD (.array [])) (operationLevel.getD (.array []))
  let servers ← operation.member "servers"
  let servers ← readServers (← if servers.truth then pure servers else item.member "servers")
  pure {
    method := Text.upperText method
    path, operationId, summary, description, parameters, requestBody, responses, securityOverride, servers
  }

def readPath (document path raw : Value) : Except Failure (List Operation) := do
  let item ← if ← raw.has "$ref" then document.dereference raw else pure raw
  let present ← httpMethods.filterMapM fun method => do
    if ← item.has method then some <$> readOperation document method path item else pure none
  pure present

def readSecurityScheme (document name raw : Value) : Except Failure SecurityScheme := do
  let value ← document.dereference raw
  let type ← value.member? "type"
  let scheme ← value.member "scheme"
  let scheme ←
    if scheme.truth then do
      pure (Value.string (Text.lowerText (← scheme.asText)))
    else pure .null
  pure {
    name
    type := type.getD (.string "")
    scheme
    location := ← value.member "in"
    parameterName := ← value.member "name"
    description := ← value.member "description"
    bearerFormat := ← value.member "bearerFormat"
  }

def readSecuritySchemes (document : Value) : Except Failure (List (Value × SecurityScheme)) := do
  let schemes ← (← document.member "components").memberOrNull "securitySchemes"
  (← schemes.membersOrNone).mapM fun (name, raw) => do
    pure (name, ← readSecurityScheme document name raw)

def readSchemas (document : Value) :
    Except Malformed { schemas : List (Value × Schema) // Entries.Distinct Value.same schemas } := do
  let schemas ← (← document.member "components").memberOrNull "schemas"
  let pairs ← (← schemas.membersOrNone).mapM fun (name, raw) => do pure (name, ← Schema.ofValue raw)
  pure ⟨Entries.ofPairs Value.same pairs, Entries.distinct_ofPairs Value.same pairs⟩

namespace ApiDocument

def read (document : Value) : Except Failure ApiDocument := do
  let paths ← (← document.member "paths").membersOrNone
  let operations ← paths.mapM fun (path, item) => readPath document path item
  let info ← document.member "info"
  let entry (key : String) : Except Malformed Value :=
    if info.truth then (fun found => found.getD (.string "")) <$> info.member? key else pure (.string "")
  let title ← entry "title"
  let version ← entry "version"
  let schemas ← readSchemas document
  pure {
    title
    version := version.display
    schemas := schemas.val
    distinctSchemas := schemas.property
    operations := operations.flatten
    securitySchemes := ← readSecuritySchemes document
    servers := ← readServers (← document.member "servers")
    security := ← readSecurity (← document.member "security")
  }

def ofValue (document : Value) : Traced ApiDocument := do
  let read ← read document
  Traced.write .debug "clientgen.loader"
    ("Parsed " ++ toString read.schemas.length ++ " schemas and " ++ toString read.operations.length ++
      " operations")
  pure read

end ApiDocument
end OpenApiClient
