import OpenApiClient.Document.Basic
import OpenApiClient.Log
import OpenApiClient.Naming.Identifier
import OpenApiClient.Package.Wording
import OpenApiClient.Value.Display

/-! Configurators: the methods of the generated package that choose an authentication. HTTP basic and bearer
authentication and API keys have one; other schemes are passed over with a warning. -/

namespace OpenApiClient

inductive Authentication where
  | basic
  | bearer
  | apiKey
  deriving DecidableEq, Repr, Inhabited

namespace Authentication

def name : Authentication → String
  | .basic => "basic"
  | .bearer => "bearer"
  | .apiKey => "api_key"

def arguments : Authentication → List String
  | .basic => ["username", "password"]
  | .bearer => ["token"]
  | .apiKey => ["api_key"]

end Authentication

structure SecurityConfigurator where
  schemeName : String
  methodName : String
  kind : Authentication
  location : String := "header"
  parameterName : Value := .string "Authorization"
  docLines : List String
  deriving Repr, Inhabited

namespace SecurityScheme

def apiKeyLocations : List String := ["header", "query", "cookie"]

def docLines (scheme : SecurityScheme) (otherwise : String) : Except Malformed (List String) :=
  (if scheme.description.truth then scheme.description else .string otherwise).wrapped 76

def malformed (name : String) (problem : SchemeProblem) : Failure :=
  .generation ⟨.malformedSecurityScheme problem, some name⟩

def httpConfigurator (scheme : SecurityScheme) (name : String) (kind : Authentication) :
    Except Failure SecurityConfigurator := do
  pure {
    schemeName := name
    methodName := "configure_" ++ Naming.methodName name
    kind
    docLines := ← scheme.docLines ("HTTP " ++ kind.name ++ " authentication.")
  }

def apiKeyConfigurator (scheme : SecurityScheme) (name : String) :
    Except Failure SecurityConfigurator := do
  if !scheme.location.truth then throw (malformed name .missingLocation)
  if !scheme.parameterName.truth then throw (malformed name .missingName)
  let location := scheme.location.display
  if !(apiKeyLocations.any fun known => scheme.location.same (.string known)) then
    throw (malformed name (.unsupportedLocation location))
  pure {
    schemeName := name
    methodName := "configure_" ++ Naming.methodName name
    kind := .apiKey
    location
    parameterName := scheme.parameterName
    docLines := ← scheme.docLines
      ("API key sent as " ++ location ++ " '" ++ scheme.parameterName.display ++ "'.")
  }

def httpKind? (scheme : SecurityScheme) : Option Authentication :=
  match scheme.type, scheme.scheme with
  | .string "http", .string "basic" => some .basic
  | .string "http", .string "bearer" => some .bearer
  | _, _ => none

def configurator? (scheme : SecurityScheme) : Traced (Option SecurityConfigurator) := do
  let name ← scheme.name.asPattern
  match scheme.httpKind?, scheme.type with
  | some kind, _ => do pure (some (← scheme.httpConfigurator name kind))
  | none, .string "apiKey" => do pure (some (← scheme.apiKeyConfigurator name))
  | none, type => do
      let detail := if scheme.scheme.truth then " (" ++ scheme.scheme.display ++ ")" else ""
      Traced.write .warning "clientgen.security"
        ("Security scheme '" ++ name ++ "' of type '" ++ type.display ++ "'" ++ detail ++
          " is not supported; no configurator generated")
      pure none

end SecurityScheme

def configurators : List SecurityScheme → Traced (List SecurityConfigurator)
  | [] => pure []
  | scheme :: rest => do
      let first ← scheme.configurator?
      let others ← configurators rest
      pure (first.toList ++ others)

end OpenApiClient
