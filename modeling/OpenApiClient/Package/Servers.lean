import OpenApiClient.Document.Basic
import OpenApiClient.Log
import OpenApiClient.Naming.Identifier
import OpenApiClient.Package.Wording
import OpenApiClient.Value.Display

/-! The server of a generated package: the first one of the document, with a setter for every variable of
its URL. -/

namespace OpenApiClient

structure ServerParameter where
  name : String
  default : String
  setter : String
  docLines : List String
  deriving DecidableEq, Repr, Inhabited

structure ServerChoice where
  url : Value := .string "/"
  description : Value := .null
  parameters : List ServerParameter := []
  deriving Repr, Inhabited

def serverParameter (name : Value) (variable_ : ServerVariable) : Except Malformed ServerParameter := do
  let described ← variable_.description.wrapped 76
  let values :=
    if variable_.enumeration.isEmpty then []
    else ["Valid values: " ++ ", ".intercalate variable_.enumeration]
  let docLines := ("Server URL parameter: " ++ name.display) :: described ++ values
  let name ← name.asPattern
  pure ⟨name, variable_.default, "set_param_" ++ Naming.methodName name, docLines⟩

def chooseServer : List Server → Traced ServerChoice
  | [] => pure {}
  | server :: others => do
      if !others.isEmpty then
        Traced.write .info "clientgen.servers"
          (toString (others.length + 1) ++ " servers declared; using " ++ server.url.display ++
            " as the default")
      let parameters ← server.placeholders.mapM fun (name, variable_) => serverParameter name variable_
      pure ⟨server.url, server.description, parameters⟩

end OpenApiClient
