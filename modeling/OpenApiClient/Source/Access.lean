import OpenApiClient.Package.Plan
import OpenApiClient.Source.Layout

/-! Source text of the modules for authentication and for servers. -/

namespace OpenApiClient.Source

def fittingDocstring : List String → List String
  | [line] => [shortDocstring line]
  | lines => docstringLines lines

def activation (configurator : SecurityConfigurator) : String :=
  match configurator.kind with
  | .basic => "cls.use_header(\"Authorization\", basic_authorization(username, password))"
  | .bearer => "cls.use_header(\"Authorization\", bearer_authorization(token))"
  | .apiKey =>
      "cls.use_" ++ configurator.location ++ "(" ++ configurator.parameterName.literal ++ ", api_key)"

def configuratorLines (configurator : SecurityConfigurator) : List String :=
  ["", "    @classmethod",
    "    def " ++ configurator.methodName ++ "(cls, " ++
      ": str, ".intercalate configurator.kind.arguments ++ ": str) -> None:"] ++
    indented 8 (fittingDocstring configurator.docLines ++ [activation configurator])

def securityText (title : String) (configurators : List SecurityConfigurator) : String :=
  block ([fileComment, "\"\"\"Authentication methods of " ++ docstringSafe title ++ ".", "",
    "Only one method is active at a time; the last one configured wins.", tripleQuote, "",
    "from __future__ import annotations", "",
    "from clientgen.runtime.security import SecurityBase, basic_authorization, bearer_authorization", "", "",
    "class Security(SecurityBase):",
    "    \"\"\"The active security method, applied to every request that requires one.\"\"\""] ++
    configurators.flatMap configuratorLines)

def parameterRow (parameter : ServerParameter) : String :=
  Text.quotedText parameter.name ++ ": " ++ Text.quotedText parameter.default ++ ","

def setterLines (parameter : ServerParameter) : List String :=
  ["", "    @classmethod", "    def " ++ parameter.setter ++ "(cls, value: str) -> None:"] ++
    indented 8 (docstringLines parameter.docLines ++
      ["cls.set_param(" ++ Text.quotedText parameter.name ++ ", value)"])

def serversText (title : String) (server : ServerChoice) : String :=
  block ([fileComment, "\"\"\"Server URLs of " ++ docstringSafe title ++ ".\"\"\"", "",
    "from __future__ import annotations", "",
    "from clientgen.runtime.servers import ServersBase", "", "",
    "class Servers(ServersBase):",
    "    \"\"\"The server URL to contact the service with.\"\"\"", "",
    "    server_url = " ++ server.url.literal,
    "    server_params = \x7b"] ++ indented 8 (server.parameters.map parameterRow) ++
    ["    \x7d"] ++ server.parameters.flatMap setterLines)

end OpenApiClient.Source
