import OpenApiClient.Source.Model

/-! Source text of the service modules: for every operation the classes it needs and one with its response
callbacks, then the service with a method for each operation. -/

namespace OpenApiClient.Source

def responseType (response : ResponseShape) : String := response.typeText.getD "None"

def responseRow (response : ResponseShape) : String :=
  "ResponseCase(" ++ Text.quotedText response.pattern ++ ", " ++ Text.quotedText response.callback ++
    ", " ++ responseType response ++ ", " ++ response.contentType.literal ++ "),"

def callbackLines (response : ResponseShape) : Except Malformed (List String) := do
  let comment ← commentLines 72 response.description
  pure (comment ++ ["self." ++ response.callback ++ ": Optional[Callable[[" ++
    responseType response ++ "], None]] = None"])

def handlerText (service : ServiceModule) (method : OperationMethod) : Except Malformed String := do
  let callbacks ← method.responses.mapM callbackLines
  pure (block (["", "", "class " ++ method.handlerClass ++ "(ResponseDispatcher):",
    "    \"\"\"Callbacks for the responses of " ++ service.className ++ "." ++ method.methodName ++
      ".\"\"\"",
    "", "    responses = ("] ++ indented 8 (method.responses.map responseRow) ++
    ["    )", "", "    def __init__(self) -> None:"] ++ indented 8 callbacks.flatten ++
    (if method.responses.isEmpty then ["        pass"] else [])))

def argumentLine (name typeText : String) (required : Bool) : String :=
  if required then name ++ ": " ++ typeText ++ ","
  else name ++ ": Optional[" ++ typeText ++ "] = None,"

def argumentLines (method : OperationMethod) : List String :=
  (match method.parametersClass with
    | none => []
    | some name => [argumentLine "params" name method.parametersRequired]) ++
  (match method.body with
    | none => []
    | some body => [argumentLine "body" body.typeText body.required]) ++
  [argumentLine "handler" method.handlerClass false]

def bindingLine (binding : ParameterBinding) : String :=
  let start := binding.setter ++ "(" ++ Text.quotedText binding.name ++ ", params." ++ binding.field
  if binding.location.same (.string "query") then
    "request." ++ start ++ ", style=" ++ binding.style.literal ++ ", explode=" ++
      binding.explode.display ++ ")"
  else "request." ++ start ++ ")"

def bindingLines (method : OperationMethod) : List String :=
  if method.parameters.isEmpty then []
  else "if params is not None:" :: indented 4 (method.parameters.map bindingLine)

def serverArgument (method : OperationMethod) : String :=
  if method.serverUrl.truth then method.serverUrl.literal else ""

def sendLines (method : OperationMethod) : List String :=
  let (body, contentType) :=
    match method.body with
    | none => ("None", Value.string "application/json")
    | some body => ("body", body.contentType)
  ["return request.make_request(", "    " ++ body ++ ",", "    handler,",
    "    " ++ contentType.literal ++ ",", ")"]

def methodText (method : OperationMethod) : String :=
  block (["", "    def " ++ method.methodName ++ "(", "        self,", "        *,"] ++
    indented 8 (argumentLines method) ++
    ["    ) -> httpx.Response:", "        " ++ Text.indentRest 8 (docstring method.docLines)] ++
    indented 8 (["request = ApiRequest(",
      "    " ++ Text.quotedText method.operation.method ++ ",",
      "    Servers.get_server_url(" ++ serverArgument method ++ "),",
      "    " ++ method.operation.path.literal ++ ",",
      "    client=self.client,", ")"] ++ bindingLines method ++
      (if method.appliesSecurity then ["Security.apply(request)"] else []) ++ sendLines method))

def serviceDocstring (service : ServiceModule) : String :=
  shortDocstring ("Service to make REST API calls to paths beginning with: " ++ service.pathRoot)

def serviceImports (package : String) (service : ServiceModule) : List String :=
  (if service.usesSecurity then ["from " ++ package ++ ".security import Security"] else []) ++
    ("from " ++ package ++ ".servers import Servers") :: service.imports.map importLine

def serviceText (package : String) (service : ServiceModule) : Except Malformed String := do
  let declared ← service.operations.mapM fun method => do
    pure ((← moduleClasses method.declarations) ++ (← handlerText service method))
  pure (block ([fileComment, serviceDocstring service, "",
      "from __future__ import annotations", "",
      "from dataclasses import dataclass, field",
      "from typing import Any, Callable, Optional", "",
      "import httpx", "",
      "from clientgen.runtime import ApiRequest, ResponseCase, ResponseDispatcher",
      "from clientgen.runtime.scalars import Float32, Float64, Int32, Int64", ""] ++
      serviceImports package service) ++
    String.join declared ++
    block ["", "", "class " ++ service.className ++ ":", "    " ++ serviceDocstring service, "",
      "    def __init__(self, client: Optional[httpx.Client] = None) -> None:",
      "        self.client = client"] ++
    String.join (service.operations.map methodText))

end OpenApiClient.Source
