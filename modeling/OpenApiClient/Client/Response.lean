import OpenApiClient.Client.ContentType
import OpenApiClient.Client.JsonForm
import OpenApiClient.Client.StatusPattern

/-! Handling responses. The status of a response selects one of the cases that an operation declares; the
case says what the body is read as and which callback takes it. -/

namespace OpenApiClient.Client

/-- An exception that the library raises where a body is not JSON. -/
structure JsonFault where
  kind : String
  message : String
  deriving DecidableEq, Repr, Inhabited

/-- A response as the HTTP library hands it over. How the library finds a header, which characters it takes the octets
of the body for and how it reads JSON is left to it. -/
structure Response where
  status : Int
  content : List UInt8
  contentType : Option String
  text : String
  json : Except JsonFault Value

structure ResponseCase where
  pattern : String
  callback : String
  type : Option DataType
  contentType : Option String
  deriving Repr, Inhabited

inductive ResponseFault where
  | pattern (fault : PatternFault)
  | unhandled (status : Int) (body : String)
  | json (fault : JsonFault)
  | record (fault : RecordFault)
  deriving DecidableEq, Repr, Inhabited

def ResponseFault.message : ResponseFault → String
  | .pattern fault => fault.message
  | .unhandled status body => s!"Unhandled response status code {status}: {body}"
  | .json fault => fault.message
  | .record fault => fault.message

def selectCase (cases : List ResponseCase) (status : Int) :
    Except PatternFault (Option ResponseCase) := do
  match ← matchStatus (cases.map (·.pattern)) status with
  | none => pure none
  | some pattern => pure (cases.find? fun declared => declared.pattern == pattern)

def ResponseCase.contentTypeOf (declared : ResponseCase) (response : Response) : Option String :=
  match response.contentType with
  | none => declared.contentType
  | some own => if own.isEmpty then declared.contentType else some own

/-- The body of a response as its case reads it. A body that is empty or not asked for is null, and one that
is not JSON is text. -/
def ResponseCase.decode (classes : Classes) (declared : ResponseCase) (response : Response) :
    Except ResponseFault Value :=
  match declared.type with
  | none => .ok .null
  | some type =>
      if response.content.isEmpty then .ok .null
      else if isJsonContentType (declared.contentTypeOf response) then do
        let data ← response.json.mapError .json
        (classes.ofJson data type).mapError .record
      else .ok (.string response.text)

structure Handler where
  cases : List ResponseCase
  callbacks : List String
  deriving Repr, Inhabited

structure Handled where
  body : Value
  callback : Option String
  deriving Repr, Inhabited

def Handler.handle (handler : Handler) (classes : Classes) (response : Response) :
    Except ResponseFault Handled := do
  match ← (selectCase handler.cases response.status).mapError .pattern with
  | none => throw (.unhandled response.status response.text)
  | some declared =>
      let body ← declared.decode classes response
      pure ⟨body, if handler.callbacks.contains declared.callback then some declared.callback else none⟩

end OpenApiClient.Client
