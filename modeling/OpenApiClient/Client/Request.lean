import OpenApiClient.Client.ContentType
import OpenApiClient.Client.JsonForm
import OpenApiClient.Client.Parameter
import OpenApiClient.Client.UrlTemplate
import OpenApiClient.Text.Casing
import OpenApiClient.Text.Percent

/-! Requests. Parameters are collected as texts; a request is then made ready to send by resolving its URL
and encoding its body. Null parameters are not collected. -/

namespace OpenApiClient.Client

structure Request where
  method : String
  serverUrl : String
  pathTemplate : String
  pathValues : List (String × String)
  query : List (String × String)
  headers : List (String × String)
  cookies : List (String × String)
  deriving DecidableEq, Repr, Inhabited

structure QueryForm where
  style : String
  explode : Bool
  deriving DecidableEq, Repr, Inhabited

/-- A request after a parameter was given to it, and why the parameter was not written, if it was not. -/
structure Setting where
  request : Request
  fault : Option LongInteger
  deriving DecidableEq, Repr, Inhabited

def Setting.outcome (setting : Setting) : Except LongInteger Request :=
  match setting.fault with
  | none => .ok setting.request
  | some fault => .error fault

theorem Setting.request_of_outcome {setting : Setting} {after : Request} (made : setting.outcome = .ok after) :
    setting.request = after := by
  unfold outcome at made
  split at made
  · exact Except.ok.inj made
  · cases made

inductive RequestFault where
  | unresolved (template : String) (fault : TemplateFault)
  | longInteger (fault : LongInteger)
  | fields (fault : DeepObjectFault)
  /-- A body that is neither text nor octets has a content type that says nothing about its form. -/
  | unsupportedBody (contentType : String)
  deriving Repr, Inhabited

def RequestFault.message : RequestFault → String
  | .unresolved template fault => fault.message template
  | .longInteger fault => fault.message
  | .fields fault => fault.message
  | .unsupportedBody contentType => "Unsupported request body format: " ++ contentType

inductive Payload where
  | none
  | json (value : Value)
  | content (value : Value)
  deriving Repr, Inhabited

structure ReadyRequest where
  method : String
  url : String
  headers : List (String × String)
  payload : Payload
  deriving Repr, Inhabited

def formStyle : QueryForm := ⟨"form", true⟩

/-- Fields that were collected, up to the first that could not be written. -/
structure Collected where
  fields : List (String × String)
  fault : Option LongInteger
  deriving DecidableEq, Repr, Inhabited

namespace Collected

def atOnce : Except LongInteger (List (String × String)) → Collected
  | .ok fields => ⟨fields, none⟩
  | .error fault => ⟨[], some fault⟩

def oneByOne : List (Except LongInteger (String × String)) → Collected
  | [] => ⟨[], none⟩
  | .error fault :: _ => ⟨[], some fault⟩
  | .ok field :: rest => ⟨field :: (oneByOne rest).fields, (oneByOne rest).fault⟩

end Collected

def QueryForm.collect (form : QueryForm) (key : String) (data : Value) : Collected :=
  let joined (texts : Except LongInteger (List String)) : Collected :=
    .atOnce ((fun texts => [(key, ",".intercalate texts)]) <$> texts)
  if form.style = "deepObject" then .atOnce (leaves key data)
  else
    match data with
    | .array items =>
        if form.explode then .oneByOne (items.map fun item => (fun text => (key, text)) <$> formatValue item)
        else joined (items.mapM formatValue)
    | .object members =>
        if form.explode then
          .oneByOne (members.map fun (name, value) => (fun text => (name.display, text)) <$> formatValue value)
        else joined (members.mapM fun (name, value) => (fun text => name.display ++ "," ++ text) <$> formatValue value)
    | scalar => .atOnce ((fun text => [(key, text)]) <$> formatValue scalar)

namespace Request

def start (method serverUrl pathTemplate : String) : Request :=
  ⟨Text.upperText method, serverUrl, pathTemplate, [], [], [], []⟩

/-- A parameter that is stored once it is written. -/
def setting (request : Request) (value : Value) (store : String → Request) : Setting :=
  if value.isNull then ⟨request, none⟩
  else
    match formatValue value with
    | .ok text => ⟨store text, none⟩
    | .error fault => ⟨request, some fault⟩

def setHeader (request : Request) (key : String) (value : Value) : Setting :=
  request.setting value fun text => { request with headers := Entries.set key text request.headers }

def setCookie (request : Request) (key : String) (value : Value) : Setting :=
  request.setting value fun text => { request with cookies := Entries.set key text request.cookies }

def setPathValue (request : Request) (key : String) (value : Value) : Setting :=
  request.setting value fun text =>
    { request with pathValues := Entries.set key (Text.percentEncodeText text) request.pathValues }

/-- What was collected before a fault stays in the query. -/
def addQuery (request : Request) (classes : Classes) (key : String) (value : Value) (form : QueryForm) : Setting :=
  if value.isNull then ⟨request, none⟩
  else
    match classes.jsonForm value with
    | .error fault => ⟨request, some fault⟩
    | .ok data =>
        let collected := form.collect key data
        ⟨{ request with query := request.query ++ collected.fields }, collected.fault⟩

theorem setting_request (request : Request) (value : Value) (store : String → Request) :
    (request.setting value store).request = request ∨ ∃ text, (request.setting value store).request = store text := by
  unfold setting
  split
  · exact .inl rfl
  · split
    · exact .inr ⟨_, rfl⟩
    · exact .inl rfl

/-- What storing a text leaves as it is, a setting leaves. -/
theorem setting_keeps {α : Type} {request : Request} {value : Value} {store : String → Request} (part : Request → α)
    (kept : ∀ text, part (store text) = part request) : part (request.setting value store).request = part request := by
  rcases setting_request request value store with same | ⟨text, stored⟩
  · rw [same]
  · rw [stored, kept]

theorem setting_outcome {request after : Request} {value : Value} {store : String → Request}
    (filled : value.isNull = false) (made : (request.setting value store).outcome = .ok after) :
    ∃ text, after = store text := by
  unfold setting at made
  rw [filled] at made
  split at made
  · contradiction
  · split at made
    · exact ⟨_, (Except.ok.inj made).symm⟩
    · cases made

theorem addQuery_request (request : Request) (classes : Classes) (key : String) (value : Value) (form : QueryForm) :
    ∃ fields,
      (request.addQuery classes key value form).request = { request with query := request.query ++ fields } := by
  unfold addQuery
  split
  · exact ⟨[], by rw [List.append_nil]⟩
  · split
    · exact ⟨[], by rw [List.append_nil]⟩
    · exact ⟨_, rfl⟩

def url (request : Request) : Except RequestFault String :=
  match resolveTemplate request.pathTemplate request.pathValues with
  | .error fault => .error (.unresolved request.pathTemplate fault)
  | .ok path =>
      let server := (request.serverUrl.toList.reverse.dropWhile (· == '/')).reverse
      let address := String.ofList (server ++ '/' :: path.toList.dropWhile (· == '/'))
      .ok (if request.query.isEmpty then address else address ++ "?" ++ Text.formFields request.query)

def ownHeaders (request : Request) : List (String × String) :=
  if request.cookies.isEmpty then request.headers
  else
    let cookie := "; ".intercalate (request.cookies.map fun (name, text) => name ++ "=" ++ text)
    Entries.set "Cookie" cookie request.headers

end Request

def payloadOf (contentType : String) (data : Value) : Except RequestFault Payload :=
  if contentType = formContentType then
    match deepObject none data with
    | .ok fields => .ok (.content (.string (Text.formFields fields)))
    | .error fault => .error (.fields fault)
  else if isJsonContentType (some contentType) then .ok (.json data)
  else
    match data with
    | .string _ | .bytes _ => .ok (.content data)
    | _ => .error (.unsupportedBody contentType)

def Request.ready (request : Request) (classes : Classes) (body : Value) (contentType : String) :
    Except RequestFault ReadyRequest := do
  let url ← request.url
  if body.isNull then pure ⟨request.method, url, request.ownHeaders, .none⟩
  else
    let data ← (classes.jsonForm body).mapError .longInteger
    let payload ← payloadOf contentType data
    pure ⟨request.method, url, Entries.set "Content-Type" contentType request.ownHeaders, payload⟩

end OpenApiClient.Client
