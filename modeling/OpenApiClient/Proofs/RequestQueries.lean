import OpenApiClient.Client.Request
import OpenApiClient.Proofs.FormFields
import OpenApiClient.Proofs.UrlTemplates
import Mathlib.Data.List.TakeWhile

/-! The query of a request's URL. What values put into the path holds no question mark, so that the first one of
the URL begins the query, from which the parameters are read back as they were collected. -/

namespace OpenApiClient.Client

inductive UrlCall where
  | path (key : String) (value : Value)
  | query (key : String) (value : Value) (form : QueryForm)
  deriving Repr, Inhabited

def UrlCall.apply (classes : Classes) (request : Request) : UrlCall → Request
  | .path key value => (request.setPathValue key value).request
  | .query key value form => (request.addQuery classes key value form).request

namespace Request

variable {classes : Classes} {request : Request} {calls : List UrlCall} {method server template url : String}

def called (request : Request) (classes : Classes) (calls : List UrlCall) : Request :=
  calls.foldl (UrlCall.apply classes) request

/-! What calls leave as it is. -/

theorem apply_cases (call : UrlCall) :
    call.apply classes request = request ∨
      (∃ key text, call.apply classes request =
        { request with pathValues := Entries.set key (Text.percentEncodeText text) request.pathValues }) ∨
      ∃ fields, call.apply classes request = { request with query := request.query ++ fields } := by
  cases call with
  | path key value =>
      rcases setting_request request value _ with same | ⟨text, stored⟩
      · exact .inl same
      · exact .inr (.inl ⟨key, text, stored⟩)
  | query key value form => exact .inr (.inr (addQuery_request request classes key value form))

theorem apply_serverUrl (call : UrlCall) : (call.apply classes request).serverUrl = request.serverUrl := by
  rcases apply_cases call with same | ⟨_, _, same⟩ | ⟨_, same⟩ <;> rw [same]

theorem apply_pathTemplate (call : UrlCall) :
    (call.apply classes request).pathTemplate = request.pathTemplate := by
  rcases apply_cases call with same | ⟨_, _, same⟩ | ⟨_, same⟩ <;> rw [same]

theorem called_serverUrl : (request.called classes calls).serverUrl = request.serverUrl := by
  induction calls generalizing request with
  | nil => rfl
  | cons call rest ih => exact ih.trans (apply_serverUrl call)

theorem called_pathTemplate : (request.called classes calls).pathTemplate = request.pathTemplate := by
  induction calls generalizing request with
  | nil => rfl
  | cons call rest ih => exact ih.trans (apply_pathTemplate call)

/-! Path values are percent encoded, whatever is set. -/

def Encoded (request : Request) : Prop :=
  ∀ entry ∈ request.pathValues, ∃ text, entry.2 = Text.percentEncodeText text

theorem start_encoded : (start method server template).Encoded := by
  simp [Encoded, start]

theorem apply_encoded (encoded : request.Encoded) (call : UrlCall) : (call.apply classes request).Encoded := by
  rcases apply_cases call with same | ⟨key, text, same⟩ | ⟨fields, same⟩
  · rw [same]
    exact encoded
  · rw [same]
    intro entry member
    rcases Entries.mem_set member with same | old
    · exact ⟨_, same⟩
    · exact encoded entry old
  · rw [same]
    exact encoded

theorem called_encoded (encoded : request.Encoded) : (request.called classes calls).Encoded := by
  induction calls generalizing request with
  | nil => exact encoded
  | cons call rest ih => exact ih (apply_encoded encoded call)

end Request

/-! Which characters a URL has. -/

theorem resolveRest_mem {values : String → Option String} {c : Char} :
    ∀ {rest : List Char} {name : Option (List Char)} {text : List Char},
      resolveRest values name rest = .ok text → c ∈ text →
        c ∈ rest ∨ ∃ key value, values key = some value ∧ c ∈ value.toList := by
  -- What was read of a name is lost with it, so that nothing has to be known of its characters.
  intro rest
  induction rest with
  | nil =>
      intro name text resolved member
      rw [resolveRest] at resolved
      split at resolved
      · cases resolved
      · cases resolved
        contradiction
  | cons first rest ih =>
      intro name text resolved member
      cases name with
      | none =>
          rw [resolveRest] at resolved
          split at resolved
          · exact (ih resolved member).imp_left (List.mem_cons_of_mem _)
          split at resolved
          · cases resolved
          obtain ⟨later, following, rfl⟩ := except_map_ok.mp resolved
          rcases List.mem_cons.mp member with rfl | inLater
          · exact .inl List.mem_cons_self
          · exact (ih following inLater).imp_left (List.mem_cons_of_mem _)
      | some name =>
          rw [resolveRest] at resolved
          split at resolved
          · cases resolved
          split at resolved
          · split at resolved
            · rename_i value found
              obtain ⟨later, following, rfl⟩ := except_map_ok.mp resolved
              rcases List.mem_append.mp member with inValue | inLater
              · exact .inr ⟨_, value, found, inValue⟩
              · exact (ih following inLater).imp_left (List.mem_cons_of_mem _)
            · cases resolved
          · exact (ih resolved member).imp_left (List.mem_cons_of_mem _)

/-- What divides the parts of a URL is not written for a value. -/
theorem not_mem_percentEncode {separator : Char} (special : separator ∈ ['/', '?', '#']) (text : List Char) :
    separator ∉ Text.percentEncode text := by
  intro member
  have plain := Text.percentEncode_plain text separator member
  simp only [List.mem_cons, List.not_mem_nil, or_false] at special
  rcases special with rfl | rfl | rfl <;> exact absurd plain (by decide)

namespace Request

variable {request : Request} {url : String}

def address (request : Request) (path : String) : List Char :=
  (request.serverUrl.toList.reverse.dropWhile (· == '/')).reverse ++ '/' :: path.toList.dropWhile (· == '/')

def queryPart (request : Request) : List Char :=
  if request.query.isEmpty then [] else '?' :: (Text.formFields request.query).toList

theorem url_ok_iff :
    request.url = .ok url ↔
      ∃ path, resolveTemplate request.pathTemplate request.pathValues = .ok path ∧
        url.toList = request.address path ++ request.queryPart := by
  rw [Request.url]
  cases resolveTemplate request.pathTemplate request.pathValues with
  | error fault => simp
  | ok path =>
      simp only [Except.ok.injEq, exists_eq_left', queryPart]
      rw [← String.toList_inj, eq_comm]
      split <;> simp [address]

theorem mem_address {path : String} {c : Char} (member : c ∈ request.address path) :
    c ∈ request.serverUrl.toList ∨ c = '/' ∨ c ∈ path.toList := by
  rw [address, List.mem_append, List.mem_reverse, List.mem_cons] at member
  rcases member with inServer | slash | inPath
  · exact .inl (List.mem_reverse.mp ((List.dropWhile_sublist _).mem inServer))
  · exact .inr (.inl slash)
  · exact .inr (.inr ((List.dropWhile_sublist _).mem inPath))

/-- What begins a query or a fragment comes from the server's URL or the template, never from a value. -/
theorem not_mem_address (encoded : request.Encoded) {path : String}
    (resolved : resolveTemplate request.pathTemplate request.pathValues = .ok path)
    {mark : Char} (special : mark ∈ ['?', '#']) (server : mark ∉ request.serverUrl.toList)
    (template : mark ∉ request.pathTemplate.toList) : mark ∉ request.address path := by
  have notSlash : mark ≠ '/' := by
    rintro rfl
    exact absurd special (by decide)
  intro member
  rcases mem_address member with inServer | slash | inPath
  · exact server inServer
  · exact notSlash slash
  · obtain ⟨text, following, rfl⟩ := except_map_ok.mp resolved
    rw [String.toList_ofList] at inPath
    rcases resolveRest_mem following inPath with inTemplate | ⟨key, value, found, inValue⟩
    · exact template inTemplate
    · obtain ⟨plain, rfl⟩ : ∃ text, value = Text.percentEncodeText text :=
        encoded _ (Entries.mem_of_find? found)
      rw [Text.percentEncodeText, String.toList_ofList] at inValue
      exact not_mem_percentEncode (List.mem_cons_of_mem _ special) _ inValue

end Request

/-! Reading the query. -/

def queryText? (url : String) : Option (List Char) :=
  match url.toList.dropWhile (· != '?') with
  | [] => none
  | _ :: text => some text

def readQuery (url : String) : Except Text.Utf8Fault (List (String × String)) :=
  match queryText? url with
  | none => .ok []
  | some text => Text.readFormFields text

theorem queryText?_none {url : String} (absent : '?' ∉ url.toList) : queryText? url = none := by
  have all : ∀ c ∈ url.toList, (c != '?') = true := by
    intro c member
    have different : c ≠ '?' := fun same => absent (same ▸ member)
    simpa using different
  rw [queryText?, List.dropWhile_eq_nil_iff.mpr all]

theorem queryText?_append {url : String} {address text : List Char} (absent : '?' ∉ address)
    (shape : url.toList = address ++ '?' :: text) : queryText? url = some text := by
  have all : ∀ c ∈ address, (c != '?') = true := by
    intro c member
    have different : c ≠ '?' := fun same => absent (same ▸ member)
    simpa using different
  rw [queryText?, shape, List.dropWhile_append_of_pos all]
  rfl

/-- Where the first question mark begins what was collected, the query is read back. -/
theorem readQuery_of_shape {request : Request} {url : String} {address : List Char} (absent : '?' ∉ address)
    (shape : url.toList = address ++ request.queryPart) :
    ('?' ∈ url.toList ↔ request.query ≠ []) ∧ readQuery url = .ok request.query := by
  by_cases empty : request.query = []
  · have bare : url.toList = address := by simpa [Request.queryPart, empty] using shape
    have without : '?' ∉ url.toList := bare ▸ absent
    refine ⟨iff_of_false without (not_not_intro empty), ?_⟩
    rw [readQuery, queryText?_none without, empty]
  · have filled : url.toList = address ++ '?' :: (Text.formFields request.query).toList := by
      rw [shape, Request.queryPart, if_neg (by simpa using empty)]
    have marked : '?' ∈ url.toList := by simp [filled]
    refine ⟨iff_of_true marked empty, ?_⟩
    rw [readQuery, queryText?_append absent filled]
    exact Text.readFormFields_formFields empty

/-- The URL of a request that was given any parameters has a question mark exactly if some were collected for the
query, and they are read back from it, the same ones in the same order. -/
theorem url_query (classes : Classes) (method server template : String) (calls : List UrlCall) {url : String}
    (plainServer : '?' ∉ server.toList) (plainTemplate : '?' ∉ template.toList)
    (made : ((Request.start method server template).called classes calls).url = .ok url) :
    ('?' ∈ url.toList ↔ ((Request.start method server template).called classes calls).query ≠ []) ∧
      readQuery url = .ok ((Request.start method server template).called classes calls).query := by
  obtain ⟨path, resolved, shape⟩ := Request.url_ok_iff.mp made
  have encoded : ((Request.start method server template).called classes calls).Encoded :=
    Request.called_encoded Request.start_encoded
  refine readQuery_of_shape (Request.not_mem_address encoded resolved List.mem_cons_self ?_ ?_) shape
  · rw [Request.called_serverUrl]
    exact plainServer
  · rw [Request.called_pathTemplate]
    exact plainTemplate

/-- A search in a folder, whose values hold what divides the parts of a URL. -/
def searchCalls : List UrlCall :=
  [.path "folder" (.string "a/b?c"), .query "q=r" (.string "rock & 100%?") formStyle,
    .query "skip" .null formStyle,
    .query "filter" (.object [(.string "tags", .array [.string "é", .bool true])]) ⟨"deepObject", true⟩,
    .query "ids" (.array [.int 1, .int 2]) ⟨"form", false⟩, .query "q=r" (.string "+") formStyle]

def searchRequest : Request := (Request.start "get" "https://api.test/" "/{folder}/notes").called ⟨[]⟩ searchCalls

def searchUrl : String :=
  "https://api.test/a%2Fb%3Fc/notes?q%3Dr=rock+%26+100%25%3F&filter%5Btags%5D%5B0%5D=%C3%A9" ++
    "&filter%5Btags%5D%5B1%5D=true&ids=1%2C2&q%3Dr=%2B"

def searchQuery : List (String × String) :=
  [("q=r", "rock & 100%?"), ("filter[tags][0]", "é"), ("filter[tags][1]", "true"), ("ids", "1,2"), ("q=r", "+")]

theorem searchUrl_query :
    '?' ∉ "https://api.test/".toList ∧ '?' ∉ "/{folder}/notes".toList ∧ searchRequest.url = .ok searchUrl ∧
      '?' ∈ searchUrl.toList ∧ readQuery searchUrl = .ok searchQuery := by
  have plainServer : '?' ∉ "https://api.test/".toList := by decide
  have plainTemplate : '?' ∉ "/{folder}/notes".toList := by decide
  have made : searchRequest.url = .ok searchUrl :=
    Request.url_ok_iff.mpr ⟨"/a%2Fb%3Fc/notes", by decide +kernel, by decide +kernel⟩
  have collected : searchRequest.query = searchQuery := by decide +kernel
  have read := url_query ⟨[]⟩ "get" "https://api.test/" "/{folder}/notes" searchCalls plainServer plainTemplate made
  have filled : searchRequest.query ≠ [] := by
    rw [collected]
    exact List.cons_ne_nil _ _
  exact ⟨plainServer, plainTemplate, made, read.1.mpr filled, read.2.trans (congrArg Except.ok collected)⟩

end OpenApiClient.Client
