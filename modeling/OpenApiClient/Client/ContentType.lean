import OpenApiClient.Text.Casing

/-! Content types of requests and responses. -/

namespace OpenApiClient.Client

def jsonContentType : String := "application/json"

def formContentType : String := "application/x-www-form-urlencoded"

def mediaType (contentType : String) : List Char :=
  Text.lower (Text.strip Text.isSpace (contentType.toList.takeWhile (· != ';')))

def isJsonContentType (contentType : Option String) : Bool :=
  match contentType with
  | none => false
  | some contentType =>
      let media := mediaType contentType
      !contentType.isEmpty &&
        (media == jsonContentType.toList || "+json".toList.reverse.isPrefixOf media.reverse)

end OpenApiClient.Client
