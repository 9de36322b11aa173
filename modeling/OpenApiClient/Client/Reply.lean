import OpenApiClient.Client.Response
import OpenApiClient.Json.Octets

/-! Replies as a server sends them, and the responses that a library makes of them whose text is always UTF-8. Where a
content type names another character set, another library has another text. -/

namespace OpenApiClient.Client

structure Reply where
  status : Int
  headers : List (String × String)
  body : List UInt8
  deriving Repr, Inhabited

def Reply.header? (reply : Reply) (name : String) : Option String :=
  let found := reply.headers.filter fun header => Text.lowerText header.1 == name
  if found.isEmpty then none else some (", ".intercalate (found.map Prod.snd))

def JsonFault.ofOctets (fault : Json.OctetsFault) : JsonFault :=
  match fault with
  | .text _ (.grammar _ _) => ⟨"JSONDecodeError", fault.message⟩
  | .text _ (.longInteger _) => ⟨"ValueError", fault.message⟩
  | .utf8 _ | .wide _ => ⟨"UnicodeDecodeError", fault.message⟩

def Reply.response (reply : Reply) : Response where
  status := reply.status
  content := reply.body
  contentType := reply.header? "content-type"
  text := String.ofList (Text.decodeUtf8Lenient reply.body)
  json := (Json.readOctets reply.body).mapError .ofOctets

end OpenApiClient.Client
