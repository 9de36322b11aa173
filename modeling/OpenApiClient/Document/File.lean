import OpenApiClient.Failure
import OpenApiClient.Json.Reader
import OpenApiClient.Path
import OpenApiClient.Text.Casing
import OpenApiClient.Text.Lines
import OpenApiClient.Text.Utf8
import OpenApiClient.Yaml.Fault

/-! Reading a document from a file. The suffix of its name decides about the format, and the document has to
be an object. The reader of YAML is a parameter. -/

namespace OpenApiClient

inductive ReadFault where
  | generation (error : GenerationError)
  | encoding (fault : Text.Utf8Fault)
  | longInteger (fault : Json.Fault)
  | raised (kind message : String)
  deriving DecidableEq, Repr, Inhabited

namespace ReadFault

def unreadable (path : Path) (reason : String) : ReadFault :=
  .generation ⟨.unreadable reason, some path.text⟩

def ofJson (path : Path) (text : List Char) (fault : Json.Fault) : ReadFault :=
  match fault with
  | .grammar _ _ => unreadable path (fault.message text)
  | .longInteger _ => .longInteger fault

def ofYaml (path : Path) : Yaml.ReaderFault → ReadFault
  | .unreadable reason => unreadable path reason
  | .raised kind message => .raised kind message

def message : ReadFault → String
  | .generation error => error.message
  | .encoding fault => fault.message
  | .longInteger fault => fault.message []
  | .raised _ message => message

end ReadFault

def Path.isYaml (path : Path) : Bool := [".yml", ".yaml"].contains (Text.lowerText path.suffix)

def readDocument (yaml : Yaml.Reader) (path : Path) (octets : List UInt8) : Except ReadFault Value := do
  let text ← (Text.decodeUtf8 octets).mapError .encoding
  let text := Text.universalNewlines text
  let document ←
    if path.isYaml then (yaml text).mapError (.ofYaml path)
    else (Json.read text).mapError (.ofJson path text)
  match document with
  | .object _ => pure document
  | _ => throw (.generation ⟨.notAnObject, some path.text⟩)

end OpenApiClient
