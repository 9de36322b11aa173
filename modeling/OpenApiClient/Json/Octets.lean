import OpenApiClient.Json.Reader
import OpenApiClient.Text.Wide

/-! Reading JSON from octets. Either a byte order mark names the encoding, or the places of the zeros among
the first octets do, since the first characters of JSON text are ASCII. -/

namespace OpenApiClient.Json

inductive Encoding where
  | utf8
  | wide (encoding : Text.WideEncoding)
  deriving DecidableEq, Repr, Inhabited

def encodingByZeros : List UInt8 → Encoding
  | a :: b :: c :: d :: _ =>
      if a = 0 then .wide (if b = 0 then .utf32 .big else .utf16 .big)
      else if b = 0 then .wide (if c = 0 ∧ d = 0 then .utf32 .little else .utf16 .little)
      else .utf8
  | [a, b] =>
      if a = 0 then .wide (.utf16 .big) else if b = 0 then .wide (.utf16 .little) else .utf8
  | _ => .utf8

def encodingOf : List UInt8 → Encoding × Nat
  | 0x00 :: 0x00 :: 0xfe :: 0xff :: _ => (.wide (.utf32 .big), 4)
  | 0xff :: 0xfe :: 0x00 :: 0x00 :: _ => (.wide (.utf32 .little), 4)
  | 0xfe :: 0xff :: _ => (.wide (.utf16 .big), 2)
  | 0xff :: 0xfe :: _ => (.wide (.utf16 .little), 2)
  | 0xef :: 0xbb :: 0xbf :: _ => (.utf8, 3)
  | octets => (encodingByZeros octets, 0)

inductive OctetsFault where
  | utf8 (fault : Text.Utf8Fault)
  | wide (fault : Text.WideFault)
  | text (characters : List Char) (fault : Fault)
  deriving DecidableEq, Repr, Inhabited

def OctetsFault.message : OctetsFault → String
  | .utf8 fault => fault.message
  | .wide fault => fault.message
  | .text characters fault => fault.message characters

/-- Puts the replacement character in the place of encoded surrogates, which JSON text may hold. It takes
as many octets. -/
def replaceSurrogates : List UInt8 → List UInt8
  | 0xed :: second :: third :: rest =>
      if 0xa0 ≤ second ∧ second ≤ 0xbf ∧ 0x80 ≤ third ∧ third ≤ 0xbf then
        0xef :: 0xbf :: 0xbd :: replaceSurrogates rest
      else 0xed :: replaceSurrogates (second :: third :: rest)
  | octet :: rest => octet :: replaceSurrogates rest
  | [] => []

def decodeOctets (octets : List UInt8) : Except OctetsFault (List Char) :=
  match encodingOf octets with
  | (.utf8, mark) => (Text.decodeUtf8 (replaceSurrogates (octets.drop mark))).mapError .utf8
  | (.wide encoding, mark) => (encoding.decode mark (octets.drop mark)).mapError .wide

def readOctets (octets : List UInt8) : Except OctetsFault Value := do
  let text ← decodeOctets octets
  (readText text).mapError (.text text)

end OpenApiClient.Json
