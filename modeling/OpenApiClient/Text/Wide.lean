import OpenApiClient.Text.Surrogate
import OpenApiClient.Text.Utf8

/-! Reading UTF-16 and UTF-32. -/

namespace OpenApiClient.Text

inductive ByteOrder where
  | little
  | big
  deriving DecidableEq, Repr, Inhabited

inductive WideEncoding where
  | utf16 (order : ByteOrder)
  | utf32 (order : ByteOrder)
  deriving DecidableEq, Repr, Inhabited

inductive WideReason where
  | truncated
  | outOfRange
  deriving DecidableEq, Repr, Inhabited

structure WideFault where
  encoding : WideEncoding
  reason : WideReason
  first : Nat
  stop : Nat
  octet : UInt8
  deriving DecidableEq, Repr, Inhabited

def ByteOrder.name : ByteOrder → String
  | .little => "le"
  | .big => "be"

def WideEncoding.name : WideEncoding → String
  | .utf16 order => "utf-16-" ++ order.name
  | .utf32 order => "utf-32-" ++ order.name

def WideReason.message : WideReason → String
  | .truncated => "truncated data"
  | .outOfRange => "code point not in range(0x110000)"

def WideFault.message (fault : WideFault) : String :=
  undecodable fault.encoding.name fault.first fault.stop fault.octet fault.reason.message

def ByteOrder.number (order : ByteOrder) (octets : List UInt8) : Nat :=
  let ordered := match order with | .little => octets.reverse | .big => octets
  ordered.foldl (fun total octet => total * 256 + octet.toNat) 0

def readUtf16 (order : ByteOrder) (position : Nat) : List UInt8 → Except WideFault (List Char)
  | [] => .ok []
  | [octet] => .error ⟨.utf16 order, .truncated, position, position + 1, octet⟩
  | [a, b] => .ok [unitCharacter (order.number [a, b])]
  | [_, _, octet] => .error ⟨.utf16 order, .truncated, position + 2, position + 3, octet⟩
  | a :: b :: c :: d :: rest =>
      let high := order.number [a, b]
      let low := order.number [c, d]
      if isHighSurrogate high && isLowSurrogate low then
        (pairCharacter high low :: ·) <$> readUtf16 order (position + 4) rest
      else (unitCharacter high :: ·) <$> readUtf16 order (position + 2) (c :: d :: rest)

def readUtf32 (order : ByteOrder) (position : Nat) : List UInt8 → Except WideFault (List Char)
  | [] => .ok []
  | a :: b :: c :: d :: rest =>
      let point := order.number [a, b, c, d]
      if 0x10ffff < point then .error ⟨.utf32 order, .outOfRange, position, position + 4, a⟩
      else (unitCharacter point :: ·) <$> readUtf32 order (position + 4) rest
  | octet :: rest =>
      .error ⟨.utf32 order, .truncated, position, position + 1 + rest.length, octet⟩

def WideEncoding.decode (encoding : WideEncoding) (position : Nat) (octets : List UInt8) :
    Except WideFault (List Char) :=
  match encoding with
  | .utf16 order => readUtf16 order position octets
  | .utf32 order => readUtf32 order position octets

end OpenApiClient.Text
