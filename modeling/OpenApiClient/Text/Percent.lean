import OpenApiClient.Text.Character

/-! Percent encoding. Unreserved characters stand for themselves, every other octet of the UTF-8 form
becomes a percent sign and two hexadecimal digits. In forms a space becomes a plus sign. -/

namespace OpenApiClient.Text

def isUnreserved (c : Char) : Bool :=
  isAsciiLetter c || isAsciiDigit c || ['_', '.', '-', '~'].contains c

def percentDigit (n : Nat) : Char :=
  if n < 10 then Char.ofNat (48 + n) else Char.ofNat (55 + n)

def percentOctet (octet : UInt8) : List Char :=
  ['%', percentDigit (octet.toNat / 16), percentDigit (octet.toNat % 16)]

def percentCharacter (c : Char) : List Char :=
  if isUnreserved c then [c] else (String.utf8EncodeChar c).flatMap percentOctet

def percentEncode (text : List Char) : List Char := text.flatMap percentCharacter

def formEncode (text : List Char) : List Char :=
  text.flatMap fun c => if c = ' ' then ['+'] else percentCharacter c

def percentEncodeText (text : String) : String := String.ofList (percentEncode text.toList)

def formPair (pair : String × String) : List Char :=
  formEncode pair.1.toList ++ '=' :: formEncode pair.2.toList

/-- Pairs in the form of a query string: names and values by equals signs, pairs by ampersands. -/
def formFields (pairs : List (String × String)) : String :=
  String.ofList (joinWith ['&'] (pairs.map formPair))

end OpenApiClient.Text
