import OpenApiClient.Text.Character

/-! Quoted literals of texts and octets. Single quotes are the rule; double quotes are taken for a text
that holds single quotes and no double ones. What cannot be printed is written as an escape. -/

namespace OpenApiClient.Text

def hexDigit (n : Nat) : Char := (Nat.digitChar (n % 16))

def hexDigits (count number : Nat) : List Char :=
  (List.range count).reverse.map fun place => hexDigit (number / Nat.pow 16 place)

def quoteFor (text : List Char) : Char :=
  if text.contains '\'' && !text.contains '"' then '"' else '\''

def codePointEscape (point : Nat) : List Char :=
  if point < 0x100 then '\\' :: 'x' :: hexDigits 2 point
  else if point < 0x10000 then '\\' :: 'u' :: hexDigits 4 point
  else '\\' :: 'U' :: hexDigits 8 point

def quotedCharacter (quote c : Char) : List Char :=
  if c = quote ∨ c = '\\' then ['\\', c]
  else if c = '\t' then ['\\', 't']
  else if c = '\n' then ['\\', 'n']
  else if c = '\r' then ['\\', 'r']
  else if isPrintable c then [c]
  else codePointEscape c.toNat

def quoted (text : List Char) : List Char :=
  let quote := quoteFor text
  quote :: (text.flatMap (quotedCharacter quote) ++ [quote])

def quotedText (text : String) : String := String.ofList (quoted text.toList)

def quotedOctet (quote : Char) (octet : UInt8) : List Char :=
  if octet < 128 then quotedCharacter quote (Char.ofNat octet.toNat)
  else codePointEscape octet.toNat

def quotedOctets (octets : List UInt8) : List Char :=
  let quote := quoteFor (octets.map fun octet => Char.ofNat octet.toNat)
  'b' :: quote :: (octets.flatMap (quotedOctet quote) ++ [quote])

end OpenApiClient.Text
