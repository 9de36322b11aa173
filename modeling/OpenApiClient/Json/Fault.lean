import OpenApiClient.Number.DigitLimit

/-! What can be wrong with JSON text, and where. -/

namespace OpenApiClient.Json

inductive Reason where
  | byteOrderMark
  | expectedValue
  | expectedName
  | expectedColon
  | expectedComma
  | unterminatedString
  | controlCharacter
  | badEscape
  | badUnicodeEscape
  | extraData
  deriving DecidableEq, Repr, Inhabited

def Reason.message : Reason → String
  | .byteOrderMark => "Unexpected UTF-8 BOM (decode using utf-8-sig)"
  | .expectedValue => "Expecting value"
  | .expectedName => "Expecting property name enclosed in double quotes"
  | .expectedColon => "Expecting ':' delimiter"
  | .expectedComma => "Expecting ',' delimiter"
  | .unterminatedString => "Unterminated string starting at"
  | .controlCharacter => "Invalid control character at"
  | .badEscape => "Invalid \\escape"
  | .badUnicodeEscape => "Invalid \\uXXXX escape"
  | .extraData => "Extra data"

inductive Fault where
  | grammar (reason : Reason) (position : Nat)
  | longInteger (digits : Nat)
  deriving DecidableEq, Repr, Inhabited

def lineOf (text : List Char) (position : Nat) : Nat :=
  (text.take position).count '\n' + 1

def columnOf (text : List Char) (position : Nat) : Nat :=
  ((text.take position).reverse.takeWhile (· != '\n')).length + 1

def Fault.message (text : List Char) : Fault → String
  | .grammar reason position =>
      s!"{reason.message}: line {lineOf text position} column {columnOf text position} (char {position})"
  | .longInteger digits =>
      s!"Exceeds the limit ({integerDigitLimit} digits) for integer string conversion: " ++
        s!"value has {digits} digits; use sys.set_int_max_str_digits() to increase the limit"

end OpenApiClient.Json
