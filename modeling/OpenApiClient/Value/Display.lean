import OpenApiClient.Number.Shortest
import OpenApiClient.Text.Quoted
import OpenApiClient.Value.Basic

/-! Texts of values. The literal of a value denotes it in generated source; its display is the same text
except that a string, a date or a number stands for itself. Both are given for every value; whether a value can be
written at all is asked where clients write one. -/

namespace OpenApiClient.Value

def padded (width number : Nat) : String :=
  let digits := Nat.toDigits 10 number
  String.ofList (List.replicate (width - digits.length) '0' ++ digits)

def isoDate (year month day : Nat) : String :=
  padded 4 year ++ "-" ++ padded 2 month ++ "-" ++ padded 2 day

mutual

def literal : Value → String
  | .null => "None"
  | .bool truth => if truth then "True" else "False"
  | .int number => toString number
  | .float number => number.text
  | .string text => Text.quotedText text
  | .bytes octets => String.ofList (Text.quotedOctets octets)
  | .date year month day =>
      "datetime.date(" ++ toString year ++ ", " ++ toString month ++ ", " ++ toString day ++ ")"
  | .array items => "[" ++ ", ".intercalate (literals items) ++ "]"
  | .tuple [item] => "(" ++ item.literal ++ ",)"
  | .tuple items => "(" ++ ", ".intercalate (literals items) ++ ")"
  | .object members => "\x7b" ++ ", ".intercalate (memberLiterals members) ++ "\x7d"
  | .record className fields => className ++ "(" ++ ", ".intercalate (fieldLiterals fields) ++ ")"

def literals : List Value → List String
  | [] => []
  | item :: items => item.literal :: literals items

def memberLiterals : List (Value × Value) → List String
  | [] => []
  | (key, value) :: members => (key.literal ++ ": " ++ value.literal) :: memberLiterals members

def fieldLiterals : List (String × Value) → List String
  | [] => []
  | (name, value) :: fields => (name ++ "=" ++ value.literal) :: fieldLiterals fields

end

def display : Value → String
  | .string text => text
  | .date year month day => isoDate year month day
  | other => other.literal

end OpenApiClient.Value
