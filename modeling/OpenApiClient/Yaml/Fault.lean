import OpenApiClient.Value.Basic

/-! What can be wrong with YAML text: it breaks the grammar, or a scalar of it has no value. -/

namespace OpenApiClient.Yaml

/-- How a reader fails: with an error that tells what is wrong with the text, or with an exception of another kind,
which its callers do not catch. -/
inductive ReaderFault where
  | unreadable (reason : String)
  | raised (kind message : String)
  deriving DecidableEq, Repr, Inhabited

/-- YAML is read by another library. Documents are read with whatever reader is given. -/
abbrev Reader := List Char → Except ReaderFault Value

inductive NoValue where
  | codePoint (code : Nat)
  | noDigits (base : Nat)
  | longInteger (digits limit : Nat)
  | yearZero
  | monthRange
  | dayRange
  deriving DecidableEq, Repr, Inhabited

/-- Codes that do not even fit into 31 bits are told apart. -/
def NoValue.exceedsWord : NoValue → Bool
  | .codePoint code => decide (Nat.pow 2 31 ≤ code)
  | _ => false

def NoValue.message : NoValue → String
  | .codePoint code =>
      if code < Nat.pow 2 31 then "chr() arg not in range(0x110000)"
      else "Python int too large to convert to C int"
  | .noDigits base => s!"invalid literal for int() with base {base}: ''"
  | .longInteger digits limit =>
      s!"Exceeds the limit ({limit} digits) for integer string conversion: " ++
        s!"value has {digits} digits; use sys.set_int_max_str_digits() to increase the limit"
  | .yearZero => "year 0 is out of range"
  | .monthRange => "month must be in 1..12"
  | .dayRange => "day is out of range for month"

inductive Fault where
  | ungrammatical
  | noValue (cause : NoValue)
  deriving DecidableEq, Repr, Inhabited

/-- The reason why a text breaks the grammar is not told. -/
def Fault.told : Fault → ReaderFault
  | .ungrammatical => .unreadable ""
  | .noValue cause => .raised (if cause.exceedsWord then "OverflowError" else "ValueError") cause.message

end OpenApiClient.Yaml
