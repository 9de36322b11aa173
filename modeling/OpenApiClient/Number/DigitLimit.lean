/-! The limit of integers in base ten. An integer of more digits is not read from a text, and has no text itself. -/

namespace OpenApiClient

def integerDigitLimit : Nat := 4300

def isLongInteger (number : Int) : Bool :=
  decide (integerDigitLimit < (Nat.toDigits 10 number.natAbs).length)

theorem lt_length_toDigits_iff {limit number : Nat} (positive : 0 < limit) :
    limit < (Nat.toDigits 10 number).length ↔ Nat.pow 10 limit ≤ number := by
  rw [← Nat.not_le, Nat.length_toDigits_le_iff (by decide) positive, Nat.not_lt]
  rfl

theorem isLongInteger_iff {number : Int} :
    isLongInteger number = true ↔ Nat.pow 10 integerDigitLimit ≤ number.natAbs := by
  rw [isLongInteger, decide_eq_true_iff, lt_length_toDigits_iff (by decide)]

/-- An integer has no text. -/
structure LongInteger where
  deriving DecidableEq, Repr, Inhabited

def LongInteger.message (_ : LongInteger) : String :=
  s!"Exceeds the limit ({integerDigitLimit} digits) for integer string conversion; " ++
    "use sys.set_int_max_str_digits() to increase the limit"

end OpenApiClient
