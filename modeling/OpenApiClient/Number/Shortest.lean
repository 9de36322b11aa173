import OpenApiClient.Number.Binary64

/-! The shortest decimal text of a floating-point number: of all decimals that read back as the number,
those with the fewest digits, and of these the nearest. The search asks for one digit more at a time and
looks only at the two neighbours of the number on the decimal grid of that many digits. -/

namespace OpenApiClient.Binary64

/-- The reals that round to one positive number, as naturals in units of a quarter of its last binary
place. The ends belong to it when the significand is even. -/
structure Neighbourhood where
  low : Nat
  middle : Nat
  high : Nat
  closed : Bool
  unit : Int

def neighbourhood (significand : Nat) (exponent : Int) : Neighbourhood where
  low := 4 * significand - (if significand = hiddenBit ∧ leastExponent < exponent then 1 else 2)
  middle := 4 * significand
  high := 4 * significand + 2
  closed := significand % 2 == 0
  unit := exponent - 2

structure Decimal where
  digits : Nat
  exponent : Int
  deriving DecidableEq, Repr, Inhabited

def gridRatio (factor : Nat) (binary decimal : Int) : Nat × Nat :=
  (factor * Nat.pow 2 binary.toNat * Nat.pow 10 (-decimal).toNat,
    Nat.pow 2 (-binary).toNat * Nat.pow 10 decimal.toNat)

def Neighbourhood.holds (area : Neighbourhood) (point : Decimal) : Bool :=
  let (lowN, lowD) := gridRatio area.low area.unit point.exponent
  let (highN, highD) := gridRatio area.high area.unit point.exponent
  if area.closed then
    decide (lowN ≤ point.digits * lowD) && decide (point.digits * highD ≤ highN)
  else
    decide (lowN < point.digits * lowD) && decide (point.digits * highD < highN)

/-- The better of the two grid neighbours of the number that lie in its neighbourhood; a tie goes to the
even last digit. -/
def Neighbourhood.onGrid? (area : Neighbourhood) (exponent : Int) : Option Decimal :=
  let (numerator, denominator) := gridRatio area.middle area.unit exponent
  let below : Decimal := ⟨numerator / denominator, exponent⟩
  let above : Decimal := ⟨numerator / denominator + 1, exponent⟩
  match area.holds below, area.holds above with
  | true, true => some (if roundHalfEven numerator denominator = below.digits then below else above)
  | true, false => some below
  | false, true => some above
  | false, false => none

def leadingPlace (numerator denominator : Nat) : Int :=
  let guess : Int := (decimalLength numerator : Int) - decimalLength denominator
  if numerator * Nat.pow 10 (-guess).toNat < denominator * Nat.pow 10 guess.toNat then guess - 1 else guess

def Neighbourhood.search (area : Neighbourhood) (leading : Int) : Nat → Nat → Decimal
  | _, 0 => ⟨0, 0⟩
  | length, fuel + 1 =>
      match area.onGrid? (leading - length + 1) with
      | some found => found
      | none => search area leading (length + 1) fuel

/-- The shortest decimal that reads back as a positive number. Seventeen digits always do. -/
def shortestDecimal (significand : Nat) (exponent : Int) : Decimal :=
  let (numerator, denominator) := ratio significand exponent
  (neighbourhood significand exponent).search (leadingPlace numerator denominator) 1 18

def significantDigits (digits : Nat) : List Char :=
  ((Nat.toDigits 10 digits).reverse.dropWhile (· == '0')).reverse

/-- A decimal with its leading digit at a place from -4 to 15 is written positionally and always shows a
digit after the point; any other has one digit before the point and an exponent of two digits or more. -/
def Decimal.text (decimal : Decimal) : List Char :=
  let all := Nat.toDigits 10 decimal.digits
  let digits := significantDigits decimal.digits
  let leading : Int := decimal.exponent + all.length - 1
  if -4 ≤ leading ∧ leading < 16 then
    if leading < 0 then
      ['0', '.'] ++ List.replicate (-leading - 1).toNat '0' ++ digits
    else
      let whole := leading.toNat + 1
      let after := digits.drop whole
      digits.take whole ++ List.replicate (whole - digits.length) '0' ++ ['.'] ++
        (if after.isEmpty then ['0'] else after)
  else
    let fraction := digits.drop 1
    let places := Nat.toDigits 10 leading.natAbs
    digits.take 1 ++ (if fraction.isEmpty then [] else '.' :: fraction) ++
      ['e', if leading < 0 then '-' else '+'] ++ List.replicate (2 - places.length) '0' ++ places

def text : Binary64 → String
  | .nan => "nan"
  | .infinite negative => if negative then "-inf" else "inf"
  | .finite negative significand exponent _ =>
      let size :=
        if significand = 0 then ['0', '.', '0'] else (shortestDecimal significand exponent).text
      String.ofList (if negative then '-' :: size else size)

end OpenApiClient.Binary64
