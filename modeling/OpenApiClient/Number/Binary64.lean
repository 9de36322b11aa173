/-! Binary floating-point numbers of 64 bits, kept as a sign, a whole significand and a power of two, so
that every conversion is exact arithmetic on naturals followed by one rounding. The rounding is to the
nearest number, and a tie goes to the even significand. -/

namespace OpenApiClient

namespace Binary64

def leastExponent : Int := -1074

/-- The greatest exponent of a finite number. -/
def greatestExponent : Int := 971

def hiddenBit : Nat := Nat.pow 2 52

/-- A significand has 53 binary digits, or fewer at the least exponent, so that a number is written in one way. -/
def IsDouble (significand : Nat) (exponent : Int) : Prop :=
  significand < 2 * hiddenBit ∧ leastExponent ≤ exponent ∧ exponent ≤ greatestExponent ∧
    (hiddenBit ≤ significand ∨ exponent = leastExponent)

instance (significand : Nat) (exponent : Int) : Decidable (IsDouble significand exponent) :=
  inferInstanceAs (Decidable (_ ∧ _))

end Binary64

/-- A finite number is its significand times two to the exponent, negated when `negative` holds. -/
inductive Binary64 where
  | finite (negative : Bool) (significand : Nat) (exponent : Int)
      (isDouble : Binary64.IsDouble significand exponent := by decide)
  | infinite (negative : Bool)
  | nan
  deriving DecidableEq, Repr, Inhabited

namespace Binary64

def zero (negative : Bool) : Binary64 := .finite negative 0 leastExponent

def inUnits (numerator denominator : Nat) (exponent : Int) : Nat × Nat :=
  if 0 ≤ exponent then (numerator, denominator * Nat.pow 2 exponent.toNat)
  else (numerator * Nat.pow 2 (-exponent).toNat, denominator)

/-- The exponent at which a positive ratio has a significand of 53 binary digits, or the least one. -/
def exponentOf (numerator denominator : Nat) : Int :=
  let guess : Int := (numerator.log2 : Int) - denominator.log2 - 53
  let (units, unit) := inUnits numerator denominator guess
  max (if units / unit < 2 * hiddenBit then guess else guess + 1) leastExponent

def roundHalfEven (numerator denominator : Nat) : Nat :=
  let quotient := numerator / denominator
  let twice := 2 * (numerator % denominator)
  if twice < denominator then quotient
  else if denominator < twice then quotient + 1
  else quotient + quotient % 2

/-- The significand and the exponent of the nearest number, if that is finite. -/
def nearest (numerator denominator : Nat) : Nat × Int :=
  let exponent := exponentOf numerator denominator
  let (units, unit) := inUnits numerator denominator exponent
  let rounded := roundHalfEven units unit
  if rounded = 2 * hiddenBit then (hiddenBit, exponent + 1) else (rounded, exponent)

theorem hiddenBit_eq : hiddenBit = 4503599627370496 := rfl

theorem inUnits_eq (numerator denominator : Nat) (exponent : Int) :
    inUnits numerator denominator exponent =
      (numerator * Nat.pow 2 (-exponent).toNat, denominator * Nat.pow 2 exponent.toNat) := by
  unfold inUnits
  split
  · have none : (-exponent).toNat = 0 := by omega
    rw [none, show Nat.pow 2 0 = 1 from rfl, Nat.mul_one]
  · have none : exponent.toNat = 0 := by omega
    rw [none, show Nat.pow 2 0 = 1 from rfl, Nat.mul_one]

theorem roundHalfEven_bounds (numerator denominator : Nat) :
    numerator / denominator ≤ roundHalfEven numerator denominator ∧
      roundHalfEven numerator denominator ≤ numerator / denominator + 1 := by
  unfold roundHalfEven
  dsimp only
  split
  · omega
  · split <;> omega

/-- With the exponent that is guessed the quotient has 53 binary digits or one more. -/
theorem guess_bounds {numerator denominator : Nat} (filled : numerator ≠ 0) (whole : denominator ≠ 0) {guess : Int}
    (guessed : guess = (numerator.log2 : Int) - denominator.log2 - 53) {units unit : Nat}
    (inGuess : inUnits numerator denominator guess = (units, unit)) :
    hiddenBit * unit ≤ units ∧ units < 2 * (2 * hiddenBit) * unit := by
  rw [inUnits_eq, Prod.mk.injEq] at inGuess
  obtain ⟨rfl, rfl⟩ := inGuess
  have low := Nat.log2_self_le filled
  have high := Nat.lt_log2_self (n := numerator)
  have lowUnit := Nat.log2_self_le whole
  have highUnit := Nat.lt_log2_self (n := denominator)
  constructor
  · calc 2 ^ 52 * (denominator * 2 ^ guess.toNat)
        ≤ 2 ^ 52 * (2 ^ (denominator.log2 + 1) * 2 ^ guess.toNat) :=
          Nat.mul_le_mul_left _ (Nat.mul_le_mul_right _ (Nat.le_of_lt highUnit))
      _ = 2 ^ numerator.log2 * 2 ^ (-guess).toNat := by
          rw [← Nat.pow_add, ← Nat.pow_add, ← Nat.pow_add]
          congr 1
          omega
      _ ≤ numerator * 2 ^ (-guess).toNat := Nat.mul_le_mul_right _ low
  · calc numerator * 2 ^ (-guess).toNat
        < 2 ^ (numerator.log2 + 1) * 2 ^ (-guess).toNat :=
          Nat.mul_lt_mul_of_pos_right high (Nat.pow_pos (by omega))
      _ = 2 ^ 54 * (2 ^ denominator.log2 * 2 ^ guess.toNat) := by
          rw [← Nat.pow_add, ← Nat.pow_add, ← Nat.pow_add]
          congr 1
          omega
      _ ≤ 2 ^ 54 * (denominator * 2 ^ guess.toNat) :=
          Nat.mul_le_mul_left _ (Nat.mul_le_mul_right _ lowUnit)

/-- The next exponent halves the quotient. -/
theorem inUnits_next (numerator denominator : Nat) (exponent : Int) {units unit : Nat}
    (here : inUnits numerator denominator exponent = (units, unit)) :
    inUnits numerator denominator (exponent + 1) = (units, 2 * unit) ∨
      ∃ half, units = 2 * half ∧ inUnits numerator denominator (exponent + 1) = (half, unit) := by
  rw [inUnits_eq, Prod.mk.injEq] at here
  obtain ⟨rfl, rfl⟩ := here
  have power (count : Nat) : Nat.pow 2 (count + 1) = Nat.pow 2 count * 2 := rfl
  rw [inUnits_eq]
  by_cases positive : 0 ≤ exponent
  · have next : (exponent + 1).toNat = exponent.toNat + 1 := by omega
    have same : (-(exponent + 1)).toNat = (-exponent).toNat := by omega
    rw [next, same, power, ← Nat.mul_assoc, Nat.mul_comm _ 2]
    exact .inl rfl
  · have next : (-exponent).toNat = (-(exponent + 1)).toNat + 1 := by omega
    have same : (exponent + 1).toNat = exponent.toNat := by omega
    rw [next, same, power, ← Nat.mul_assoc, Nat.mul_comm _ 2]
    exact .inr ⟨_, rfl, rfl⟩

/-- A quotient below a limit stays below it at every higher exponent. -/
theorem inUnits_lt (numerator denominator limit : Nat) {exponent higher : Int} (le : exponent ≤ higher)
    (below : (inUnits numerator denominator exponent).1 < limit * (inUnits numerator denominator exponent).2) :
    (inUnits numerator denominator higher).1 < limit * (inUnits numerator denominator higher).2 := by
  have power {less more : Nat} (le : less ≤ more) : 2 ^ less ≤ 2 ^ more := Nat.pow_le_pow_right (by omega) le
  rw [inUnits_eq] at below ⊢
  calc numerator * 2 ^ (-higher).toNat
      ≤ numerator * 2 ^ (-exponent).toNat := Nat.mul_le_mul_left _ (power (by omega))
    _ < limit * (denominator * 2 ^ exponent.toNat) := below
    _ ≤ limit * (denominator * 2 ^ higher.toNat) :=
        Nat.mul_le_mul_left _ (Nat.mul_le_mul_left _ (power (by omega)))

theorem unit_pos (numerator : Nat) {denominator : Nat} (whole : denominator ≠ 0) (exponent : Int) :
    0 < (inUnits numerator denominator exponent).2 := by
  rw [inUnits_eq]
  exact Nat.mul_pos (Nat.pos_of_ne_zero whole) (Nat.pow_pos (by omega))

/-- At its exponent a ratio has at most 53 binary digits, and no fewer unless the exponent is the least one. -/
theorem exponentOf_bounds {numerator denominator : Nat} (filled : numerator ≠ 0) (whole : denominator ≠ 0)
    {units unit : Nat} (placed : inUnits numerator denominator (exponentOf numerator denominator) = (units, unit)) :
    units < 2 * hiddenBit * unit ∧ leastExponent ≤ exponentOf numerator denominator ∧
      (hiddenBit * unit ≤ units ∨ exponentOf numerator denominator = leastExponent) := by
  generalize guessed : (numerator.log2 : Int) - denominator.log2 - 53 = guess
  cases inGuess : inUnits numerator denominator guess with
  | mk guessUnits guessUnit =>
    have bounds := guess_bounds filled whole guessed.symm inGuess
    have positive : 0 < guessUnit := by simpa [inGuess] using unit_pos numerator whole guess
    obtain ⟨chosen, same, low, high⟩ : ∃ chosen, exponentOf numerator denominator = max chosen leastExponent ∧
        hiddenBit * (inUnits numerator denominator chosen).2 ≤ (inUnits numerator denominator chosen).1 ∧
        (inUnits numerator denominator chosen).1 < 2 * hiddenBit * (inUnits numerator denominator chosen).2 := by
      refine ⟨if guessUnits / guessUnit < 2 * hiddenBit then guess else guess + 1, ?_, ?_⟩
      · simp only [exponentOf, guessed, inGuess]
      · split
        · rename_i short
          rw [inGuess]
          exact ⟨bounds.1, (Nat.div_lt_iff_lt_mul positive).mp short⟩
        · rename_i long
          have long : 2 * hiddenBit * guessUnit ≤ guessUnits :=
            (Nat.le_div_iff_mul_le positive).mp (Nat.not_lt.mp long)
          rw [hiddenBit_eq] at bounds long ⊢
          rcases inUnits_next numerator denominator guess inGuess with next | ⟨half, rfl, next⟩
          · rw [next]
            omega
          · rw [next]
            omega
    have below := inUnits_lt numerator denominator (2 * hiddenBit) (Int.le_max_left chosen leastExponent) high
    rw [← same, placed] at below
    refine ⟨below, same ▸ Int.le_max_right .., ?_⟩
    by_cases least : chosen ≤ leastExponent
    · exact .inr (same.trans (Int.max_eq_right least))
    · rw [Int.max_eq_left (by omega)] at same
      rw [← same, placed] at low
      exact .inl low

theorem nearest_isDouble {numerator denominator : Nat} (filled : numerator ≠ 0) (whole : denominator ≠ 0)
    (finite : (nearest numerator denominator).2 ≤ greatestExponent) :
    IsDouble (nearest numerator denominator).1 (nearest numerator denominator).2 := by
  cases placed : inUnits numerator denominator (exponentOf numerator denominator) with
  | mk units unit =>
    obtain ⟨below, least, low⟩ := exponentOf_bounds filled whole placed
    obtain ⟨roundedLow, roundedHigh⟩ := roundHalfEven_bounds units unit
    have positive : 0 < unit := by
      simpa [placed] using unit_pos numerator whole (exponentOf numerator denominator)
    have short : units / unit < 2 * hiddenBit := (Nat.div_lt_iff_lt_mul positive).mpr below
    have long : hiddenBit ≤ units / unit ∨ exponentOf numerator denominator = leastExponent :=
      low.imp_left (Nat.le_div_iff_mul_le positive).mpr
    simp only [nearest, placed] at finite ⊢
    rw [hiddenBit_eq] at short long finite ⊢
    by_cases carried : roundHalfEven units unit = 2 * 4503599627370496
    · rw [if_pos carried] at finite ⊢
      exact ⟨(by decide : hiddenBit < 2 * hiddenBit), by omega, finite, .inl (Nat.le_refl _)⟩
    · rw [if_neg carried] at finite ⊢
      refine ⟨?_, least, finite, long.imp_left fun long => ?_⟩
      · rw [hiddenBit_eq]
        omega
      · exact Nat.le_trans long roundedLow

/-- The number nearest to a ratio, which is zero when the denominator is. -/
def ofRatio (negative : Bool) (numerator denominator : Nat) : Binary64 :=
  if empty : numerator = 0 ∨ denominator = 0 then zero negative
  else if finite : (nearest numerator denominator).2 ≤ greatestExponent then
    .finite negative (nearest numerator denominator).1 (nearest numerator denominator).2
      (nearest_isDouble (by omega) (by omega) finite)
  else .infinite negative

def decimalLength (number : Nat) : Nat := (Nat.toDigits 10 number).length

def ofDecimal (negative : Bool) (digits : Nat) (exponent : Int) : Binary64 :=
  if digits = 0 then zero negative
  else
    let magnitude := exponent + decimalLength digits
    if 310 < magnitude then .infinite negative
    else if magnitude < -330 then zero negative
    else if 0 ≤ exponent then ofRatio negative (digits * Nat.pow 10 exponent.toNat) 1
    else ofRatio negative digits (Nat.pow 10 (-exponent).toNat)

def ofInt? (number : Int) : Option Binary64 :=
  match ofRatio (decide (number < 0)) number.natAbs 1 with
  | .infinite _ => none
  | rounded => some rounded

def ratio (significand : Nat) (exponent : Int) : Nat × Nat :=
  if 0 ≤ exponent then (significand * Nat.pow 2 exponent.toNat, 1)
  else (significand, Nat.pow 2 (-exponent).toNat)

def toInt? : Binary64 → Option Int
  | .finite negative significand exponent _ =>
      let (numerator, denominator) := ratio significand exponent
      if numerator % denominator = 0 then
        let size : Int := numerator / denominator
        some (if negative then -size else size)
      else none
  | _ => none

def isZero : Binary64 → Bool
  | .finite _ significand _ _ => significand == 0
  | _ => false

def isNan : Binary64 → Bool
  | .nan => true
  | _ => false

def equal (left right : Binary64) : Bool :=
  match left, right with
  | .nan, _ | _, .nan => false
  | _, _ => (left.isZero && right.isZero) || left == right

def negate : Binary64 → Binary64
  | .finite negative significand exponent isDouble => .finite (!negative) significand exponent isDouble
  | .infinite negative => .infinite (!negative)
  | .nan => .nan

def addSizes (left right : Binary64) : Binary64 :=
  match left, right with
  | .finite _ s e _, .finite _ t f _ =>
      let (n, d) := ratio s e
      let (m, c) := ratio t f
      ofRatio false (n * c + m * d) (d * c)
  | .nan, _ | _, .nan => .nan
  | _, _ => .infinite false

def scale (factor : Nat) (number : Binary64) : Binary64 :=
  match number with
  | .finite _ significand exponent _ =>
      let (n, d) := ratio significand exponent
      ofRatio false (n * factor) d
  | other => other

end Binary64
end OpenApiClient
