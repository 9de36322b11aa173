import Mathlib.Tactic
import OpenApiClient.Proofs.Outcome

/-! Sameness of keys. Two numbers are the same key when they have one size, whatever their kind; so every key has a
form in which whole numbers are integers, and keys are the same exactly if their forms are equal. -/

namespace OpenApiClient

namespace Binary64

variable {significand otherSignificand : Nat} {exponent otherExponent number : Int} {negative otherNegative : Bool}

/-- With the greater exponent a double is greater, since its significand is full; so one size is written in one way. -/
theorem isDouble_unique_of_le (here : IsDouble significand exponent) (there : IsDouble otherSignificand otherExponent)
    (le : exponent ≤ otherExponent)
    (size : significand * 2 ^ (exponent - leastExponent).toNat =
      otherSignificand * 2 ^ (otherExponent - leastExponent).toNat) :
    significand = otherSignificand ∧ exponent = otherExponent := by
  obtain ⟨short, least, -, -⟩ := here
  obtain ⟨-, -, -, long⟩ := there
  obtain ⟨more, apart⟩ : ∃ more : Nat, otherExponent = exponent + more := ⟨(otherExponent - exponent).toNat, by omega⟩
  have shifted : (otherExponent - leastExponent).toNat = (exponent - leastExponent).toNat + more := by omega
  have same : significand = otherSignificand * 2 ^ more := by
    rw [shifted, Nat.pow_add, Nat.mul_comm (2 ^ _), ← Nat.mul_assoc] at size
    exact Nat.eq_of_mul_eq_mul_right (Nat.pow_pos (by omega)) size
  cases more with
  | zero => exact ⟨by simpa using same, by omega⟩
  | succ more =>
      have high : hiddenBit ≤ otherSignificand := long.resolve_right (by omega)
      have twice : 2 * hiddenBit ≤ significand := by
        calc 2 * hiddenBit ≤ 2 * otherSignificand := Nat.mul_le_mul_left 2 high
          _ ≤ otherSignificand * 2 ^ (more + 1) := by
              rw [Nat.mul_comm 2, Nat.pow_succ']
              exact Nat.mul_le_mul_left _ (Nat.le_mul_of_pos_right 2 (Nat.pow_pos (by omega)))
          _ = significand := same.symm
      omega

theorem isDouble_unique (here : IsDouble significand exponent) (there : IsDouble otherSignificand otherExponent)
    (size : significand * 2 ^ (exponent - leastExponent).toNat =
      otherSignificand * 2 ^ (otherExponent - leastExponent).toNat) :
    significand = otherSignificand ∧ exponent = otherExponent := by
  rcases Int.le_total exponent otherExponent with le | le
  · exact isDouble_unique_of_le here there le size
  · obtain ⟨rfl, rfl⟩ := isDouble_unique_of_le there here le size.symm
    exact ⟨rfl, rfl⟩

theorem ratio_scaled (significand : Nat) (bound : leastExponent ≤ exponent) :
    (ratio significand exponent).1 * 2 ^ 1074 =
      significand * 2 ^ (exponent - leastExponent).toNat * (ratio significand exponent).2 := by
  change -1074 ≤ exponent at bound
  change _ = significand * 2 ^ (exponent - -1074).toNat * _
  unfold ratio
  split
  · have shifted : (exponent - -1074).toNat = exponent.toNat + 1074 := by omega
    rw [shifted, Nat.pow_add, Nat.mul_one, Nat.mul_assoc]
    rfl
  · have shifted : 1074 = (exponent - -1074).toNat + (-exponent).toNat := by omega
    conv_lhs => rw [shifted, Nat.pow_add, ← Nat.mul_assoc]
    rfl

theorem ratio_pos (significand : Nat) (exponent : Int) : 0 < (ratio significand exponent).2 := by
  unfold ratio
  split
  · exact Nat.one_pos
  · exact Nat.pow_pos (by omega)

theorem toInt?_finite {isDouble : IsDouble significand exponent}
    (whole : (finite negative significand exponent isDouble).toInt? = some number) :
    ∃ size : Nat, number = (if negative then -size else size : Int) ∧
      size * 2 ^ 1074 = significand * 2 ^ (exponent - leastExponent).toNat := by
  have scaled := ratio_scaled significand isDouble.2.1
  unfold toInt? at whole
  dsimp only at whole
  split at whole
  · rename_i divides
    refine ⟨(ratio significand exponent).1 / (ratio significand exponent).2, ?_, ?_⟩
    · exact_mod_cast (Option.some.inj whole).symm
    · refine Nat.eq_of_mul_eq_mul_right (ratio_pos significand exponent) ?_
      rw [← scaled, Nat.mul_right_comm, Nat.div_mul_cancel (Nat.dvd_of_mod_eq_zero divides)]
  · cases whole

variable {left right : Binary64}

/-- Two doubles of one whole number are the same but for the sign of a zero. -/
theorem eq_of_toInt? (first : left.toInt? = some number) (second : right.toInt? = some number) :
    left = right ∨ left.isZero = true ∧ right.isZero = true := by
  cases left with
  | infinite | nan => cases first
  | finite negative significand exponent here =>
    cases right with
    | infinite | nan => cases second
    | finite otherNegative otherSignificand otherExponent there =>
      obtain ⟨size, rfl, scaled⟩ := toInt?_finite first
      obtain ⟨otherSize, same, otherScaled⟩ := toInt?_finite second
      have sizes : size = otherSize := by
        split at same <;> split at same <;> omega
      subst sizes
      obtain ⟨rfl, rfl⟩ := isDouble_unique here there (scaled.symm.trans otherScaled)
      by_cases none : size = 0
      · right
        rw [none, Nat.zero_mul, eq_comm, Nat.mul_eq_zero] at scaled
        have empty : significand = 0 := scaled.resolve_right (Nat.pow_pos (by omega)).ne'
        simp [isZero, empty]
      · left
        have signs : negative = otherNegative := by
          cases negative <;> cases otherNegative <;> simp at same ⊢ <;> omega
        rw [signs]

theorem toInt?_of_isZero (zero : left.isZero = true) : left.toInt? = some 0 := by
  cases left with
  | infinite | nan => cases zero
  | finite negative significand exponent =>
    obtain rfl : significand = 0 := by simpa [isZero] using zero
    have numerator : (ratio 0 exponent).1 = 0 := by
      unfold ratio
      split <;> simp
    simp [toInt?, numerator]

theorem equal_iff : left.equal right = true ↔
    left.isZero = true ∧ right.isZero = true ∨ left = right ∧ left.isNan = false := by
  cases left <;> cases right <;> simp [equal, isZero, isNan]

theorem same_iff_of_whole (whole : left.toInt? = some number) :
    (left == right || left.equal right) = true ↔ right.toInt? = some number := by
  rw [Bool.or_eq_true, beq_iff_eq, equal_iff]
  constructor
  · rintro (rfl | ⟨zero, also⟩ | ⟨rfl, -⟩)
    · exact whole
    · rw [toInt?_of_isZero zero] at whole
      rw [toInt?_of_isZero also, whole]
    · exact whole
  · intro also
    rcases eq_of_toInt? whole also with same | zeros
    · exact .inl same
    · exact .inr (.inl zeros)

theorem same_iff_of_not_whole (broken : left.toInt? = none) :
    (left == right || left.equal right) = true ↔ left = right := by
  have filled : left.isZero = false := by
    by_contra zero
    rw [toInt?_of_isZero (Bool.not_eq_false _ ▸ zero)] at broken
    cases broken
  rw [Bool.or_eq_true, beq_iff_eq, equal_iff, filled]
  simp +contextual

end Binary64
namespace Value

mutual

def keyForm : Value → Value
  | .bool truth => .int (if truth then 1 else 0)
  | .float number =>
      match number.toInt? with
      | some whole => .int whole
      | none => .float number
  | .tuple items => .tuple (keyForms items)
  | other => other

def keyForms : List Value → List Value
  | [] => []
  | item :: items => item.keyForm :: keyForms items

end

variable {left right : Value} {number : Int}

theorem keyForm_eq_int_iff : left.keyForm = .int number ↔ left.integral? = some number := by
  cases left with
  | float own => cases whole : own.toInt? <;> simp [keyForm, integral?, whole]
  | _ => simp [keyForm, integral?]

theorem same_iff_of_integral (whole : left.integral? = some number) :
    left.same right = true ↔ right.integral? = some number := by
  cases left with
  | bool truth => rw [same, beq_iff_eq, whole, eq_comm]
  | int own => rw [same, beq_iff_eq, show some own = some number from whole, eq_comm]
  | float own =>
      change own.toInt? = some number at whole
      cases right with
      | float other =>
          rw [same]
          exact Binary64.same_iff_of_whole whole
      | _ =>
          simp only [same, whole, Option.isSome_some, Bool.true_and, beq_iff_eq]
          exact eq_comm
  | _ => cases whole

theorem same_iff_of_broken {own : Binary64} (broken : own.toInt? = none) :
    (Value.float own).same right = true ↔ (Value.float own).keyForm = right.keyForm := by
  have form : (Value.float own).keyForm = .float own := by simp [keyForm, broken]
  rw [form]
  cases right with
  | float other =>
      rw [same, Binary64.same_iff_of_not_whole broken]
      cases also : other.toInt? with
      | none => simp [keyForm, also]
      | some whole =>
          simp only [keyForm, also, reduceCtorEq, iff_false]
          rintro rfl
          cases broken.symm.trans also
  | _ => simp [same, keyForm, broken]

mutual

theorem same_iff_keyForm : ∀ left right : Value, left.isKey = true → right.isKey = true →
    (left.same right = true ↔ left.keyForm = right.keyForm)
  | left, right, leftKey, rightKey => by
      cases whole : left.integral? with
      | some number =>
          rw [same_iff_of_integral whole, keyForm_eq_int_iff.mpr whole, eq_comm (a := Value.int number),
            keyForm_eq_int_iff]
      | none =>
          cases left with
          | float own => exact same_iff_of_broken whole
          | tuple items =>
              cases right with
              | tuple others => simpa [same, keyForm] using sameItems_iff_keyForms items others leftKey rightKey
              | float other => cases also : other.toInt? <;> simp [same, keyForm, also]
              | _ => simp [same, keyForm]
          | bool | int => cases whole
          | array | object | record => cases leftKey
          | null | string | bytes | date =>
              cases right with
              | float other => cases also : other.toInt? <;> simp [same, keyForm, also]
              | _ => simp [same, keyForm, and_assoc]

theorem sameItems_iff_keyForms : ∀ items others : List Value, areKeys items = true → areKeys others = true →
    (sameItems items others = true ↔ keyForms items = keyForms others)
  | [], [], _, _ => by simp [sameItems]
  | [], _ :: _, _, _ => by simp [sameItems, keyForms]
  | _ :: _, [], _, _ => by simp [sameItems, keyForms]
  | item :: items, other :: others, leftKeys, rightKeys => by
      rw [areKeys, Bool.and_eq_true] at leftKeys rightKeys
      rw [sameItems, keyForms, keyForms, Bool.and_eq_true, same_iff_keyForm item other leftKeys.1 rightKeys.1,
        sameItems_iff_keyForms items others leftKeys.2 rightKeys.2, List.cons.injEq]

end

end Value
end OpenApiClient
