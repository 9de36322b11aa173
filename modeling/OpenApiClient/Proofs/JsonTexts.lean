import OpenApiClient.Json.Reader
import OpenApiClient.Proofs.Records
import OpenApiClient.Proofs.WrittenValues

/-! What is read from JSON text: data whose objects have no key twice, and whose integers are within the limit, since
an integer beyond it is not read. -/

namespace OpenApiClient.Json

open Value

/-- Data that a text can hold. -/
structure IsTextual (value : Value) : Prop where
  json : value.IsJson
  short : value.hasLongInteger = false

theorem isTextual_array {items : List Value} (all : ∀ item ∈ items, IsTextual item) : IsTextual (.array items) where
  json := .array fun item among => (all item among).json
  short := by
    rw [hasLongInteger, itemsHaveLongInteger_eq, List.any_eq_false]
    exact fun item among => by simp [(all item among).short]

theorem isTextual_objectOf {members : List (String × Value)} (all : ∀ member ∈ members, IsTextual member.2) :
    IsTextual (objectOf members) := by
  have kept := Entries.forall_mem_ofPairs (· == ·) (fun _ => True) IsTextual
    fun member among => ⟨trivial, all member among⟩
  constructor
  · exact .object (Entries.keys_ofPairs_nodup members) fun member among => (kept member among).2.json
  · rw [objectOf, ofMembers, hasLongInteger, membersHaveLongInteger_eq, List.any_map, List.any_eq_false]
    intro member among
    simp [hasLongInteger, (kept member among).2.short]

theorem isTextual_word {text : List Char} {value : Value} {length : Nat} (found : word? text = some (value, length)) :
    IsTextual value := by
  obtain ⟨⟨word, meaning⟩, searched, same⟩ := Option.map_eq_some_iff.mp found
  obtain ⟨rfl, -⟩ := Prod.mk.inj same
  have among := List.mem_of_find?_eq_some searched
  simp only [words, List.mem_cons, List.not_mem_nil, or_false, Prod.mk.injEq] at among
  rcases among with ⟨-, rfl⟩ | ⟨-, rfl⟩ | ⟨-, rfl⟩ | ⟨-, rfl⟩ | ⟨-, rfl⟩ | ⟨-, rfl⟩
  · exact ⟨.null, rfl⟩
  · exact ⟨.bool true, rfl⟩
  · exact ⟨.bool false, rfl⟩
  · exact ⟨.float _, rfl⟩
  · exact ⟨.float _, rfl⟩
  · exact ⟨.float _, rfl⟩

/-! Digits that are read make a number of no more digits. -/

theorem isAsciiDigit_value {c : Char} (digit : Text.isAsciiDigit c = true) : c.toNat - 48 < 10 := by
  simp only [Text.isAsciiDigit, Bool.and_eq_true, decide_eq_true_eq] at digit
  have bound : c.toNat ≤ 57 := digit.2
  omega

theorem digitsValue_lt {digits : List Char} {limit : Nat} (all : ∀ c ∈ digits, Text.isAsciiDigit c = true)
    (within : digits.length ≤ limit) : digitsValue digits < Nat.pow 10 limit := by
  have folded : ∀ total, digits.foldl (fun total c => total * 10 + (c.toNat - 48)) total <
      (total + 1) * Nat.pow 10 digits.length := by
    clear within
    induction digits with
    | nil => simp
    | cons c rest ih =>
        obtain ⟨own, others⟩ := List.forall_mem_cons.mp all
        intro total
        have bound := isAsciiDigit_value own
        have later := ih others (total * 10 + (c.toNat - 48))
        have power : Nat.pow 10 (c :: rest).length = 10 * Nat.pow 10 rest.length := Nat.pow_succ'
        rw [power, ← Nat.mul_assoc]
        exact Nat.lt_of_lt_of_le later (Nat.mul_le_mul_right _ (by omega))
  have own : digitsValue digits < Nat.pow 10 digits.length := by simpa [digitsValue] using folded 0
  exact Nat.lt_of_lt_of_le own (Nat.pow_le_pow_right (by decide) within)

theorem numeral_whole {text : List Char} {numeral : Numeral} {length : Nat}
    (found : numeral? text = some (numeral, length)) : ∀ c ∈ numeral.whole, Text.isAsciiDigit c = true := by
  have zero : ∀ c ∈ ['0'], Text.isAsciiDigit c = true := List.all_eq_true.mp (by decide)
  have taken : ∀ rest : List Char, ∀ c ∈ rest.takeWhile Text.isAsciiDigit, Text.isAsciiDigit c = true :=
    fun rest c among => List.all_eq_true.mp List.all_takeWhile c among
  unfold numeral? at found
  split at found
  dsimp only at found
  split at found
  · split at found
    · cases found
    split at found
    · cases found
      exact zero
    · cases found
      exact zero
  · split at found
    · cases found
    split at found
    · cases found
      exact taken _
    · cases found
      exact taken _

theorem isTextual_numeral {text : List Char} {numeral : Numeral} {length : Nat} {value : Value}
    (found : numeral? text = some (numeral, length)) (valued : numeral.value = .ok value) : IsTextual value := by
  unfold Numeral.value at valued
  split at valued
  · split at valued
    · cases valued
    · rename_i within
      obtain rfl := Except.ok.inj valued
      refine ⟨.int _, Bool.eq_false_iff.mpr (mt isLongInteger_iff.mp (Nat.not_le.mpr ?_))⟩
      have size : (if numeral.negative then -(digitsValue numeral.whole : Int) else digitsValue numeral.whole).natAbs =
          digitsValue numeral.whole := by
        split <;> simp
      rw [size]
      exact digitsValue_lt (numeral_whole found) (Nat.not_lt.mp within)
  · obtain rfl := Except.ok.inj valued
    exact ⟨.float _, rfl⟩

/-! Reading, by induction on the fuel. -/

theorem read_textual (fuel : Nat) :
    (∀ cursor value next, readValue fuel cursor = .ok (value, next) → IsTextual value) ∧
    (∀ cursor items next, readItems fuel cursor = .ok (items, next) → ∀ item ∈ items, IsTextual item) ∧
    ∀ cursor members next, readMembers fuel cursor = .ok (members, next) → ∀ member ∈ members, IsTextual member.2 := by
  induction fuel with
  | zero =>
      refine ⟨?_, ?_, ?_⟩
      · intro _ _ _ read
        cases read
      · intro _ _ _ read
        cases read
      · intro _ _ _ read
        cases read
  | succ fuel ih =>
      obtain ⟨ofValue, ofItems, ofMembers⟩ := ih
      refine ⟨?_, ?_, ?_⟩
      · intro cursor value next read
        unfold readValue at read
        split at read
        · obtain ⟨_, -, read⟩ := except_bind_ok.mp read
          cases read
          exact ⟨.string _, rfl⟩
        · dsimp only at read
          split at read
          · cases read
            exact isTextual_objectOf (List.forall_mem_nil _)
          · obtain ⟨⟨members, _⟩, found, read⟩ := except_bind_ok.mp read
            cases read
            exact isTextual_objectOf (ofMembers _ _ _ found)
        · dsimp only at read
          split at read
          · cases read
            exact isTextual_array (by simp)
          · obtain ⟨⟨items, _⟩, found, read⟩ := except_bind_ok.mp read
            cases read
            exact isTextual_array (ofItems _ _ _ found)
        · split at read
          · rename_i known
            cases read
            exact isTextual_word known
          · split at read
            · rename_i known
              obtain ⟨_, valued, read⟩ := except_bind_ok.mp read
              cases read
              exact isTextual_numeral known valued
            · cases read
      · intro cursor items next read
        unfold readItems at read
        obtain ⟨⟨item, _⟩, first, read⟩ := except_bind_ok.mp read
        have own := ofValue _ _ _ first
        dsimp only at read
        split at read
        · cases read
          exact List.forall_mem_singleton.mpr own
        · obtain ⟨⟨others, _⟩, later, read⟩ := except_bind_ok.mp read
          cases read
          exact List.forall_mem_cons.mpr ⟨own, ofItems _ _ _ later⟩
        · cases read
      · intro cursor members next read
        unfold readMembers at read
        split at read
        · obtain ⟨⟨name, _⟩, -, read⟩ := except_bind_ok.mp read
          dsimp only at read
          split at read
          · obtain ⟨⟨value, _⟩, first, read⟩ := except_bind_ok.mp read
            have own := ofValue _ _ _ first
            dsimp only at read
            split at read
            · cases read
              exact List.forall_mem_singleton.mpr own
            · obtain ⟨⟨others, _⟩, later, read⟩ := except_bind_ok.mp read
              cases read
              exact List.forall_mem_cons.mpr ⟨own, ofMembers _ _ _ later⟩
            · cases read
          · cases read
        · cases read

theorem read_isTextual {text : List Char} {value : Value} (found : read text = .ok value) : IsTextual value := by
  unfold read at found
  split at found
  · cases found
  · obtain ⟨⟨own, _⟩, began, found⟩ := except_bind_ok.mp found
    dsimp only at found
    split at found
    · cases found
      exact (read_textual _).1 _ _ _ began
    · cases found

end OpenApiClient.Json
