import OpenApiClient.Naming.Identifier
import OpenApiClient.Naming.OperationName
import OpenApiClient.Proofs.UniqueNames

/-! The characters of generated names. -/

namespace OpenApiClient

namespace Text

theorem of_ascii (check : Char → Bool)
    (checked : (List.range 128).all (fun point => check (Char.ofNat point)) = true) {c : Char}
    (ascii : isAscii c = true) : check c = true := by
  have found := List.all_eq_true.mp checked c.toNat (List.mem_range.mpr (by simpa [isAscii] using ascii))
  rwa [Char.ofNat_toNat] at found

theorem isAscii_of_le {c : Char} (bound : c ≤ 'z') : isAscii c = true := by
  have := UInt32.le_iff_toNat_le.mp bound
  change c.toNat ≤ 122 at this
  simp only [isAscii, decide_eq_true_eq]
  omega

end Text

namespace Naming

open Text

theorem isIdentifierCharacter_ascii {c : Char} (found : isIdentifierCharacter c = true) :
    isAscii c = true := by
  simp only [isIdentifierCharacter, isAsciiLetter, isAsciiLower, isAsciiUpper, isAsciiDigit, Bool.or_eq_true,
    Bool.and_eq_true, decide_eq_true_eq, beq_iff_eq] at found
  rcases found with ((⟨-, bound⟩ | ⟨-, bound⟩) | ⟨-, bound⟩) | rfl
  · exact isAscii_of_le bound
  · exact isAscii_of_le (Char.le_trans bound (by decide))
  · exact isAscii_of_le (Char.le_trans bound (by decide))
  · decide

theorem upperCharacter_identifier {c : Char} (found : isIdentifierCharacter c = true) :
    ∀ d ∈ upperCharacter c, isIdentifierCharacter d = true := by
  have checked := of_ascii (fun c => !isIdentifierCharacter c || (upperCharacter c).all isIdentifierCharacter)
    (by decide) (isIdentifierCharacter_ascii found)
  simpa [found] using checked

theorem lower_identifier {c : Char} (found : isIdentifierCharacter c = true) :
    ∀ d ∈ lower [c], isIdentifierCharacter d = true := by
  have checked := of_ascii (fun c => !isIdentifierCharacter c || (lower [c]).all isIdentifierCharacter)
    (by decide) (isIdentifierCharacter_ascii found)
  simpa [found] using checked

theorem upperCamelFrom_identifier {name : List Char} (newWord : Bool)
    (identifier : ∀ c ∈ name, isIdentifierCharacter c = true) :
    ∀ d ∈ upperCamelFrom newWord name, isIdentifierCharacter d = true := by
  induction name generalizing newWord with
  | nil => simp [upperCamelFrom]
  | cons c rest ih =>
      obtain ⟨first, others⟩ := List.forall_mem_cons.mp identifier
      unfold upperCamelFrom
      split
      · exact ih true others
      · split
        · exact List.forall_mem_cons.mpr ⟨first, ih true others⟩
        · split
          · exact List.forall_mem_append.mpr ⟨upperCharacter_identifier first, ih false others⟩
          · exact List.forall_mem_append.mpr ⟨lower_identifier first, ih false others⟩

theorem plain_identifier (name : List Char) :
    ∀ c ∈ name.map (fun c => if isIdentifierCharacter c then c else '_'), isIdentifierCharacter c = true := by
  intro c member
  obtain ⟨d, -, rfl⟩ := List.mem_map.mp member
  split
  · assumption
  · decide

theorem identifierCamel_identifier (name : List Char) :
    ∀ c ∈ identifierCamel name, isIdentifierCharacter c = true := by
  have camel := upperCamelFrom_identifier true (plain_identifier name)
  unfold identifierCamel
  split
  · exact List.all_eq_true.mp (by decide)
  · rename_i c rest same
    rw [← upperCamel, same] at camel
    split
    · exact List.forall_mem_cons.mpr ⟨by decide, camel⟩
    · exact camel

theorem toIdentifierCamel_ne_empty (name : String) : toIdentifierCamel name ≠ "" := by
  intro empty
  have none : identifierCamel name.toList = [] := by simpa [toIdentifierCamel] using empty
  unfold identifierCamel at none
  split at none
  · contradiction
  · split at none <;> contradiction

theorem toIdentifierCamel_dotless (name : String) : '.' ∉ (toIdentifierCamel name).toList := by
  rw [toIdentifierCamel, String.toList_ofList]
  intro member
  have identifier := identifierCamel_identifier name.toList '.' member
  contradiction

theorem operationName_ne_empty (method path : String) : operationName method path ≠ "" := by
  unfold operationName
  dsimp only
  split <;> simp

theorem toString_digits (number : Nat) : ∀ c ∈ (toString number).toList, isAsciiDigit c = true := by
  intro c member
  rw [Nat.toString_eq_repr, Nat.toList_repr] at member
  have digit := Nat.isDigit_of_mem_toDigits (by decide) (by decide) member
  simpa [Char.isDigit, isAsciiDigit, Char.le_def] using digit

theorem toString_ne_empty (number : Nat) : toString number ≠ "" := by
  rw [Nat.toString_eq_repr]
  exact fun empty => absurd (congrArg String.toList empty) (by simp [Nat.toList_repr])

theorem unique_ne_empty {names : List String} (filled : ∀ name ∈ names, name ≠ "") :
    ∀ name ∈ unique names, name ≠ "" :=
  unique_forall (fun name number _ => by simp [numbered]) filled

end Naming
end OpenApiClient
