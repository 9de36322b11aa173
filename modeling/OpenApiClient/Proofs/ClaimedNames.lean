import OpenApiClient.Proofs.FreshNames
import OpenApiClient.Proofs.Operations

/-! The names that are claimed in the scope of a service. Underscores after a name are all that is ever added
to it, so its last letter tells the classes of bodies and responses from those of handlers and parameters. -/

namespace OpenApiClient

open InScope

def lastLetter (name : String) : Option Char := (name.toList.reverse.dropWhile (· == '_')).head?

theorem lastLetter_underscore (name : String) : lastLetter (name ++ "_") = lastLetter name := by
  simp [lastLetter]

theorem lastLetter_append {start rest : String} {c : Char} (last : lastLetter rest = some c) :
    lastLetter (start ++ rest) = some c := by
  have filled : (rest.toList.reverse.dropWhile (· == '_')).isEmpty = false := by
    cases found : rest.toList.reverse.dropWhile (· == '_') with
    | nil => simp [lastLetter, found] at last
    | cons d others => rfl
  simp only [lastLetter, String.toList_append, List.reverse_append, List.dropWhile_append, filled,
    Bool.false_eq_true, ↓reduceIte, List.head?_append] at last ⊢
  rw [last, Option.some_or]

theorem ownName_lastLetter (scope : NamingScope) (name : String) :
    lastLetter (scope.ownName name) = lastLetter name := by
  unfold NamingScope.ownName
  split
  · exact lastLetter_underscore name
  · rfl

theorem claimName_yields {name free : String} {scope after : NamingScope}
    (yields : Yields (claimName name) scope free after) :
    after = scope.add free ∧ lastLetter free = lastLetter name := by
  obtain ⟨rfl, rfl⟩ := claimName_free yields
  have kept : ∀ own, lastLetter own = lastLetter name → lastLetter (own ++ "_") = lastLetter name :=
    fun own same => (lastLetter_underscore own).trans same
  exact ⟨rfl, freeName_forall kept scope rfl _⟩

def Unclaimed (name : String) : Prop := lastLetter name ≠ some 'r' ∧ lastLetter name ≠ some 's'

theorem Unclaimed.of_ending {start ending : String} {c : Char} (last : lastLetter ending = some c)
    (different : c ≠ 'r' ∧ c ≠ 's') (scope : NamingScope) : Unclaimed (scope.ownName (start ++ ending)) := by
  simpa [Unclaimed, ownName_lastLetter, lastLetter_append last] using different

theorem Unclaimed.body (scope : NamingScope) (start : String) : Unclaimed (scope.ownName (start ++ "Body")) :=
  .of_ending (show lastLetter "Body" = some 'y' from by decide) (by decide) scope

theorem isPatternCharacter_apart {c : Char} (found : Client.isPatternCharacter c = true) :
    c ≠ '_' ∧ c ≠ 'r' ∧ c ≠ 's' := by
  refine ⟨?_, ?_, ?_⟩ <;> rintro rfl <;> exact absurd found (by decide)

/-- A status pattern in small letters: the default, or three digits or wildcards with perhaps a line feed. -/
theorem statusPattern_cases {pattern : String} (valid : Client.isStatusPattern pattern = true) :
    Text.lowerText pattern = Client.defaultPattern ∨
      ∃ a b c ending, (Text.lowerText pattern).toList = a :: b :: c :: ending ∧
        (ending = [] ∨ ending = ['\n']) ∧ ∀ d ∈ [a, b, c], Client.isPatternCharacter d = true := by
  have letters : (Text.lowerText pattern).toList = Text.lower pattern.toList := String.toList_ofList
  rcases Bool.or_eq_true_iff.mp valid with default | digits
  · rw [beq_iff_eq] at default
    rw [default]
    exact .inl (by decide +kernel)
  · unfold Client.patternDigits? at digits
    rw [letters]
    split at digits
    case h_1 a b c same => exact .inr ⟨a, b, c, [], same, .inl rfl, by simpa using digits⟩
    case h_2 a b c same => exact .inr ⟨a, b, c, ['\n'], same, .inr rfl, by simpa using digits⟩
    case h_3 => contradiction

theorem responseEnding_lastLetter {pattern : String} (valid : Client.isStatusPattern pattern = true) :
    ∃ c, lastLetter (OperationContext.responseEnding (Text.lowerText pattern)) = some c ∧
      c ≠ 'r' ∧ c ≠ 's' := by
  unfold OperationContext.responseEnding
  split
  · exact ⟨'t', by decide, by decide⟩
  · rename_i ranged
    obtain ⟨a, b, c, ending, letters, short, digits⟩ := (statusPattern_cases valid).resolve_left ranged
    obtain ⟨filled, different⟩ := isPatternCharacter_apart (digits c (by simp))
    unfold lastLetter
    rw [letters]
    rcases short with rfl | rfl
    · exact ⟨c, by simp [filled], different⟩
    · exact ⟨'\n', by simp, by decide⟩

theorem Unclaimed.response {pattern : String} (valid : Client.isStatusPattern pattern = true)
    (scope : NamingScope) (start : String) :
    Unclaimed (scope.ownName (start ++ "Response" ++
      OperationContext.responseEnding (Text.lowerText pattern))) := by
  obtain ⟨c, last, different⟩ := responseEnding_lastLetter valid
  exact .of_ending last different scope

end OpenApiClient
