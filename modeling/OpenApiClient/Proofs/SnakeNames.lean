import OpenApiClient.Proofs.Identifiers
import OpenApiClient.Proofs.ModuleNames

/-! Names in snake case, as modules have them. They are identifiers and no keywords, and they do not end in an
underscore, so that none of them is the name that a package keeps for itself. -/

namespace OpenApiClient.Naming

open Text

structure IsSnakeName (name : String) : Prop where
  start : (name.toList.head?.map isAsciiDigit).getD true = false
  snake : ∀ c ∈ name.toList, isSnakeCharacter c = true
  closed : ¬EndsOpen name
  free : isKeyword name = false

theorem snake_identifier {c : Char} (snake : isSnakeCharacter c = true) : isIdentifierCharacter c = true := by
  simp only [isSnakeCharacter, isIdentifierCharacter, isAsciiLetter, Bool.or_eq_true] at snake ⊢
  tauto

theorem isKeyword_underscore {name : String} (within : '_' ∈ name.toList) : isKeyword name = false :=
  isKeyword_marked (by decide) within

namespace IsSnakeName

variable {name : String}

theorem filled (own : IsSnakeName name) : name ≠ "" := by
  intro empty
  have start := own.start
  simp [empty] at start

theorem identifier (own : IsSnakeName name) : Settings.isAsciiIdentifier name.toList = true := by
  have start := own.start
  cases letters : name.toList with
  | nil => simp [letters] at start
  | cons c rest =>
      simp only [letters, List.head?_cons, Option.map_some, Option.getD_some] at start
      refine isAsciiIdentifier_cons.mpr ⟨start, fun d member => snake_identifier (own.snake d ?_)⟩
      rwa [letters]

/-- An underscore goes before a name that begins with a digit or is a keyword. -/
theorem apart {stem : String} (filled : stem ≠ "") (snake : ∀ c ∈ stem.toList, isSnakeCharacter c = true)
    (closed : ¬EndsOpen stem) :
    IsSnakeName (if startsWithDigit stem || isKeyword stem then "_" ++ stem else stem) := by
  split
  case isTrue =>
    refine ⟨by simp; decide, ?_, ?_, isKeyword_underscore (by simp)⟩
    · intro c member
      rw [String.toList_append, List.mem_append] at member
      rcases member with first | own
      · obtain rfl : c = '_' := by simpa using first
        decide
      · exact snake c own
    · rwa [endsOpen_append filled]
  case isFalse apart =>
    rw [Bool.or_eq_true, not_or, Bool.not_eq_true, Bool.not_eq_true] at apart
    obtain ⟨noDigit, free⟩ := apart
    refine ⟨?_, snake, closed, free⟩
    obtain ⟨c, rest, letters⟩ := List.exists_cons_of_ne_nil (mt String.toList_eq_nil_iff.mp filled)
    have identifier : isIdentifierCharacter c = true := snake_identifier (snake c (by simp [letters]))
    have other : isDigit c = false := by simpa [startsWithDigit, letters] using noDigit
    simpa [letters] using not_asciiDigit_of_not_digit identifier other

theorem numbered (own : IsSnakeName name) (number : Nat) : IsSnakeName (numbered name number) := by
  refine ⟨?_, ?_, ?_, isKeyword_underscore (by simp [Naming.numbered])⟩
  · have start := own.start
    cases letters : name.toList with
    | nil => simp [letters] at start
    | cons c rest => simpa [Naming.numbered, letters] using start
  · intro c member
    simp only [Naming.numbered, String.toList_append, List.mem_append] at member
    rcases member with (old | underscore) | digit
    · exact own.snake c old
    · obtain rfl : c = '_' := by simpa using underscore
      decide
    · simp [isSnakeCharacter, toString_digits number c digit]
  · rw [Naming.numbered, endsOpen_append (toString_ne_empty number)]
    intro last
    have digit := toString_digits number '_' (List.mem_of_getLast? last)
    exact absurd digit (by decide)

end IsSnakeName

theorem modelModule_isSnakeName (schemaName : String) : IsSnakeName (modelModule schemaName) := by
  have stem : (∀ c ∈ (moduleStem schemaName).toList, isSnakeCharacter c = true) ∧
      ¬EndsOpen (moduleStem schemaName) := by
    rcases sanitizeOr_cases "schema" (undotted schemaName) with ⟨-, same⟩ | ⟨-, same⟩
    · rw [moduleStem, same]
      exact ⟨List.all_eq_true.mp (by decide), by simp [EndsOpen]⟩
    · rw [moduleStem, same]
      exact ⟨sanitizeSegment_snake _, sanitizeSegment_closed _⟩
  rw [modelModule_eq]
  exact .apart (moduleStem_ne_empty schemaName) stem.1 stem.2

theorem serviceModule_isSnakeName (root : String) : IsSnakeName (serviceModule root) := by
  unfold serviceModule
  dsimp only
  split
  · exact ⟨by decide, List.all_eq_true.mp (by decide), by simp [EndsOpen, rootServiceModule], by decide⟩
  · refine .apart (by simp) ?_ ?_
    · intro c member
      rw [String.toList_append, List.mem_append] at member
      rcases member with stem | word
      · exact sanitizeSegment_snake _ c stem
      · exact List.all_eq_true.mp (show "_service".toList.all isSnakeCharacter = true by decide) c word
    · rw [endsOpen_append (by decide)]
      simp [EndsOpen]

theorem unique_isSnakeName {names : List String} (own : ∀ name ∈ names, IsSnakeName name) :
    ∀ name ∈ unique names, IsSnakeName name :=
  unique_forall (fun _ number own => own.numbered number) own

end OpenApiClient.Naming
