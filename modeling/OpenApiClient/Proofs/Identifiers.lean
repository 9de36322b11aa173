import OpenApiClient.Proofs.ShadowedNames
import OpenApiClient.Settings

/-! Identifiers: which generated names can stand in source as the name of a class. Camel case makes identifiers,
and of the keywords it makes only those that are reserved as class names. -/

namespace OpenApiClient

namespace Naming

open Text

def IsClassName (name : String) : Prop :=
  Settings.isAsciiIdentifier name.toList = true ∧ isKeyword name = false

instance (name : String) : Decidable (IsClassName name) :=
  inferInstanceAs (Decidable (_ ∧ _))

theorem isIdentifierStart_iff {c : Char} (identifier : isIdentifierCharacter c = true) :
    Settings.isIdentifierStart c = !isAsciiDigit c := by
  -- An identifier is ASCII, which leaves 128 characters to check, here and below.
  have checked := of_ascii
    (fun c => !isIdentifierCharacter c || Settings.isIdentifierStart c == !isAsciiDigit c) (by decide)
    (isIdentifierCharacter_ascii identifier)
  simpa [identifier] using checked

theorem isAsciiIdentifier_cons {c : Char} {rest : List Char} :
    Settings.isAsciiIdentifier (c :: rest) = true ↔
      isAsciiDigit c = false ∧ ∀ d ∈ c :: rest, isIdentifierCharacter d = true := by
  have characters : ∀ d, (Settings.isIdentifierStart d || isAsciiDigit d) = isIdentifierCharacter d := fun d => by
    rw [Settings.isIdentifierStart, isIdentifierCharacter, Bool.or_right_comm]
  simp only [Settings.isAsciiIdentifier, characters, Bool.and_eq_true, List.all_eq_true, List.forall_mem_cons]
  constructor
  · rintro ⟨start, others⟩
    have identifier : isIdentifierCharacter c = true := by simp [← characters, start]
    rw [isIdentifierStart_iff identifier] at start
    exact ⟨by simpa using start, identifier, others⟩
  · rintro ⟨start, identifier, others⟩
    exact ⟨by simp [isIdentifierStart_iff identifier, start], others⟩

/-- Characters that stand in no keyword. -/
def marks : List Char := ['_', 'B', 'I', 'P', 'R', 'S']

theorem keywords_unmarked : ∀ keyword ∈ keywords, (marks.all fun mark => !keyword.toList.contains mark) = true := by
  decide

theorem isKeyword_marked {name : String} {mark : Char} (member : mark ∈ marks) (within : mark ∈ name.toList) :
    isKeyword name = false := by
  by_contra keyword
  have listed : name ∈ keywords := List.contains_iff_mem.mp (by simpa [isKeyword] using keyword)
  have absent := List.all_eq_true.mp (keywords_unmarked name listed) mark member
  simp [within] at absent

def isEnding (rest : String) : Bool :=
  rest.toList.all isIdentifierCharacter && marks.any rest.toList.contains

theorem isEnding_append {rest more : String} (ending : isEnding rest = true)
    (characters : ∀ c ∈ more.toList, isIdentifierCharacter c = true) : isEnding (rest ++ more) = true := by
  obtain ⟨own, marked⟩ := Bool.and_eq_true_iff.mp ending
  obtain ⟨mark, member, within⟩ := List.any_eq_true.mp marked
  have all : (rest ++ more).toList.all isIdentifierCharacter = true := by
    rw [String.toList_append, List.all_append, own, List.all_eq_true.mpr characters, Bool.and_self]
  refine Bool.and_eq_true_iff.mpr ⟨all, List.any_eq_true.mpr ⟨mark, member, ?_⟩⟩
  rw [String.toList_append]
  exact List.contains_iff_mem.mpr (List.mem_append_left _ (List.contains_iff_mem.mp within))

theorem isClassName_append {name rest : String} (identifier : Settings.isAsciiIdentifier name.toList = true)
    (ending : isEnding rest = true) : IsClassName (name ++ rest) := by
  obtain ⟨characters, marked⟩ := Bool.and_eq_true_iff.mp ending
  obtain ⟨mark, member, within⟩ := List.any_eq_true.mp marked
  refine ⟨?_, isKeyword_marked member (by simp [List.contains_iff_mem.mp within])⟩
  rw [String.toList_append]
  cases letters : name.toList with
  | nil => simp [letters, Settings.isAsciiIdentifier] at identifier
  | cons c others =>
      rw [letters] at identifier
      obtain ⟨start, all⟩ := isAsciiIdentifier_cons.mp identifier
      exact isAsciiIdentifier_cons.mpr ⟨start, List.forall_mem_append.mpr ⟨all, List.all_eq_true.mp characters⟩⟩

theorem isClassName_apart {start : String} {taken : Prop} [Decidable taken]
    (identifier : Settings.isAsciiIdentifier start.toList = true) (free : ¬taken → isKeyword start = false) :
    IsClassName (if taken then start ++ "_" else start) := by
  split
  case isTrue => exact isClassName_append identifier (by decide)
  case isFalse apart => exact ⟨identifier, free apart⟩

theorem upperCharacter_head {c : Char} (identifier : isIdentifierCharacter c = true) :
    ∃ d, (upperCharacter c).head? = some d ∧ isAsciiLower d = false := by
  have checked := of_ascii
    (fun c => !isIdentifierCharacter c || (upperCharacter c).head?.any fun d => !isAsciiLower d) (by decide)
    (isIdentifierCharacter_ascii identifier)
  simpa [identifier, Option.any_eq_true] using checked

theorem not_lower_of_not_letter {c : Char} (identifier : isIdentifierCharacter c = true)
    (noLetter : isLetter c = false) : isAsciiLower c = false := by
  have checked := of_ascii (fun c => isLetter c || !isAsciiLower c) (by decide)
    (isIdentifierCharacter_ascii identifier)
  simpa [noLetter] using checked

theorem upperCamelFrom_head {name : List Char} (identifier : ∀ c ∈ name, isIdentifierCharacter c = true) :
    ∀ d, (upperCamelFrom true name).head? = some d → isAsciiLower d = false := by
  induction name with
  | nil => simp [upperCamelFrom]
  | cons c rest ih =>
      obtain ⟨first, others⟩ := List.forall_mem_cons.mp identifier
      unfold upperCamelFrom
      split
      · exact ih others
      · split
        · rename_i noLetter
          rintro _ ⟨⟩
          exact not_lower_of_not_letter first (by simpa using noLetter)
        · obtain ⟨d, head, capital⟩ := upperCharacter_head first
          simp [List.head?_append, head, capital]

theorem not_asciiDigit_of_not_digit {c : Char} (identifier : isIdentifierCharacter c = true)
    (noDigit : isDigit c = false) : isAsciiDigit c = false := by
  have checked := of_ascii (fun c => isDigit c || !isAsciiDigit c) (by decide)
    (isIdentifierCharacter_ascii identifier)
  simpa [noDigit] using checked

theorem identifierCamel_start (name : List Char) :
    ∃ c rest, identifierCamel name = c :: rest ∧ isAsciiLower c = false ∧ isAsciiDigit c = false := by
  have camel := upperCamelFrom_identifier true (plain_identifier name)
  have capital := upperCamelFrom_head (plain_identifier name)
  unfold identifierCamel
  split
  · exact ⟨_, _, rfl, by decide, by decide⟩
  · rename_i c rest same
    rw [← upperCamel, same] at camel capital
    split
    · exact ⟨_, _, rfl, by decide, by decide⟩
    · rename_i noDigit
      have identifier := (List.forall_mem_cons.mp camel).1
      exact ⟨c, rest, rfl, capital c rfl, not_asciiDigit_of_not_digit identifier (by simpa using noDigit)⟩

theorem toIdentifierCamel_isIdentifier (name : String) :
    Settings.isAsciiIdentifier (toIdentifierCamel name).toList = true := by
  obtain ⟨c, rest, same, -, noDigit⟩ := identifierCamel_start name.toList
  have characters := identifierCamel_identifier name.toList
  rw [toIdentifierCamel, String.toList_ofList]
  rw [same] at characters ⊢
  exact isAsciiIdentifier_cons.mpr ⟨noDigit, characters⟩

theorem capital_keywords_reserved : ∀ keyword ∈ keywords,
    (keyword.toList.head?.map isAsciiLower).getD true = true ∨ keyword ∈ reservedClassNames := by
  decide

/-- The keywords in camel case are reserved as class names. -/
theorem camel_keyword_reserved {name : String} (keyword : isKeyword (toIdentifierCamel name) = true) :
    toIdentifierCamel name ∈ reservedClassNames := by
  obtain ⟨c, rest, same, capital, -⟩ := identifierCamel_start name.toList
  refine (capital_keywords_reserved _ (List.contains_iff_mem.mp keyword)).resolve_left ?_
  rw [toIdentifierCamel, String.toList_ofList, same]
  simp [capital]

theorem className_isClassName (schemaName : String) : IsClassName (className schemaName) := by
  rw [className_eq]
  refine isClassName_apart (toIdentifierCamel_isIdentifier (undotted schemaName)) fun free => ?_
  refine Bool.eq_false_iff.mpr fun keyword => ?_
  exact free (isReservedClassName_iff.mpr (camel_keyword_reserved keyword))

/-! Field names are no keywords. -/

theorem fieldName_not_keyword (propertyName : String) : isKeyword (fieldName propertyName) = false := by
  unfold fieldName
  split
  · decide
  · dsimp only
    generalize String.ofList _ = name
    split
    case isTrue => exact isKeyword_marked (show '_' ∈ marks by decide) (by simp)
    case isFalse free =>
      rw [Bool.or_eq_true, not_or, Bool.not_eq_true] at free
      exact free.1

theorem unique_not_keyword {names : List String} (free : ∀ name ∈ names, isKeyword name = false) :
    ∀ name ∈ unique names, isKeyword name = false :=
  unique_forall (fun _ _ _ => isKeyword_marked (show '_' ∈ marks by decide) (by simp [numbered])) free

/-! The class of a service ends in the word for it, which no keyword has. -/

theorem mem_upperCamelFrom_word (newWord : Bool) (before rest : List Char) :
    'S' ∈ upperCamelFrom newWord (before ++ '_' :: 's' :: rest) := by
  induction before generalizing newWord with
  | nil =>
      rw [List.nil_append, upperCamelFrom, if_pos rfl, upperCamelFrom]
      exact List.mem_append_left _ (by decide)
  | cons c before ih =>
      rw [List.cons_append, upperCamelFrom]
      split
      · exact ih true
      · split
        · exact List.mem_cons_of_mem _ (ih true)
        · split
          · exact List.mem_append_right _ (ih false)
          · exact List.mem_append_right _ (ih false)

theorem mem_identifierCamel {c : Char} {name : List Char}
    (member : c ∈ upperCamel (name.map fun c => if isIdentifierCharacter c then c else '_')) :
    c ∈ identifierCamel name := by
  unfold identifierCamel
  split
  · simp_all
  · rename_i same
    rw [same] at member
    split
    · exact List.mem_cons_of_mem _ member
    · exact member

theorem serviceModule_word (root : String) : ∃ start, serviceModule root = start ++ "_service" := by
  unfold serviceModule
  dsimp only
  split
  · exact ⟨"root", rfl⟩
  · split
    · exact ⟨"_" ++ _, (String.append_assoc ..).symm⟩
    · exact ⟨_, rfl⟩

end Naming

theorem fieldNames_not_keyword {properties : List (Value × Schema)} {names : List String}
    (found : fieldNames properties = .ok names) : ∀ name ∈ names, Naming.isKeyword name = false := by
  obtain ⟨own, made, same⟩ := except_bind_ok.mp found
  obtain rfl := except_pure_ok.mp same
  refine Naming.unique_not_keyword fun name member => ?_
  obtain ⟨property, -, named⟩ := forall₂_of_mem_right ((mapM_ok_iff _ _ _).mp made) member
  obtain ⟨text, -, rfl⟩ := except_map_ok.mp named
  exact Naming.fieldName_not_keyword text

theorem ServiceGroup.className_isClassName (group : ServiceGroup) : Naming.IsClassName group.className := by
  obtain ⟨start, same⟩ := Naming.serviceModule_word group.pathRoot
  have marked : 'S' ∈ group.className.toList := by
    rw [className, moduleName, same, Naming.toIdentifierCamel, String.toList_ofList]
    refine Naming.mem_identifierCamel ?_
    rw [String.toList_append, List.map_append]
    exact Naming.mem_upperCamelFrom_word true _ "ervice".toList
  exact ⟨Naming.toIdentifierCamel_isIdentifier _,
    Naming.isKeyword_marked (show 'S' ∈ Naming.marks by decide) marked⟩

end OpenApiClient
