import Mathlib.Data.List.ReduceOption
import OpenApiClient.Proofs.JoinedLists
import OpenApiClient.Settings

/-! The names of packages: identifiers with a dot between one and the next. A name is judged in the same way wherever it
comes from, and of what is no such name only a name with a line feed after it passes. -/

namespace OpenApiClient

theorem Text.mem_intercalate {separator : List Char} {parts : List (List Char)} {c : Char}
    (member : c ∈ separator.intercalate parts) : c ∈ separator ∨ ∃ part ∈ parts, c ∈ part := by
  induction parts with
  | nil => simp at member
  | cons part rest ih =>
      cases rest with
      | nil => exact .inr ⟨part, List.mem_cons_self, by simpa using member⟩
      | cons next rest =>
          rw [List.intercalate_cons_cons, List.mem_append, List.mem_append] at member
          rcases member with (own | between) | later
          · exact .inr ⟨part, List.mem_cons_self, own⟩
          · exact .inl between
          · exact (ih later).imp_right fun ⟨other, among, within⟩ => ⟨other, List.mem_cons_of_mem _ among, within⟩

namespace Settings

open Text

def IsIdentifier (text : List Char) : Prop :=
  ∃ c rest, text = c :: rest ∧ (isAsciiLetter c = true ∨ c = '_') ∧
    ∀ d ∈ rest, isAsciiLetter d = true ∨ d = '_' ∨ isAsciiDigit d = true

def IsDotted (name : String) : Prop :=
  ∃ parts, parts ≠ [] ∧ (∀ part ∈ parts, IsIdentifier part) ∧ name.toList = ['.'].intercalate parts

def EndsInLineFeed (name : String) : Prop := ∃ own, IsDotted own ∧ name = own ++ "\n"

theorem isAsciiIdentifier_iff {text : List Char} : isAsciiIdentifier text = true ↔ IsIdentifier text := by
  cases text with
  | nil => simp [isAsciiIdentifier, IsIdentifier]
  | cons c rest =>
      simp only [isAsciiIdentifier, isIdentifierStart, IsIdentifier, Bool.and_eq_true, Bool.or_eq_true, beq_iff_eq,
        List.all_eq_true, or_assoc]
      constructor
      · rintro ⟨start, others⟩
        exact ⟨c, rest, rfl, start, others⟩
      · rintro ⟨_, _, ⟨⟩, start, others⟩
        exact ⟨start, others⟩

theorem IsIdentifier.not_mem {text : List Char} {c : Char} (identifier : IsIdentifier text)
    (other : (isAsciiLetter c || isAsciiDigit c || c == '_') = false) : c ∉ text := by
  obtain ⟨first, rest, rfl, start, others⟩ := identifier
  simp only [Bool.or_eq_false_iff, beq_eq_false_iff_ne] at other
  obtain ⟨⟨noLetter, noDigit⟩, noUnderscore⟩ := other
  intro member
  rcases List.mem_cons.mp member with rfl | later
  · simp [noLetter, noUnderscore] at start
  · simpa [noLetter, noDigit, noUnderscore] using others c later

theorem IsDotted.not_mem_lineFeed {name : String} (dotted : IsDotted name) : '\n' ∉ name.toList := by
  obtain ⟨parts, -, identifiers, joined⟩ := dotted
  rw [joined]
  intro member
  rcases mem_intercalate member with dot | ⟨part, among, within⟩
  · exact absurd dot (by decide)
  · exact (identifiers part among).not_mem (by decide) within

theorem not_isDotted_of_lineFeed {name : String} (trailing : EndsInLineFeed name) : ¬IsDotted name := by
  obtain ⟨own, -, rfl⟩ := trailing
  exact fun dotted => dotted.not_mem_lineFeed (by simp)

theorem splitAt_identifiers_iff {name : String} :
    (splitAt '.' name.toList).all isAsciiIdentifier = true ↔ IsDotted name := by
  simp only [List.all_eq_true, isAsciiIdentifier_iff]
  constructor
  · intro identifiers
    exact ⟨_, splitAt_ne_nil '.' _, identifiers, (intercalate_splitAt '.' _).symm⟩
  · rintro ⟨parts, filled, identifiers, joined⟩
    rw [joined, splitAt_intercalate filled,
      flatMap_splitAt_whole fun part member => (identifiers part member).not_mem (by decide)]
    exact identifiers

/-- A line feed at the end is left out of the judgement. -/
theorem isPackageName_iff {name : String} : isPackageName name = true ↔ IsDotted name ∨ EndsInLineFeed name := by
  rw [isPackageName, dropFinalLineFeed]
  split
  case isTrue last =>
    obtain ⟨letters, whole⟩ := List.getLast?_eq_some_iff.mp last
    have split : name = String.ofList letters ++ "\n" := String.toList_injective (by simp [whole])
    have unended : ¬IsDotted name := fun dotted => dotted.not_mem_lineFeed (List.mem_of_getLast? last)
    rw [or_iff_right unended, whole, List.dropLast_concat, ← String.toList_ofList (l := letters),
      splitAt_identifiers_iff]
    constructor
    · exact fun own => ⟨_, own, split⟩
    · rintro ⟨own, dotted, same⟩
      rwa [String.append_left_inj _ |>.mp (split.symm.trans same)]
  case isFalse closed =>
    have plain : ¬EndsInLineFeed name := by
      rintro ⟨own, -, rfl⟩
      simp at closed
    rw [or_iff_left plain, splitAt_identifiers_iff]

/-! Sources. -/

def givenFor (option : Option String) (name : String) (environment : List (String × String)) : List String :=
  [option, Entries.find? name environment].reduceOption

def packageSources (given : GivenSettings) (environment : List (String × String)) : List String :=
  givenFor given.package "CLIENTGEN_PACKAGE" environment ++ ["client"]

def Chosen (given : GivenSettings) (environment : List (String × String)) (name : String) : Prop :=
  (packageSources given environment).find? (fun source => source ≠ "") = some name

def HasDocument (given : GivenSettings) (environment : List (String × String)) : Prop :=
  ∃ spec ∈ givenFor given.spec "CLIENTGEN_SPEC" environment, spec ≠ ""

variable {given : GivenSettings} {environment : List (String × String)} {name : String}

theorem firstGiven_eq_find? (options : List (Option String)) :
    firstGiven options = options.reduceOption.find? (fun source => source ≠ "") := by
  induction options with
  | nil => rfl
  | cons option rest ih =>
      cases option with
      | none => simpa [firstGiven] using ih
      | some text =>
          rw [List.reduceOption_cons_of_some, List.find?_cons, firstGiven, ih]
          by_cases empty : text = "" <;> simp [empty]

theorem hasDocument_iff :
    HasDocument given environment ↔
      ∃ spec, firstGiven [given.spec, Entries.find? "CLIENTGEN_SPEC" environment] = some spec := by
  rw [firstGiven_eq_find?, ← Option.isSome_iff_exists, List.find?_isSome]
  simp [HasDocument, givenFor]

theorem chosen_iff : Chosen given environment name ↔
    (firstGiven [given.package, Entries.find? "CLIENTGEN_PACKAGE" environment]).getD "client" = name := by
  have last : ["client"].find? (fun source => source ≠ "") = some "client" := by decide
  rw [Chosen, packageSources, List.find?_append, last, Option.or_some, Option.some.injEq, firstGiven_eq_find?, givenFor]

theorem make_eq_ok_iff {spec output : Path} {logLevel : String} {settings : Settings} :
    make spec output name logLevel = .ok settings ↔
      isPackageName name = true ∧ settings = ⟨spec, output, name, logLevel⟩ := by
  unfold make
  split
  case isTrue passes => rw [Except.ok.injEq, and_iff_right passes, eq_comm]
  case isFalse fails => simp [fails]

/-- Settings come from a document and a package name that passes. -/
theorem ofSources_package_iff :
    (∃ settings, ofSources given environment = .ok settings ∧ settings.package = name) ↔
      HasDocument given environment ∧ Chosen given environment name ∧ isPackageName name = true := by
  rw [hasDocument_iff, chosen_iff]
  dsimp only [ofSources]
  cases firstGiven [given.spec, Entries.find? "CLIENTGEN_SPEC" environment] with
  | none => simp
  | some spec =>
      simp only [make_eq_ok_iff]
      constructor
      · rintro ⟨settings, ⟨passes, rfl⟩, rfl⟩
        exact ⟨⟨spec, rfl⟩, rfl, passes⟩
      · rintro ⟨-, rfl, passes⟩
        exact ⟨_, ⟨passes, rfl⟩, rfl⟩

/-- A package name is judged by its grammar, in settings that are made of their parts and in those that come from
any source. -/
structure JudgedByGrammar (name : String) : Prop where
  made : ∀ spec output logLevel,
    make spec output name logLevel = .ok ⟨spec, output, name, logLevel⟩ ↔ IsDotted name
  refused : ∀ spec output logLevel, ¬IsDotted name → make spec output name logLevel = .error (.invalidPackage name)
  yielded : ∀ given environment, (∃ settings, ofSources given environment = .ok settings ∧ settings.package = name) ↔
    HasDocument given environment ∧ Chosen given environment name ∧ IsDotted name

/-- Every name is judged by its grammar, but for a package name with a line feed after it, which passes for one. -/
theorem judgedByGrammar_iff (name : String) : JudgedByGrammar name ↔ ¬EndsInLineFeed name := by
  constructor
  · intro judged trailing
    have passes : isPackageName name = true := isPackageName_iff.mpr (.inr trailing)
    exact not_isDotted_of_lineFeed trailing
      ((judged.made default default "WARNING").mp (make_eq_ok_iff.mpr ⟨passes, rfl⟩))
  · intro plain
    have passes_iff : isPackageName name = true ↔ IsDotted name := by rw [isPackageName_iff, or_iff_left plain]
    refine ⟨fun spec output logLevel => ?_, fun spec output logLevel undotted => ?_, fun given environment => ?_⟩
    · rw [make_eq_ok_iff, and_iff_left rfl, passes_iff]
    · rw [make, if_neg (mt passes_iff.mp undotted)]
    · rw [ofSources_package_iff, passes_iff]

theorem acmeClient_judged :
    JudgedByGrammar "acme.client" ∧
      make (.ofText "api.yaml") (.ofText "generated") "acme.client" "INFO" =
        .ok ⟨.ofText "api.yaml", .ofText "generated", "acme.client", "INFO"⟩ ∧
      ∃ settings,
        ofSources ⟨some "api.yaml", none, some "", none⟩ [("CLIENTGEN_PACKAGE", "acme.client")] = .ok settings ∧
        settings.package = "acme.client" := by
  have plain : ¬EndsInLineFeed "acme.client" := by
    rintro ⟨own, -, same⟩
    have last := congrArg (fun text : String => text.toList.getLast?) same
    simp at last
  have judged := (judgedByGrammar_iff "acme.client").mpr plain
  have dotted : IsDotted "acme.client" := splitAt_identifiers_iff.mp (by decide)
  refine ⟨judged, (judged.made ..).mpr dotted, (judged.yielded ..).mpr ⟨?_, rfl, dotted⟩⟩
  exact ⟨"api.yaml", List.mem_singleton_self _, by decide⟩

/-- A line feed after a package name is passed over, and stays in the name. -/
theorem clientLine_passes :
    ofSources ⟨some "api.yaml", none, some "client\n", none⟩ [] =
        .ok ⟨.ofText "api.yaml", .ofText "generated", "client\n", "WARNING"⟩ ∧
      ¬IsDotted "client\n" ∧ ¬JudgedByGrammar "client\n" := by
  have trailing : EndsInLineFeed "client\n" := ⟨"client", splitAt_identifiers_iff.mp (by decide), rfl⟩
  have undotted := not_isDotted_of_lineFeed trailing
  have made : make default default "client\n" "INFO" = .ok ⟨default, default, "client\n", "INFO"⟩ := rfl
  exact ⟨rfl, undotted, fun judged => undotted ((judged.made ..).mp made)⟩

end Settings
end OpenApiClient
