import OpenApiClient.Proofs.FreshNames
import OpenApiClient.Proofs.MethodNames

/-! The names of modules. The module of a model is told apart by the words of the schema name alone, so that two
models can have one module. No other two modules of a package ever meet. -/

namespace OpenApiClient.Naming

open Text

theorem strip_head (drop : Char → Bool) (text : List Char) {c : Char}
    (first : (strip drop text).head? = some c) : drop c = false := by
  have start : strip drop text <+: text.dropWhile drop := by
    have suffix := List.dropWhile_suffix (p := drop) (l := (text.dropWhile drop).reverse)
    rw [← List.reverse_prefix, List.reverse_reverse] at suffix
    exact suffix
  obtain ⟨rest, whole⟩ := start
  have head := List.head?_dropWhile_not drop text
  rw [← whole, List.head?_append, first] at head
  simpa using head

theorem strip_sublist (drop : Char → Bool) (text : List Char) : (strip drop text).Sublist text := by
  have inner := (List.dropWhile_sublist drop (l := (text.dropWhile drop).reverse)).reverse
  rw [List.reverse_reverse] at inner
  exact inner.trans (List.dropWhile_sublist drop)

theorem collapse_sublist (text : List Char) : (collapse text).Sublist text := by
  induction text using collapse.induct with
  | case1 c d rest both ih =>
      rw [collapse, if_pos both]
      exact ih.cons c
  | case2 c d rest apart ih =>
      rw [collapse, if_neg apart]
      exact ih.cons_cons c
  | case3 short stops =>
      rw [collapse.eq_2 short stops]

theorem sanitizeSegment_snake (name : String) :
    ∀ c ∈ (sanitizeSegment name).toList, isSnakeCharacter c = true := by
  intro c member
  rw [sanitizeSegment, String.toList_ofList] at member
  have among := (collapse_sublist _).subset ((strip_sublist _ _).subset member)
  obtain ⟨d, -, rfl⟩ := List.mem_map.mp among
  split
  · assumption
  · decide

theorem sanitizeSegment_dotless (name : String) : '.' ∉ (sanitizeSegment name).toList := by
  intro member
  have snake := sanitizeSegment_snake name '.' member
  exact absurd snake (by decide)

def undotted (name : String) : String := String.ofList (name.toList.map fun c => if c = '.' then '_' else c)

/-- The words of a schema name in snake case, which are all that its module keeps of it. -/
def schemaWords (schemaName : String) : String := sanitizeSegment (undotted schemaName)

def ModulesCoincide (first second : String) : Prop :=
  schemaWords first = schemaWords second ∨ schemaWords first = "" ∧ schemaWords second = "schema" ∨
    schemaWords first = "schema" ∧ schemaWords second = ""

instance (first second : String) : Decidable (ModulesCoincide first second) :=
  inferInstanceAs (Decidable (schemaWords first = schemaWords second ∨
    schemaWords first = "" ∧ schemaWords second = "schema" ∨
    schemaWords first = "schema" ∧ schemaWords second = ""))

def moduleStem (schemaName : String) : String := sanitizeOr "schema" (undotted schemaName)

theorem modelModule_eq (schemaName : String) :
    modelModule schemaName =
      if startsWithDigit (moduleStem schemaName) || isKeyword (moduleStem schemaName) then
        "_" ++ moduleStem schemaName
      else moduleStem schemaName := rfl

theorem moduleStem_head (schemaName : String) : (moduleStem schemaName).toList.head? ≠ some '_' := by
  intro first
  rcases sanitizeOr_cases "schema" (undotted schemaName) with ⟨-, same⟩ | ⟨-, same⟩
  · rw [moduleStem, same] at first
    exact absurd first (by decide)
  · rw [moduleStem, same, sanitizeSegment, String.toList_ofList] at first
    have dropped := strip_head _ _ first
    exact absurd dropped (by decide)

theorem moduleStem_dotless (schemaName : String) : '.' ∉ (moduleStem schemaName).toList := by
  rcases sanitizeOr_cases "schema" (undotted schemaName) with ⟨-, same⟩ | ⟨-, same⟩
  · rw [moduleStem, same]
    decide
  · rw [moduleStem, same]
    exact sanitizeSegment_dotless _

theorem moduleStem_ne_empty (schemaName : String) : moduleStem schemaName ≠ "" := by
  rcases sanitizeOr_cases "schema" (undotted schemaName) with ⟨-, same⟩ | ⟨filled, same⟩
  · rw [moduleStem, same]
    decide
  · rw [moduleStem, same]
    exact filled

theorem moduleStem_eq_iff {first second : String} :
    moduleStem first = moduleStem second ↔ ModulesCoincide first second := by
  unfold moduleStem ModulesCoincide schemaWords
  rcases sanitizeOr_cases "schema" (undotted first) with ⟨none, same⟩ | ⟨filled, same⟩ <;>
    rcases sanitizeOr_cases "schema" (undotted second) with ⟨noneSecond, sameSecond⟩ | ⟨filledSecond, sameSecond⟩
  · simp [none, noneSecond, same, sameSecond]
  · simp [none, same, sameSecond, filledSecond.symm, @eq_comm _ "schema" (sanitizeSegment (undotted second))]
  · simp [noneSecond, same, sameSecond, filled]
  · simp [same, sameSecond, filled, filledSecond]

theorem modelModule_eq_iff {first second : String} :
    modelModule first = modelModule second ↔ ModulesCoincide first second := by
  rw [← moduleStem_eq_iff, modelModule_eq, modelModule_eq]
  -- A stem never starts with the underscore that digits and keywords are given.
  have marked : ∀ name other, "_" ++ name ≠ moduleStem other := by
    intro name other same
    refine moduleStem_head other ?_
    rw [← same]
    simp
  constructor
  · intro same
    split at same <;> split at same
    · exact String.append_right_inj _ |>.mp same
    · exact absurd same (marked _ _)
    · exact absurd same.symm (marked _ _)
    · exact same
  · intro same
    rw [same]

theorem modelModule_dotless (schemaName : String) : '.' ∉ (modelModule schemaName).toList := by
  rw [modelModule_eq]
  split
  · simpa using moduleStem_dotless schemaName
  · exact moduleStem_dotless schemaName

theorem modelModule_ne_empty (schemaName : String) : modelModule schemaName ≠ "" := by
  rw [modelModule_eq]
  split
  · simp
  · exact moduleStem_ne_empty schemaName

/-- A module name with an underscore and without a dot, as those of services are. -/
def JoinedWords (name : String) : Prop := '_' ∈ name.toList ∧ '.' ∉ name.toList

theorem JoinedWords.numbered {name : String} (joined : JoinedWords name) (number : Nat) :
    JoinedWords (numbered name number) := by
  have digits : '.' ∉ (toString number).toList := fun member =>
    absurd (toString_digits number '.' member) (by decide)
  simp only [JoinedWords, Naming.numbered, String.toList_append, List.mem_append]
  refine ⟨.inl (.inl joined.1), ?_⟩
  rintro ((member | member) | member)
  · exact joined.2 member
  · exact absurd member (by decide)
  · exact digits member

theorem serviceModule_joinedWords (root : String) : JoinedWords (serviceModule root) := by
  unfold serviceModule
  dsimp only
  split
  · exact ⟨by decide, by decide⟩
  · have dotless := sanitizeSegment_dotless (String.ofList (root.toList.map fun c => if c = '/' then '_' else c))
    split <;> simp [JoinedWords, dotless]

theorem unique_joinedWords {names : List String} (joined : ∀ name ∈ names, JoinedWords name) :
    ∀ name ∈ unique names, JoinedWords name :=
  unique_forall (fun _ number own => own.numbered number) joined

def modelEnding (package schemaName : String) : String :=
  if package = "" then modelModule schemaName else ".model." ++ modelModule schemaName

theorem modelModuleIn_eq (package schemaName : String) :
    modelModuleIn (some package) schemaName = package ++ modelEnding package schemaName := by
  unfold modelModuleIn modelEnding
  split
  · contradiction
  · rename_i empty
    obtain rfl := Option.some.inj empty
    simp
  · rename_i own filled same
    obtain rfl := Option.some.inj same
    have named : package ≠ "" := fun empty => filled empty
    rw [if_neg named, String.append_assoc]

theorem modelEnding_eq_iff {package first second : String} :
    modelEnding package first = modelEnding package second ↔ ModulesCoincide first second := by
  rw [← modelModule_eq_iff]
  unfold modelEnding
  split
  · exact Iff.rfl
  · exact String.append_right_inj _

def sharedEndings : List String := ["", ".security", ".servers", ".model"]

/-- The endings of models have no dot or two, those of services and all shared ones but the empty one have
one. -/
def dots (ending : String) : Nat := ending.toList.count '.'

theorem modelEnding_apart (package schemaName : String) :
    modelEnding package schemaName ≠ "" ∧ dots (modelEnding package schemaName) ≠ 1 := by
  have dotless : (modelModule schemaName).toList.count '.' = 0 :=
    List.count_eq_zero.mpr (modelModule_dotless schemaName)
  unfold modelEnding dots
  split
  · exact ⟨modelModule_ne_empty schemaName, by simp [dotless]⟩
  · exact ⟨by simp, by simp [dotless]⟩

theorem sharedEndings_apart :
    ∀ ending ∈ sharedEndings, (ending = "" ∨ dots ending = 1) ∧ '_' ∉ ending.toList := by
  decide

theorem JoinedWords.ending {name : String} (joined : JoinedWords name) :
    dots ("." ++ name) = 1 ∧ '_' ∈ ("." ++ name).toList := by
  have dotless : name.toList.count '.' = 0 := List.count_eq_zero.mpr joined.2
  exact ⟨by simp [dots, dotless], by simp [joined.1]⟩

theorem endings_nodup_iff {package : String} {schemaNames services : List String}
    (joined : ∀ name ∈ services, JoinedWords name) (distinct : services.Nodup) :
    (sharedEndings ++ schemaNames.map (modelEnding package) ++ services.map ("." ++ ·)).Nodup ↔
      schemaNames.Pairwise fun first second => ¬ModulesCoincide first second := by
  have models : (schemaNames.map (modelEnding package)).Nodup ↔
      schemaNames.Pairwise fun first second => ¬ModulesCoincide first second := by
    simp only [List.Nodup, List.pairwise_map, ne_eq, modelEnding_eq_iff]
  have served : (services.map ("." ++ ·)).Nodup :=
    distinct.map fun first second same => String.append_right_inj _ |>.mp same
  rw [List.nodup_append, List.nodup_append, models]
  constructor
  · exact fun all => all.1.2.1
  · intro apart
    -- The number of dots tells models from the rest, and the underscore tells services from what is shared.
    refine ⟨⟨by decide, apart, ?_⟩, served, ?_⟩
    · intro ending shared other member same
      obtain ⟨name, -, rfl⟩ := List.mem_map.mp member
      obtain ⟨filled, different⟩ := modelEnding_apart package name
      rw [same] at shared
      exact (sharedEndings_apart _ shared).1.elim filled different
    · intro ending member other ofService same
      obtain ⟨service, among, rfl⟩ := List.mem_map.mp ofService
      obtain ⟨one, underscore⟩ := (joined service among).ending
      rw [same] at member
      rcases List.mem_append.mp member with shared | model
      · exact (sharedEndings_apart _ shared).2 underscore
      · obtain ⟨name, -, same⟩ := List.mem_map.mp model
        rw [← same] at one
        exact (modelEnding_apart package name).2 one

end OpenApiClient.Naming
