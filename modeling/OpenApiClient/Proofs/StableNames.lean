import Mathlib.Data.List.Infix
import OpenApiClient.Proofs.AliasClasses
import OpenApiClient.Proofs.Paths
import OpenApiClient.Proofs.SnakeNames

/-! Names that are made from names. What snake case and camel case make is of a form that they leave alone, so that
making a name again changes nothing, and every name that is made can stand in source. -/

namespace OpenApiClient.Naming

open Text

theorem replaced_kept {keep : Char → Bool} {name : List Char} (all : ∀ c ∈ name, keep c = true) :
    name.map (fun c => if keep c then c else '_') = name := by
  refine (List.map_congr_left fun c member => ?_).trans (List.map_id name)
  rw [all c member]
  rfl

/-! Snake case. -/

structure IsSanitized (name : List Char) : Prop where
  snake : ∀ c ∈ name, isSnakeCharacter c = true
  apart : ¬['_', '_'] <:+: name
  opened : name.head? ≠ some '_'
  closed : name.getLast? ≠ some '_'

theorem snakeCharacter_kept {c : Char} (snake : isSnakeCharacter c = true) :
    isAsciiUpper c = false ∧ c ≠ 'Σ' ∧ lowerCharacter c = [c] := by
  have checked := of_ascii
    (fun c => !isSnakeCharacter c || decide (isAsciiUpper c = false ∧ c ≠ 'Σ' ∧ lowerCharacter c = [c]))
    (by decide) (isIdentifierCharacter_ascii (snake_identifier snake))
  simpa [snake] using checked

theorem markWords_snake {name : List Char} (snake : ∀ c ∈ name, isSnakeCharacter c = true) :
    markWords name = name := by
  fun_induction markWords name with
  | case1 before c rest begins ih =>
      have small := (snakeCharacter_kept (snake c (by simp))).1
      simp [beginsWord, small] at begins
  | case2 before c rest inside ih => rw [ih (List.forall_mem_cons.mp snake).2]
  | case3 => rfl

theorem lowerAfter_snake {name : List Char} (snake : ∀ c ∈ name, isSnakeCharacter c = true) (before : List Char) :
    lowerAfter before name = name := by
  induction name generalizing before with
  | nil => rfl
  | cons c rest ih =>
      obtain ⟨first, others⟩ := List.forall_mem_cons.mp snake
      obtain ⟨-, other, same⟩ := snakeCharacter_kept first
      rw [lowerAfter, if_neg other, same, ih others]
      rfl

theorem collapse_apart {name : List Char} (apart : ¬['_', '_'] <:+: name) : collapse name = name := by
  fun_induction collapse name with
  | case1 c d rest both ih =>
      obtain ⟨rfl, rfl⟩ := both
      exact absurd ⟨[], rest, rfl⟩ apart
  | case2 c d rest single ih =>
      rw [ih fun within => apart (within.trans (List.suffix_cons c _).isInfix)]
  | case3 => rfl

theorem strip_of_ends {drop : Char → Bool} {name : List Char} (opened : ∀ c, name.head? = some c → drop c = false)
    (closed : ∀ c, name.getLast? = some c → drop c = false) : strip drop name = name := by
  have start : name.dropWhile drop = name := by
    cases name with
    | nil => rfl
    | cons c rest => simp [opened c rfl]
  have ending : name.reverse.dropWhile drop = name.reverse := by
    cases reversed : name.reverse with
    | nil => rfl
    | cons c rest =>
        have last : name.getLast? = some c := by rw [← List.head?_reverse, reversed, List.head?_cons]
        simp [closed c last]
  rw [strip, start, ending, List.reverse_reverse]

theorem IsSanitized.sanitize {name : List Char} (own : IsSanitized name) : sanitize name = name := by
  have cased : snakeCase name = name := by
    rw [snakeCase, markWords_snake own.snake]
    exact lowerAfter_snake own.snake []
  rw [Naming.sanitize, cased, replaced_kept own.snake, collapse_apart own.apart]
  refine strip_of_ends (fun c first => ?_) (fun c last => ?_)
  · have different : c ≠ '_' := fun same => own.opened (same ▸ first)
    simpa using different
  · have different : c ≠ '_' := fun same => own.closed (same ▸ last)
    simpa using different

theorem collapse_head? (text : List Char) : (collapse text).head? = text.head? := by
  fun_induction collapse text with
  | case1 c d rest both ih => rw [ih, both.1, both.2, List.head?_cons, List.head?_cons]
  | case2 => rfl
  | case3 => rfl

theorem collapse_single (text : List Char) : ¬['_', '_'] <:+: collapse text := by
  fun_induction collapse text with
  | case1 c d rest both ih => exact ih
  | case2 c d rest single ih =>
      rw [List.infix_cons_iff, not_or]
      refine ⟨?_, ih⟩
      rintro ⟨following, same⟩
      obtain ⟨rfl, later⟩ := List.cons.inj same
      have first := collapse_head? (d :: rest)
      rw [← later, List.head?_cons] at first
      exact single ⟨rfl, (Option.some.inj first).symm⟩
  | case3 short stops =>
      intro within
      have bound := within.length_le
      match short with
      | [] | [_] => simp at bound
      | c :: d :: rest => exact stops c d rest rfl

theorem strip_within (drop : Char → Bool) (text : List Char) : strip drop text <:+: text := by
  have inner := List.dropWhile_suffix drop (l := (text.dropWhile drop).reverse)
  rw [← List.reverse_prefix, List.reverse_reverse] at inner
  exact inner.isInfix.trans (List.dropWhile_suffix drop).isInfix

theorem sanitize_isSanitized (name : List Char) : IsSanitized (sanitize name) := by
  refine ⟨?_, ?_, ?_, ?_⟩
  · have snake := sanitizeSegment_snake (String.ofList name)
    rwa [sanitizeSegment, String.toList_ofList, String.toList_ofList] at snake
  · exact fun within => collapse_single _ (within.trans (strip_within _ _))
  · exact fun first => absurd (strip_head _ _ first) (by decide)
  · exact fun last => absurd (strip_getLast _ _ last) (by decide)

theorem sanitizeSegment_stable (name : String) : sanitizeSegment (sanitizeSegment name) = sanitizeSegment name := by
  have own := (sanitize_isSanitized name.toList).sanitize
  rw [sanitizeSegment, sanitizeSegment, String.toList_ofList, own]

/-! Method names. -/

theorem apart_append {first second : List Char} (apart : ¬['_', '_'] <:+: first) (apartSecond : ¬['_', '_'] <:+: second)
    (border : first.getLast? = some '_' → second.head? ≠ some '_') : ¬['_', '_'] <:+: first ++ second := by
  rw [List.infix_append_iff]
  rintro (inFirst | inSecond | ⟨before, after, parts, ends, begins⟩)
  · exact apart inFirst
  · exact apartSecond inSecond
  · rcases List.cons_eq_append_iff.mp parts with ⟨-, rfl⟩ | ⟨more, rfl, single⟩
    · exact apartSecond begins.isInfix
    · rcases List.cons_eq_append_iff.mp single with ⟨rfl, rfl⟩ | ⟨none, rfl, empty⟩
      · obtain ⟨start, rfl⟩ := ends
        obtain ⟨rest, rfl⟩ := begins
        exact border (by simp) (by simp)
      · obtain ⟨rfl, -⟩ := List.nil_eq_append_iff.mp empty
        exact apart ends.isInfix

theorem IsSanitized.join {first second : List Char} (own : IsSanitized first) (other : IsSanitized second)
    (filled : first ≠ []) (filledOther : second ≠ []) : IsSanitized (first ++ '_' :: second) := by
  refine ⟨?_, ?_, ?_, ?_⟩
  · exact List.forall_mem_append.mpr ⟨own.snake, List.forall_mem_cons.mpr ⟨by decide, other.snake⟩⟩
  · have mark : ¬['_', '_'] <:+: ['_'] := by decide
    refine apart_append own.apart ?_ fun last => absurd last own.closed
    exact apart_append mark other.apart fun _ => other.opened
  · rw [List.head?_append_of_ne_nil _ filled]
    exact own.opened
  · rw [List.getLast?_append_of_ne_nil _ (List.cons_ne_nil _ _), List.getLast?_cons]
    obtain ⟨c, last⟩ := Option.ne_none_iff_exists'.mp (mt List.getLast?_eq_none_iff.mp filledOther)
    simpa [last] using other.closed

theorem IsSanitized.op {name : List Char} (own : IsSanitized name) (filled : name ≠ []) :
    IsSanitized ("op_".toList ++ name) :=
  have word : IsSanitized "op".toList := ⟨List.all_eq_true.mp (by decide), by decide, by decide, by decide⟩
  word.join own (by decide) filled

theorem sanitizeOr_sanitized (fallback name : String) (own : IsSanitized fallback.toList) (filled : fallback ≠ "") :
    IsSanitized (sanitizeOr fallback name).toList ∧ sanitizeOr fallback name ≠ "" := by
  rcases sanitizeOr_cases fallback name with ⟨-, same⟩ | ⟨some, same⟩
  · rw [same]
    exact ⟨own, filled⟩
  · rw [same, sanitizeSegment, String.toList_ofList, ← sanitizeSegment]
    exact ⟨sanitize_isSanitized name.toList, some⟩

/-- What a method is named by before keywords are told apart. -/
theorem methodStem_sanitized (name : String) : IsSanitized (methodStem name).toList ∧ methodStem name ≠ "" ∧
    startsWithDigit (methodStem name) = false := by
  have fallback : IsSanitized "operation".toList :=
    ⟨List.all_eq_true.mp (by decide), by decide, by decide, by decide⟩
  obtain ⟨own, filled⟩ := sanitizeOr_sanitized "operation" name fallback (by decide)
  unfold methodStem
  dsimp only
  split
  · refine ⟨?_, by simp, startsWithDigit_op _⟩
    rw [String.toList_append]
    exact own.op (mt String.toList_eq_nil_iff.mp filled)
  · rename_i noDigit
    exact ⟨own, filled, by simpa using noDigit⟩

theorem isKeyword_iff {name : String} : isKeyword name = true ↔ name ∈ keywords := List.contains_iff_mem

/-- No keyword has an underscore at its end that snake case would take from it. -/
theorem keywords_underscored : ∀ keyword ∈ keywords, methodStem (keyword ++ "_") = methodStem keyword := by
  decide

theorem methodStem_of_sanitized {name : String} (own : IsSanitized name.toList) (filled : name ≠ "")
    (start : startsWithDigit name = false) : methodStem name = name := by
  have kept : sanitizeSegment name = name := by rw [sanitizeSegment, own.sanitize, String.ofList_toList]
  rw [methodStem, sanitizeOr, kept]
  simp [filled, start]

theorem methodStem_stable (name : String) : methodStem (methodStem name) = methodStem name := by
  obtain ⟨own, filled, start⟩ := methodStem_sanitized name
  exact methodStem_of_sanitized own filled start

theorem methodName_stable (name : String) : methodName (methodName name) = methodName name := by
  rw [methodName_eq_iff_stem, methodName_eq name]
  split
  · rename_i keyword
    exact (keywords_underscored _ (isKeyword_iff.mp keyword)).trans (methodStem_stable name)
  · exact methodStem_stable name

/-! Camel case. -/

/-- A letter of a camel is a capital where a word begins, and capitals stay. -/
theorem camelCharacter_kept {c : Char} (identifier : isIdentifierCharacter c = true) (letter : isLetter c = true) :
    (∃ d, upperCharacter c = [d] ∧ d ≠ '_' ∧ isLetter d = true ∧ isUppercase d = true ∧ upperCharacter d = [d]) ∧
      (isUppercase c = false → lower [c] = [c]) := by
  have ascii := isIdentifierCharacter_ascii identifier
  have checked := of_ascii
    (fun c => !isLetter c ||
      let d := if isAsciiLower c then Char.ofNat (c.toNat - 32) else c
      decide (d ≠ '_' ∧ isLetter d = true ∧ isUppercase d = true ∧ upperCharacter d = [d]) &&
        (isUppercase c || lower [c] == [c]))
    (by decide) ascii
  simp only [letter, Bool.not_true, Bool.false_or, Bool.and_eq_true, decide_eq_true_eq, Bool.or_eq_true,
    beq_iff_eq] at checked
  refine ⟨⟨_, by rw [upperCharacter, if_pos ascii], checked.1⟩, fun small => checked.2.resolve_left ?_⟩
  simp [small]

/-- A camel is read in the same way again. Where it was amid a word when it was made, it has to be amid a word when it
is read. -/
theorem upperCamelFrom_stable {name : List Char} (identifier : ∀ c ∈ name, isIdentifierCharacter c = true)
    {newWord again : Bool} (amid : newWord = false → again = false) :
    upperCamelFrom again (upperCamelFrom newWord name) = upperCamelFrom newWord name := by
  induction name generalizing newWord again with
  | nil => rfl
  | cons c rest ih =>
      obtain ⟨first, others⟩ := List.forall_mem_cons.mp identifier
      rw [upperCamelFrom]
      split
      · exact ih others (by simp)
      · rename_i marked
        split
        · rename_i noLetter
          rw [upperCamelFrom, if_neg marked, if_pos noLetter, ih others (by simp)]
        · rename_i letter
          obtain ⟨⟨d, upper, plain, letterUpper, capital, fixed⟩, small⟩ :=
            camelCharacter_kept first (by simpa using letter)
          split
          · rw [upper, List.singleton_append, upperCamelFrom, if_neg plain, if_neg (by simp [letterUpper]),
              if_pos (by simp [capital]), fixed, ih others (by simp)]
            rfl
          · rename_i inside
            rw [Bool.or_eq_true, not_or, Bool.not_eq_true, Bool.not_eq_true] at inside
            rw [small inside.2, List.singleton_append, upperCamelFrom, if_neg marked, if_neg letter,
              if_neg (by simp [amid inside.1, inside.2]), small inside.2, ih others (by simp)]
            rfl

def openedCamel : List Char → List Char
  | [] => "Anonymous".toList
  | c :: rest => if isDigit c then '_' :: c :: rest else c :: rest

theorem identifierCamel_eq (name : List Char) :
    identifierCamel name = openedCamel (upperCamel (name.map fun c => if isIdentifierCharacter c then c else '_')) :=
  rfl

theorem openedCamel_stable {camel : List Char} (stable : upperCamel camel = camel) :
    openedCamel (upperCamel (openedCamel camel)) = openedCamel camel := by
  cases camel with
  | nil => decide
  | cons c rest =>
      by_cases digit : isDigit c = true
      · have opened : openedCamel (c :: rest) = '_' :: c :: rest := if_pos digit
        have dropped : upperCamel ('_' :: c :: rest) = upperCamel (c :: rest) := rfl
        rw [opened, dropped, stable, opened]
      · have opened : openedCamel (c :: rest) = c :: rest := if_neg digit
        rw [opened, stable, opened]

theorem toIdentifierCamel_stable (name : String) :
    toIdentifierCamel (toIdentifierCamel name) = toIdentifierCamel name := by
  have kept := replaced_kept (identifierCamel_identifier name.toList)
  have stable : upperCamel (upperCamel _) = upperCamel _ :=
    upperCamelFrom_stable (plain_identifier name.toList) (by simp)
  rw [toIdentifierCamel, toIdentifierCamel, String.toList_ofList, identifierCamel_eq (identifierCamel name.toList), kept,
    identifierCamel_eq name.toList, openedCamel_stable stable]

/-! What stands in source. -/

structure IsLegalSnake (name : String) : Prop where
  spelled : ∃ c rest, name.toList = c :: rest ∧ (isAsciiLower c = true ∨ c = '_') ∧
    ∀ d ∈ rest, isAsciiLower d = true ∨ isAsciiDigit d = true ∨ d = '_'
  free : isKeyword name = false

theorem isLegalSnake_of {name : String} (start : (name.toList.head?.map isAsciiDigit).getD true = false)
    (snake : ∀ c ∈ name.toList, isSnakeCharacter c = true) (free : isKeyword name = false) : IsLegalSnake name := by
  have spelled : ∀ c, isSnakeCharacter c = true → isAsciiLower c = true ∨ isAsciiDigit c = true ∨ c = '_' := by
    intro c own
    simpa [isSnakeCharacter, or_assoc] using own
  cases letters : name.toList with
  | nil => simp [letters] at start
  | cons c rest =>
      rw [letters] at start snake
      obtain ⟨first, others⟩ := List.forall_mem_cons.mp snake
      have noDigit : isAsciiDigit c = false := by simpa using start
      refine ⟨⟨c, rest, letters, ?_, fun d member => spelled d (others d member)⟩, free⟩
      simpa [noDigit] using spelled c first

theorem IsSnakeName.isLegalSnake {name : String} (own : IsSnakeName name) : IsLegalSnake name :=
  isLegalSnake_of own.start own.snake own.free

theorem methodStem_start (name : String) : ((methodStem name).toList.head?.map isAsciiDigit).getD true = false := by
  obtain ⟨own, filled, start⟩ := methodStem_sanitized name
  obtain ⟨c, rest, letters⟩ := List.exists_cons_of_ne_nil (mt String.toList_eq_nil_iff.mp filled)
  have identifier : isIdentifierCharacter c = true := snake_identifier (own.snake c (by simp [letters]))
  have noDigit : isDigit c = false := by simpa [startsWithDigit, letters] using start
  simpa [letters] using not_asciiDigit_of_not_digit identifier noDigit

theorem methodName_isLegalSnake (name : String) : IsLegalSnake (methodName name) := by
  obtain ⟨own, filled, -⟩ := methodStem_sanitized name
  have start := methodStem_start name
  rw [methodName_eq]
  split
  · refine isLegalSnake_of ?_ ?_ (isKeyword_underscore (by simp))
    · obtain ⟨c, rest, letters⟩ := List.exists_cons_of_ne_nil (mt String.toList_eq_nil_iff.mp filled)
      simpa [letters] using start
    · rw [String.toList_append]
      exact List.forall_mem_append.mpr ⟨own.snake, List.all_eq_true.mp (by decide)⟩
  · rename_i free
    exact isLegalSnake_of start own.snake (by simpa using free)

def lastComponent (name : String) : String := String.ofList ((splitAt '.' name.toList).getLastD [])

theorem lastComponent_modelModuleIn (package : Option String) (schemaName : String) :
    lastComponent (modelModuleIn package schemaName) = modelModule schemaName := by
  have dotless := modelModule_dotless schemaName
  unfold modelModuleIn lastComponent
  split
  · rw [splitAt_whole dotless]
    exact String.ofList_toList
  · rw [splitAt_whole dotless]
    exact String.ofList_toList
  · rename_i package _
    have joined : (package ++ ".model." ++ modelModule schemaName).toList =
        (package ++ ".model").toList ++ '.' :: (modelModule schemaName).toList := by simp
    rw [joined, splitAt_joined, splitAt_whole dotless]
    simp

structure NamesHold (package : Option String) (name : String) : Prop where
  method : IsLegalSnake (methodName name)
  service : IsLegalSnake (serviceModule name)
  model : IsLegalSnake (lastComponent (modelModuleIn package name))
  camel : Settings.isAsciiIdentifier (toIdentifierCamel name).toList = true
  className : Settings.isAsciiIdentifier (className name).toList = true
  unreserved : Naming.className name ∉ reservedClassNames
  segmentAgain : sanitizeSegment (sanitizeSegment name) = sanitizeSegment name
  methodAgain : methodName (methodName name) = methodName name
  camelAgain : toIdentifierCamel (toIdentifierCamel name) = toIdentifierCamel name

/-- Every name, whatever its characters are, gives method, module and class names that can stand in source, and making
them again changes nothing. -/
theorem names_hold (package : Option String) (name : String) : NamesHold package name where
  method := methodName_isLegalSnake name
  service := (serviceModule_isSnakeName name).isLegalSnake
  model := by
    rw [lastComponent_modelModuleIn]
    exact (modelModule_isSnakeName name).isLegalSnake
  camel := toIdentifierCamel_isIdentifier name
  className := (className_isClassName name).1
  unreserved := fun reserved => by
    have free := className_not_reserved name
    rw [isReservedClassName_iff.mpr reserved] at free
    exact absurd free (by decide)
  segmentAgain := sanitizeSegment_stable name
  methodAgain := methodName_stable name
  camelAgain := toIdentifierCamel_stable name

end OpenApiClient.Naming
