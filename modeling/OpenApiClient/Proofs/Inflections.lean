import OpenApiClient.Naming.Plural
import OpenApiClient.Proofs.StableNames

/-! Plurals and singulars of resource names. Both keep names in snake case, but for the singular of a name whose last
word is an s alone. The singular of a plural is the word that it was made from, but for the endings that are read as the
plural of a shorter word. -/

namespace OpenApiClient.Naming

open Text

def isWordLetter (c : Char) : Bool := isAsciiLower c || isAsciiDigit c

theorem isSnakeCharacter_iff {c : Char} : isSnakeCharacter c = true ↔ isWordLetter c = true ∨ c = '_' := by
  simp [isSnakeCharacter, isWordLetter]

theorem isWordLetter_of_lower {c : Char} (small : isAsciiLower c = true) : isWordLetter c = true := by
  simp [isWordLetter, small]

theorem IsSanitized.ending {name start rest : List Char} (own : IsSanitized name) (within : start <+: name)
    (letters : ∀ c ∈ rest, isWordLetter c = true) (filled : rest ≠ []) : IsSanitized (start ++ rest) := by
  have unmarked : '_' ∉ rest := fun member => absurd (letters '_' member) (by decide)
  refine ⟨?_, ?_, ?_, ?_⟩
  · refine List.forall_mem_append.mpr ⟨fun c member => own.snake c (within.subset member), fun c member => ?_⟩
    exact isSnakeCharacter_iff.mpr (.inl (letters c member))
  · refine apart_append (fun inner => own.apart (inner.trans within.isInfix)) ?_ ?_
    · exact fun inner => unmarked (inner.subset List.mem_cons_self)
    · exact fun _ first => unmarked (List.mem_of_head? first)
  · cases start with
    | nil => exact fun first => unmarked (List.mem_of_head? first)
    | cons c start =>
        obtain ⟨more, rfl⟩ := within
        exact own.opened
  · rw [List.getLast?_append_of_ne_nil _ filled]
    exact fun last => unmarked (List.mem_of_getLast? last)

theorem IsSanitized.start {name start : List Char} (own : IsSanitized name) (within : start <+: name)
    (closed : start.getLast? ≠ some '_') : IsSanitized start := by
  have apart : ¬['_', '_'] <:+: start := fun inner => own.apart (inner.trans within.isInfix)
  refine ⟨fun c member => own.snake c (within.subset member), apart, ?_, closed⟩
  cases start with
  | nil => simp
  | cons c start =>
      obtain ⟨more, rfl⟩ := within
      exact own.opened

structure IsSnakeStem (name : String) : Prop where
  sanitized : IsSanitized name.toList
  filled : name ≠ ""

theorem isSnakeStem_ofList {letters : List Char} (own : IsSanitized letters ∧ letters ≠ []) :
    IsSnakeStem (String.ofList letters) :=
  ⟨by rw [String.toList_ofList]; exact own.1, by simpa using own.2⟩

theorem IsSnakeStem.letters_ne_nil {name : String} (own : IsSnakeStem name) : name.toList ≠ [] :=
  mt String.toList_eq_nil_iff.mp own.filled

theorem IsSnakeStem.of_letters {name : String} (letters : ∀ c ∈ name.toList, isWordLetter c = true)
    (filled : name ≠ "") : IsSnakeStem name := by
  have none : IsSanitized [] := ⟨by simp, by decide, by decide, by decide⟩
  exact ⟨none.ending List.prefix_rfl letters (mt String.toList_eq_nil_iff.mp filled), filled⟩

theorem IsSnakeStem.join {first second : String} (own : IsSnakeStem first) (other : IsSnakeStem second) :
    IsSnakeStem (first ++ "_" ++ second) := by
  refine ⟨?_, by simp⟩
  rw [String.toList_append, String.toList_append, List.append_assoc]
  exact own.sanitized.join other.sanitized own.letters_ne_nil other.letters_ne_nil

theorem isSnakeStem_intercalate {names : List String} (filled : names ≠ []) (own : ∀ name ∈ names, IsSnakeStem name) :
    IsSnakeStem ("_".intercalate names) := by
  induction names with
  | nil => contradiction
  | cons name rest ih =>
      obtain ⟨first, others⟩ := List.forall_mem_cons.mp own
      cases rest with
      | nil => simpa using first
      | cons next rest =>
          rw [String.intercalate_cons_cons]
          exact first.join (ih (List.cons_ne_nil _ _) others)

/-! Irregular nouns. -/

theorem irregularPlural?_some {word plural : String} (found : irregularPlural? word = some plural) :
    (word, plural) ∈ irregularNouns := by
  obtain ⟨before, after, listed, -⟩ := List.lookup_eq_some_iff.mp found
  simp [listed]

theorem irregularSingular?_some {word singular : String} (found : irregularSingular? word = some singular) :
    (singular, word) ∈ irregularNouns := by
  obtain ⟨before, after, listed, -⟩ := List.lookup_eq_some_iff.mp found
  have member : (word, singular) ∈ before ++ (word, singular) :: after := by simp
  rw [← listed] at member
  obtain ⟨⟨_, _⟩, among, same⟩ := List.mem_map.mp member
  obtain ⟨rfl, rfl⟩ := Prod.mk.inj same
  exact among

theorem irregularPlural?_none {word : String} (regular : ∀ noun ∈ irregularNouns, word ≠ noun.1) :
    irregularPlural? word = none :=
  Option.eq_none_iff_forall_ne_some.mpr fun _ found => regular _ (irregularPlural?_some found) rfl

theorem irregularSingular?_none {word : String} (regular : ∀ noun ∈ irregularNouns, word ≠ noun.2) :
    irregularSingular? word = none :=
  Option.eq_none_iff_forall_ne_some.mpr fun _ found => regular _ (irregularSingular?_some found) rfl

/-! Regular nouns. -/

theorem prefix_of_reverse (ending : List Char) {word stem : List Char} (same : word.reverse = ending ++ stem) :
    stem.reverse <+: word :=
  ⟨ending.reverse, by rw [← List.reverse_append, ← same, List.reverse_reverse]⟩

theorem IsSanitized.respelled {word stem : List Char} (own : IsSanitized word) (ending letters : List Char)
    (same : word.reverse = ending ++ stem) (spelled : letters.all isWordLetter = true) (filled : letters ≠ []) :
    IsSanitized (letters ++ stem).reverse ∧ (letters ++ stem).reverse ≠ [] := by
  refine ⟨?_, by simp [filled]⟩
  rw [List.reverse_append]
  refine own.ending (prefix_of_reverse ending same) (fun c member => ?_) (by simpa)
  exact List.all_eq_true.mp spelled c (List.mem_reverse.mp member)

theorem regularPlural_cases (word : List Char) :
    regularPlural word = word ++ ['s'] ∨ (∃ before, before <+: word ∧ regularPlural word = before ++ ['i', 'e', 's']) ∨
      regularPlural word = word ∧ word.getLast? = some 's' := by
  unfold regularPlural
  split
  case h_1 rest same => exact .inr (.inr ⟨rfl, by rw [← List.head?_reverse, same, List.head?_cons]⟩)
  case h_2 before same =>
    split
    · exact .inl rfl
    · exact .inr (.inl ⟨before.reverse, prefix_of_reverse ['y'] same, rfl⟩)
  case h_3 => exact .inl rfl

theorem regularPlural_isSanitized {word : List Char} (own : IsSanitized word) (filled : word ≠ []) :
    IsSanitized (regularPlural word) ∧ regularPlural word ≠ [] := by
  rcases regularPlural_cases word with added | ⟨before, within, turned⟩ | ⟨same, -⟩
  · rw [added]
    exact ⟨own.ending List.prefix_rfl (List.all_eq_true.mp (by decide)) (by decide), by simp⟩
  · rw [turned]
    exact ⟨own.ending within (List.all_eq_true.mp (by decide)) (by decide), by simp⟩
  · rw [same]
    exact ⟨own, filled⟩

theorem regularPlural_letters {word : List Char} (small : ∀ c ∈ word, isAsciiLower c = true) :
    ∀ c ∈ regularPlural word, isAsciiLower c = true := by
  rcases regularPlural_cases word with added | ⟨before, within, turned⟩ | ⟨same, -⟩
  · rw [added]
    exact List.forall_mem_append.mpr ⟨small, List.all_eq_true.mp (by decide)⟩
  · rw [turned]
    exact List.forall_mem_append.mpr ⟨fun c member => small c (within.subset member), List.all_eq_true.mp (by decide)⟩
  · rwa [same]

theorem regularPlural_getLast? (word : List Char) : (regularPlural word).getLast? = some 's' := by
  rcases regularPlural_cases word with added | ⟨before, -, turned⟩ | ⟨same, ended⟩
  · simp [added]
  · simp [turned]
  · rwa [same]

theorem regularPlural_stable (word : List Char) : regularPlural (regularPlural word) = regularPlural word := by
  obtain ⟨stem, ended⟩ := List.getLast?_eq_some_iff.mp (regularPlural_getLast? word)
  rw [ended, regularPlural, List.reverse_concat]
  rfl

def EndsInBareS (name : List Char) : Prop := name = ['s'] ∨ ['_', 's'] <:+ name

instance (name : List Char) : Decidable (EndsInBareS name) := inferInstanceAs (Decidable (_ ∨ _))

/-- An s is no ending of the words that it is the whole of. -/
theorem endsInBareS_iff {word stem : List Char} (same : word.reverse = 's' :: stem) :
    EndsInBareS word ↔ stem = [] ∨ stem.head? = some '_' := by
  rw [EndsInBareS, ← List.reverse_prefix, same, ← List.reverse_inj, same]
  cases stem with
  | nil => simp
  | cons c stem => simp [eq_comm]

theorem regularSingular_isSanitized {word : List Char} (own : IsSanitized word) (filled : word ≠ [])
    (joined : ¬EndsInBareS word) : IsSanitized (regularSingular word) ∧ regularSingular word ≠ [] := by
  unfold regularSingular
  split
  case h_1 stem same => exact own.respelled ['s', 'e', 'i'] ['y'] same (by decide) (by decide)
  case h_2 stem same => exact own.respelled ['s', 'e', 's', 's'] ['s', 's'] same (by decide) (by decide)
  case h_3 stem same => exact own.respelled ['s', 'e', 'h', 's'] ['h', 's'] same (by decide) (by decide)
  case h_4 stem same => exact own.respelled ['s', 'e', 'h', 'c'] ['h', 'c'] same (by decide) (by decide)
  case h_5 stem same => exact own.respelled ['s', 'e', 'x'] ['x'] same (by decide) (by decide)
  case h_6 => exact ⟨own, filled⟩
  case h_7 stem _ _ _ _ _ _ same =>
    rw [endsInBareS_iff same, not_or] at joined
    refine ⟨own.start (prefix_of_reverse ['s'] same) ?_, by simpa using joined.1⟩
    rw [List.getLast?_reverse]
    exact joined.2
  case h_8 => exact ⟨own, filled⟩

theorem regularSingular_bare {word : List Char} (bare : EndsInBareS word) : regularSingular word = word.dropLast := by
  obtain ⟨stem, same⟩ : ∃ stem, word.reverse = 's' :: stem := by
    rcases bare with rfl | ⟨start, rfl⟩
    · exact ⟨[], rfl⟩
    · exact ⟨'_' :: start.reverse, by simp⟩
  rw [endsInBareS_iff same] at bare
  have stemmed : stem.reverse = word.dropLast := by
    rw [← List.reverse_inj, List.reverse_reverse, ← List.tail_reverse, same, List.tail_cons]
  rw [← stemmed, regularSingular, same]
  rcases bare with rfl | marked
  · rfl
  · obtain ⟨rest, rfl⟩ := List.head?_eq_some_iff.mp marked
    rfl

/-! Names. -/

variable {word : String}

theorem pluralize_regular (noPlural : irregularPlural? word = none) (noSingular : irregularSingular? word = none) :
    pluralize word = String.ofList (regularPlural word.toList) := by
  rw [pluralize, noPlural, noSingular]
  rfl

theorem singularize_regular (noPlural : irregularPlural? word = none) (noSingular : irregularSingular? word = none) :
    singularize word = String.ofList (regularSingular word.toList) := by
  rw [singularize, noPlural, noSingular]
  rfl

theorem pluralize_cases (word : String) :
    (∃ noun ∈ irregularNouns, pluralize word = noun.2) ∨
      pluralize word = String.ofList (regularPlural word.toList) := by
  unfold pluralize
  split
  case h_1 plural found => exact .inl ⟨_, irregularPlural?_some found, rfl⟩
  case h_2 =>
    split
    case isTrue plural =>
      obtain ⟨singular, found⟩ := Option.isSome_iff_exists.mp plural
      exact .inl ⟨_, irregularSingular?_some found, rfl⟩
    case isFalse => exact .inr rfl

theorem singularize_cases (word : String) :
    (∃ noun ∈ irregularNouns, singularize word = noun.1) ∨
      singularize word = String.ofList (regularSingular word.toList) := by
  unfold singularize
  split
  case h_1 singular found => exact .inl ⟨_, irregularSingular?_some found, rfl⟩
  case h_2 =>
    split
    case isTrue singular =>
      obtain ⟨plural, found⟩ := Option.isSome_iff_exists.mp singular
      exact .inl ⟨_, irregularPlural?_some found, rfl⟩
    case isFalse => exact .inr rfl

theorem irregular_isSnakeStem : ∀ noun ∈ irregularNouns, IsSnakeStem noun.1 ∧ IsSnakeStem noun.2 := by
  have kept : ∀ noun ∈ irregularNouns, (sanitize noun.1.toList = noun.1.toList ∧ noun.1 ≠ "") ∧
      (sanitize noun.2.toList = noun.2.toList ∧ noun.2 ≠ "") := by decide
  have sanitized : ∀ {name : String}, sanitize name.toList = name.toList → IsSanitized name.toList :=
    fun same => same ▸ sanitize_isSanitized _
  intro noun member
  obtain ⟨⟨singular, filled⟩, plural, filledPlural⟩ := kept noun member
  exact ⟨⟨sanitized singular, filled⟩, ⟨sanitized plural, filledPlural⟩⟩

theorem IsSnakeStem.pluralize (own : IsSnakeStem word) : IsSnakeStem (pluralize word) := by
  rcases pluralize_cases word with ⟨noun, member, same⟩ | same
  · rw [same]
    exact (irregular_isSnakeStem noun member).2
  · rw [same]
    exact isSnakeStem_ofList (regularPlural_isSanitized own.sanitized own.letters_ne_nil)

theorem IsSnakeStem.singularize (own : IsSnakeStem word) (joined : ¬EndsInBareS word.toList) :
    IsSnakeStem (singularize word) := by
  rcases singularize_cases word with ⟨noun, member, same⟩ | same
  · rw [same]
    exact (irregular_isSnakeStem noun member).1
  · rw [same]
    exact isSnakeStem_ofList (regularSingular_isSanitized own.sanitized own.letters_ne_nil joined)

theorem pluralize_letters (small : ∀ c ∈ word.toList, isAsciiLower c = true) :
    ∀ c ∈ (pluralize word).toList, isAsciiLower c = true := by
  have irregular : ∀ noun ∈ irregularNouns, noun.2.toList.all isAsciiLower = true := by decide
  rcases pluralize_cases word with ⟨noun, member, same⟩ | same
  · rw [same]
    exact List.all_eq_true.mp (irregular noun member)
  · rw [same, String.toList_ofList]
    exact regularPlural_letters small

theorem irregular_not_bare : ∀ noun ∈ irregularNouns,
    ¬EndsInBareS noun.1.toList ∧ ¬EndsInBareS noun.2.toList := by
  decide

theorem singularize_bare (bare : EndsInBareS word.toList) : (singularize word).toList = word.toList.dropLast := by
  have noPlural : irregularPlural? word = none :=
    irregularPlural?_none fun noun member same => (irregular_not_bare noun member).1 (same ▸ bare)
  have noSingular : irregularSingular? word = none :=
    irregularSingular?_none fun noun member same => (irregular_not_bare noun member).2 (same ▸ bare)
  rw [singularize_regular noPlural noSingular, String.toList_ofList, regularSingular_bare bare]

/-! The singular of a plural. -/

/-- Endings that make a plural look like that of a shorter word. -/
def shortenedEndings : List (List Char) := [['i', 'e'], ['s', 's', 'e'], ['s', 'h', 'e'], ['c', 'h', 'e'], ['x', 'e']]

/-- An s is taken from a word again, unless it makes a longer ending with what is before it. -/
theorem regularSingular_added (letters : List Char) (single : letters.head? ≠ some 's') :
    regularSingular ('s' :: letters).reverse = letters.reverse ↔
      ∀ ending ∈ shortenedEndings, ¬ending.reverse <+: letters := by
  simp only [shortenedEndings, List.forall_mem_cons, List.not_mem_nil, false_implies, implies_true, and_true]
  unfold regularSingular
  rw [List.reverse_reverse]
  split
  case h_7 stem ie sse she che xe _ same =>
    obtain rfl := List.tail_eq_of_cons_eq same
    refine iff_of_true rfl ⟨?_, ?_, ?_, ?_, ?_⟩
    · exact fun ⟨rest, begins⟩ => ie rest begins.symm
    · exact fun ⟨rest, begins⟩ => sse rest begins.symm
    · exact fun ⟨rest, begins⟩ => she rest begins.symm
    · exact fun ⟨rest, begins⟩ => che rest begins.symm
    · exact fun ⟨rest, begins⟩ => xe rest begins.symm
  -- Otherwise the word has one of the endings, or ends in an s.
  all_goals simp_all

theorem regularSingular_regularPlural_iff {word : List Char} (single : word.getLast? ≠ some 's') :
    regularSingular (regularPlural word) = word ↔ ∀ ending ∈ shortenedEndings, ¬ending <:+ word := by
  obtain ⟨letters, rfl⟩ : ∃ letters : List Char, word = letters.reverse := ⟨_, word.reverse_reverse.symm⟩
  have added := regularSingular_added letters (by simpa using single)
  rw [List.reverse_cons] at added
  simp only [← List.reverse_prefix, List.reverse_reverse]
  rw [← added, regularPlural, List.reverse_reverse]
  split
  case h_1 => simp at single
  case h_2 before =>
    split
    case isTrue => rfl
    case isFalse =>
      -- The ending ies is turned back, and y is in no ending that a plural is read by.
      refine iff_of_true ?_ ?_ <;> simp [regularSingular]
  case h_3 => rfl

/-- Words with a regular plural that is an irregular noun. -/
def borrowedWords : List String := ["indice", "matrice", "vertice", "analyse", "analysi"]

theorem irregular_borrowed : ∀ noun ∈ irregularNouns, ∀ name ∈ [noun.1, noun.2], ¬['i', 'e', 's'] <:+ name.toList ∧
    (name.toList.getLast? = some 's' → String.ofList name.toList.dropLast ∈ borrowedWords) := by
  decide

theorem borrowed_of_irregular {word : String} (single : word.toList.getLast? ≠ some 's') {noun : String × String}
    (member : noun ∈ irregularNouns) (own : String.ofList (regularPlural word.toList) ∈ [noun.1, noun.2]) :
    word ∈ borrowedWords := by
  obtain ⟨unturned, borrowed⟩ := irregular_borrowed noun member _ own
  rw [String.toList_ofList] at unturned borrowed
  rcases regularPlural_cases word.toList with added | ⟨before, -, turned⟩ | ⟨-, ended⟩
  · simpa [added] using borrowed
  · exact absurd ⟨before, turned.symm⟩ unturned
  · exact absurd ended single

def LosesPlural (word : String) : Prop :=
  word ∈ borrowedWords ∨ ∃ ending ∈ shortenedEndings, ending <:+ word.toList

instance (word : String) : Decidable (LosesPlural word) := inferInstanceAs (Decidable (_ ∨ _))

theorem irregular_returned : ∀ noun ∈ irregularNouns, singularize (pluralize noun.1) = noun.1 ∧
    pluralize (pluralize noun.1) = pluralize noun.1 ∧ ¬LosesPlural noun.1 := by
  decide

theorem borrowed_not_returned : ∀ word ∈ borrowedWords, singularize (pluralize word) ≠ word := by
  decide

theorem plural_regular (single : word.toList.getLast? ≠ some 's') (own : word ∉ borrowedWords) :
    irregularPlural? (String.ofList (regularPlural word.toList)) = none ∧
      irregularSingular? (String.ofList (regularPlural word.toList)) = none := by
  have apart : ∀ noun ∈ irregularNouns, String.ofList (regularPlural word.toList) ∉ [noun.1, noun.2] :=
    fun noun member listed => own (borrowed_of_irregular single member listed)
  constructor
  · exact irregularPlural?_none fun noun member same => apart noun member (by simp [same])
  · exact irregularSingular?_none fun noun member same => apart noun member (by simp [same])

/-- The singular of a plural is the word that it was made from, but for the words that lose their plural. -/
theorem singularize_pluralize_iff (single : word.toList.getLast? ≠ some 's')
    (regular : ∀ noun ∈ irregularNouns, word ≠ noun.2) : singularize (pluralize word) = word ↔ ¬LosesPlural word := by
  cases found : irregularPlural? word with
  | some plural =>
      obtain ⟨returned, -, kept⟩ := irregular_returned _ (irregularPlural?_some found)
      exact iff_of_true returned kept
  | none =>
      by_cases borrowed : word ∈ borrowedWords
      · exact iff_of_false (borrowed_not_returned word borrowed) (not_not_intro (.inl borrowed))
      · obtain ⟨noPlural, noSingular⟩ := plural_regular single borrowed
        rw [pluralize_regular found (irregularSingular?_none regular), singularize_regular noPlural noSingular,
          String.toList_ofList, ← String.toList_inj, String.toList_ofList, regularSingular_regularPlural_iff single]
        simp [LosesPlural, borrowed]

theorem pluralize_stable (single : word.toList.getLast? ≠ some 's')
    (regular : ∀ noun ∈ irregularNouns, word ≠ noun.2) (own : word ∉ borrowedWords) :
    pluralize (pluralize word) = pluralize word := by
  cases found : irregularPlural? word with
  | some plural => exact (irregular_returned _ (irregularPlural?_some found)).2.1
  | none =>
      obtain ⟨noPlural, noSingular⟩ := plural_regular single own
      rw [pluralize_regular found (irregularSingular?_none regular), pluralize_regular noPlural noSingular,
        String.toList_ofList, regularPlural_stable]

end OpenApiClient.Naming
