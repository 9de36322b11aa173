import OpenApiClient.Document.Reader
import OpenApiClient.Naming.OperationName
import OpenApiClient.Proofs.Inflections

/-! Names of operations that are made from their methods and paths: a verb, and after it the names of the resources on
the path. They are canonical, but where the singular takes the last word of a resource. A collection and the items in
it have names of one resource where the plural leads back to the word that it was made from. -/

namespace OpenApiClient.Naming

open Text

def resourceNames (path : String) : List String :=
  ((resourceSegments path).map fun segment => String.ofList (sanitize segment)).filter fun name => !name.isEmpty

def inflected (verb : String) (identified : Bool) (resource : String) : String :=
  if verb = "list" then pluralize resource
  else if identified = true ∨ verb = "create" then singularize resource
  else resource

def operationObject (verb : String) (identified : Bool) : List String → String
  | [] => "root"
  | [resource] => inflected verb identified resource
  | resources => "_".intercalate resources

theorem operationName_eq (method path : String) :
    operationName method path = verb method (hasPlaceholder path) ++ "_" ++
      operationObject (verb method (hasPlaceholder path)) (hasPlaceholder path) (resourceNames path) := by
  rw [operationName, ← resourceNames]
  dsimp only
  split
  case h_1 none => rw [none, String.append_assoc]; rfl
  case h_2 resource single => simp [single, operationObject, inflected]
  case h_3 several alone =>
    cases named : resourceNames path with
    | nil => exact absurd named several
    | cons resource rest =>
        cases rest with
        | nil => exact absurd named (alone resource)
        | cons next rest => rfl

/-! Verbs. -/

structure IsVerb (verb lowered : String) (identified : Bool) : Prop where
  letters : ∀ c ∈ verb.toList, isAsciiLower c = true
  filled : verb ≠ ""
  list_iff : verb = "list" ↔ lowered = "get" ∧ identified = false
  create_iff : verb = "create" ↔ lowered = "post"

theorem verb_isVerb {method : String} (read : lowerText method ∈ httpMethods) (identified : Bool) :
    IsVerb (verb method identified) (lowerText method) identified := by
  unfold verb
  generalize lowerText method = lowered at read ⊢
  simp only [httpMethods, List.mem_cons, List.not_mem_nil, or_false] at read
  rcases read with rfl | rfl | rfl | rfl | rfl | rfl | rfl | rfl <;> cases identified <;>
    exact ⟨List.all_eq_true.mp (by decide), by decide, by decide, by decide⟩

/-! Objects. -/

theorem resourceNames_isSnakeStem (path : String) : ∀ name ∈ resourceNames path, IsSnakeStem name := by
  intro name member
  obtain ⟨among, filled⟩ := List.mem_filter.mp member
  obtain ⟨segment, -, rfl⟩ := List.mem_map.mp among
  exact isSnakeStem_ofList ⟨sanitize_isSanitized segment, by simpa using filled⟩

/-- The only resource of the path is put into the singular, and its last word is an s alone, of which the singular
leaves nothing. -/
def LosesWord (method path : String) : Prop :=
  (hasPlaceholder path = true ∨ lowerText method = "post") ∧
    ∃ resource, resourceNames path = [resource] ∧ EndsInBareS resource.toList

theorem singular_iff {verb lowered : String} {identified : Bool} (own : IsVerb verb lowered identified) :
    (verb ≠ "list" ∧ (identified = true ∨ verb = "create")) ↔ identified = true ∨ lowered = "post" := by
  rw [own.create_iff, Ne, own.list_iff]
  cases identified with
  | true => simp
  | false =>
      have apart : lowered = "post" → lowered ≠ "get" := by
        rintro rfl
        decide
      simpa using apart

theorem inflected_isSnakeStem {verb resource : String} {identified : Bool} (own : IsSnakeStem resource)
    (kept : verb ≠ "list" ∧ (identified = true ∨ verb = "create") → ¬EndsInBareS resource.toList) :
    IsSnakeStem (inflected verb identified resource) := by
  unfold inflected
  split
  case isTrue => exact own.pluralize
  case isFalse unlisted =>
    split
    case isTrue item => exact own.singularize (kept ⟨unlisted, item⟩)
    case isFalse => exact own

theorem operationObject_isSnakeStem {method path : String} (read : lowerText method ∈ httpMethods)
    (kept : ¬LosesWord method path) :
    IsSnakeStem (operationObject (verb method (hasPlaceholder path)) (hasPlaceholder path) (resourceNames path)) := by
  have own := resourceNames_isSnakeStem path
  unfold operationObject
  split
  case h_1 => exact .of_letters (List.all_eq_true.mp (by decide)) (by decide)
  case h_2 resource single =>
    refine inflected_isSnakeStem (own resource (by simp [single])) fun singular bare => ?_
    exact kept ⟨(singular_iff (verb_isVerb read _)).mp singular, resource, single, bare⟩
  case h_3 several _ => exact isSnakeStem_intercalate several own

/-! Canonical names. -/

def underscored (words : List (List Char)) : List Char := words.flatMap ('_' :: ·)

/-- Words of small letters and digits, two of them or more, the first with a letter first. The name stays as it is when
a method is named by it. -/
structure IsCanonical (name : String) : Prop where
  spelled : ∃ c rest words, name.toList = c :: rest ++ underscored words ∧ isAsciiLower c = true ∧
    (∀ d ∈ rest, isWordLetter d = true) ∧ words ≠ [] ∧
    ∀ word ∈ words, word ≠ [] ∧ ∀ d ∈ word, isWordLetter d = true
  stable : methodName name = name

theorem words_of_snake {name : List Char} (snake : ∀ c ∈ name, isSnakeCharacter c = true)
    (apart : ¬['_', '_'] <:+: name) (closed : name.getLast? ≠ some '_') :
    ∃ first words, name = first ++ underscored words ∧ (∀ c ∈ first, isWordLetter c = true) ∧
      ∀ word ∈ words, word ≠ [] ∧ ∀ c ∈ word, isWordLetter c = true := by
  induction name with
  | nil => exact ⟨[], [], rfl, List.forall_mem_nil _, List.forall_mem_nil _⟩
  | cons c rest ih =>
      obtain ⟨own, others⟩ := List.forall_mem_cons.mp snake
      have apartRest : ¬['_', '_'] <:+: rest := fun within => apart (within.trans (List.suffix_cons c _).isInfix)
      have closedRest : rest.getLast? ≠ some '_' := fun last => closed (by simp [List.getLast?_cons, last])
      obtain ⟨first, words, rfl, letters, each⟩ := ih others apartRest closedRest
      rcases isSnakeCharacter_iff.mp own with letter | rfl
      · exact ⟨c :: first, words, rfl, List.forall_mem_cons.mpr ⟨letter, letters⟩, each⟩
      · -- The underscore begins a word, which is not empty: neither the end nor another underscore comes next.
        have filled : first ≠ [] := by
          rintro rfl
          cases words with
          | nil => exact closed rfl
          | cons word words => exact apart ⟨[], word ++ underscored words, rfl⟩
        exact ⟨[], first :: words, rfl, List.forall_mem_nil _, List.forall_mem_cons.mpr ⟨⟨filled, letters⟩, each⟩⟩

theorem isSnakeCharacter_of_lower {c : Char} (small : isAsciiLower c = true) : isSnakeCharacter c = true :=
  isSnakeCharacter_iff.mpr (.inl (isWordLetter_of_lower small))

theorem not_digit_of_lower {c : Char} (small : isAsciiLower c = true) :
    isDigit c = false ∧ isDecimalDigit c = false := by
  have ascii := isIdentifierCharacter_ascii (snake_identifier (isSnakeCharacter_of_lower small))
  have checked := of_ascii (fun c => !isAsciiLower c || !isDigit c && !isDecimalDigit c) (by decide) ascii
  simpa [small] using checked

theorem isCanonical_of_sanitized {name : String} (own : IsSanitized name.toList)
    (start : ∃ c letters, name.toList = c :: letters ∧ isAsciiLower c = true) (marked : '_' ∈ name.toList) :
    IsCanonical name where
  spelled := by
    obtain ⟨c, letters, same, small⟩ := start
    obtain ⟨first, words, parts, only, each⟩ := words_of_snake own.snake own.apart own.closed
    have started : first ++ underscored words = c :: letters := parts.symm.trans same
    rcases List.append_eq_cons_iff.mp started with ⟨-, opened⟩ | ⟨rest, rfl, -⟩
    · -- Without a first word, the name would start with an underscore or be empty.
      cases words with
      | nil => contradiction
      | cons word words =>
          obtain ⟨rfl, -⟩ := List.cons.inj opened
          exact absurd small (by decide)
    · refine ⟨c, rest, words, parts, small, (List.forall_mem_cons.mp only).2, ?_, each⟩
      rintro rfl
      rw [parts, underscored, List.flatMap_nil, List.append_nil] at marked
      exact absurd (only _ marked) (by decide)
  stable := by
    have filled : name ≠ "" := by
      rintro rfl
      contradiction
    obtain ⟨c, letters, same, small⟩ := start
    have noDigit : startsWithDigit name = false := by simpa [startsWithDigit, same] using (not_digit_of_lower small).1
    rw [methodName_eq, methodStem_of_sanitized own filled noDigit, isKeyword_underscore marked]
    rfl

theorem underscored_closed {words : List (List Char)} (filled : words ≠ [])
    (each : ∀ word ∈ words, word ≠ [] ∧ ∀ c ∈ word, isWordLetter c = true) :
    (underscored words).getLast? ≠ some '_' := by
  obtain ⟨front, last, rfl⟩ := (List.eq_nil_or_concat' words).resolve_left filled
  obtain ⟨some, letters⟩ := each last (by simp)
  have split : underscored (front ++ [last]) = underscored front ++ '_' :: last := by simp [underscored]
  rw [split, List.getLast?_append_of_ne_nil _ (List.cons_ne_nil _ _), ← List.singleton_append,
    List.getLast?_append_of_ne_nil _ some]
  exact fun ended => absurd (letters _ (List.mem_of_getLast? ended)) (by decide)

theorem IsCanonical.closed {name : String} (canonical : IsCanonical name) : ¬EndsOpen name := by
  obtain ⟨c, rest, words, spelled, -, -, filled, each⟩ := canonical.spelled
  have some : underscored words ≠ [] := by simpa [underscored] using List.exists_mem_of_ne_nil words filled
  rw [EndsOpen, spelled, List.getLast?_append_of_ne_nil _ some]
  exact underscored_closed filled each

theorem operationName_open {method path : String} (read : lowerText method ∈ httpMethods)
    (lost : LosesWord method path) : EndsOpen (operationName method path) := by
  obtain ⟨singular, resource, single, bare⟩ := lost
  obtain ⟨unlisted, item⟩ := (singular_iff (verb_isVerb read _)).mpr singular
  have object : operationObject (verb method (hasPlaceholder path)) (hasPlaceholder path) (resourceNames path) =
      singularize resource := by
    rw [single, operationObject, inflected, if_neg unlisted, if_pos item]
  rw [operationName_eq, object, EndsOpen, String.toList_append, singularize_bare bare, String.toList_append]
  -- What is left of the resource is nothing, or ends in the underscore before the s.
  rcases bare with alone | ⟨start, after⟩
  · simp [alone]
  · simp [← after, List.getLast?_cons]

/-- The name of every operation is canonical, but where the singular takes the last word of a resource. -/
theorem operationName_isCanonical_iff {method : String} (read : lowerText method ∈ httpMethods) (path : String) :
    IsCanonical (operationName method path) ↔ ¬LosesWord method path := by
  constructor
  · exact fun canonical lost => canonical.closed (operationName_open read lost)
  · intro kept
    have verbal := verb_isVerb read (hasPlaceholder path)
    have stem : IsSnakeStem (verb method (hasPlaceholder path)) :=
      .of_letters (fun c member => isWordLetter_of_lower (verbal.letters c member)) verbal.filled
    have whole := stem.join (operationObject_isSnakeStem read kept)
    rw [operationName_eq]
    refine isCanonical_of_sanitized whole.sanitized ?_ (by simp)
    obtain ⟨c, letters, same⟩ := List.exists_cons_of_ne_nil stem.letters_ne_nil
    rw [String.toList_append, String.toList_append, same]
    exact ⟨c, _, rfl, verbal.letters c (by simp [same])⟩

theorem apiKey_canonical :
    lowerText "DELETE" ∈ httpMethods ∧ ¬LosesWord "DELETE" "/api/v2/apiKeys/{id}" ∧
      operationName "DELETE" "/api/v2/apiKeys/{id}" = "delete_api_key" ∧
      IsCanonical (operationName "DELETE" "/api/v2/apiKeys/{id}") := by
  have read : lowerText "DELETE" ∈ httpMethods := by decide
  have named : resourceNames "/api/v2/apiKeys/{id}" = ["api_keys"] := by decide
  have kept : ¬LosesWord "DELETE" "/api/v2/apiKeys/{id}" := by
    rintro ⟨-, resource, single, bare⟩
    obtain ⟨rfl, -⟩ := List.cons.inj (named.symm.trans single)
    exact absurd bare (by decide)
  exact ⟨read, kept, by decide, (operationName_isCanonical_iff read _).mpr kept⟩

/-- Where codes of short links are kept under s, the name of the operation ends after the verb. -/
theorem shortLink_not_canonical :
    lowerText "get" ∈ httpMethods ∧ operationName "get" "/s/{code}" = "get_" ∧
      methodName "get_" = "get" ∧ ¬IsCanonical (operationName "get" "/s/{code}") := by
  have named : operationName "get" "/s/{code}" = "get_" := by decide
  have renamed : methodName "get_" = "get" := by decide
  refine ⟨by decide, named, renamed, fun canonical => ?_⟩
  have same := canonical.stable
  rw [named, renamed] at same
  exact absurd same (by decide)

/-! Operations on one resource. -/

def IsCollection (path name : String) : Prop := resourceNames path = [name] ∧ hasPlaceholder path = false

def IsItem (path name : String) : Prop := resourceNames path = [name] ∧ hasPlaceholder path = true

def itemVerbs : List (String × String) := [("get", "get"), ("put", "update"), ("patch", "update"), ("delete", "delete")]

/-- A collection that has the plural of a word for its name is listed under that plural, and what is done to one item
of it is named by the word. -/
structure NamesOneResource (word : String) : Prop where
  returned : singularize (pluralize word) = word
  placed : IsCollection ("/" ++ pluralize word) (pluralize word) ∧
    IsItem ("/" ++ pluralize word ++ "/{id}") (pluralize word)
  collection : ∀ method path, lowerText method = "get" → IsCollection path (pluralize word) →
    operationName method path = "list_" ++ pluralize word
  items : ∀ method path itemVerb, (lowerText method, itemVerb) ∈ itemVerbs → IsItem path (pluralize word) →
    operationName method path = itemVerb ++ "_" ++ word

variable {word : String}

theorem operationName_collection {method path name : String} (read : lowerText method = "get")
    (collection : IsCollection path name) : operationName method path = "list_" ++ pluralize name := by
  have listed : verb method false = "list" := by rw [verb, read]; rfl
  rw [operationName_eq, collection.1, collection.2, listed]
  rfl

theorem operationName_item {method path name itemVerb : String} (read : (lowerText method, itemVerb) ∈ itemVerbs)
    (item : IsItem path name) : operationName method path = itemVerb ++ "_" ++ singularize name := by
  have named : verb method true = itemVerb ∧ itemVerb ≠ "list" := by
    unfold verb
    generalize lowerText method = lowered at read ⊢
    simp only [itemVerbs, List.mem_cons, List.not_mem_nil, or_false, Prod.mk.injEq] at read
    rcases read with ⟨rfl, rfl⟩ | ⟨rfl, rfl⟩ | ⟨rfl, rfl⟩ | ⟨rfl, rfl⟩ <;> exact ⟨rfl, by decide⟩
  rw [operationName_eq, item.1, item.2, named.1, operationObject, inflected, if_neg named.2, if_pos (.inl rfl)]

theorem isVersion_letters {letters : List Char} (small : ∀ c ∈ letters, isAsciiLower c = true) :
    isVersion letters = false := by
  unfold isVersion
  split
  case h_1 rest =>
    cases rest with
    | nil => rfl
    | cons c rest => simp [(not_digit_of_lower (small c (by simp))).2]
  case h_2 => rfl

theorem isPlaceholder_letters {letters : List Char} (small : ∀ c ∈ letters, isAsciiLower c = true) :
    isPlaceholder letters = false := by
  rw [isPlaceholder, beq_eq_false_iff_ne]
  exact fun first => absurd (small '{' (List.mem_of_head? first)) (by decide)

/-- A segment of small letters alone is the resource of a path with nothing but placeholders after it. -/
theorem resourceNames_of_segments {path name : String} {rest : List (List Char)}
    (only : segments path = name.toList :: rest) (small : ∀ c ∈ name.toList, isAsciiLower c = true) (filled : name ≠ "")
    (other : name ≠ "api") (placeholders : ∀ segment ∈ rest, isPlaceholder segment = true) :
    resourceNames path = [name] := by
  have own : IsSnakeStem name := .of_letters (fun c member => isWordLetter_of_lower (small c member)) filled
  have opened : dropFirst (· == "api".toList) (name.toList :: rest) = name.toList :: rest := by
    rw [dropFirst, if_neg]
    simpa [← String.toList_inj] using other
  have unversioned : dropFirst isVersion (name.toList :: rest) = name.toList :: rest := by
    rw [dropFirst, if_neg]
    simp [isVersion_letters small]
  have resources : resourceSegments path = [name.toList] := by
    rw [resourceSegments, only, opened, unversioned, List.filter_cons_of_pos (by simp [isPlaceholder_letters small]),
      List.filter_eq_nil_iff.mpr fun segment member => by simp [placeholders segment member]]
  rw [resourceNames, resources, List.map_singleton, own.sanitized.sanitize, String.ofList_toList]
  simp [filled]

theorem placed_of_letters {name : String} (small : ∀ c ∈ name.toList, isAsciiLower c = true) (filled : name ≠ "")
    (other : name ≠ "api") : IsCollection ("/" ++ name) name ∧ IsItem ("/" ++ name ++ "/{id}") name := by
  have slashless : '/' ∉ name.toList := fun member => absurd (small '/' member) (by decide)
  have collection : segments ("/" ++ name) = [name.toList] := by
    simp [segments, splitAt, splitAt_whole slashless, filled]
  have item : segments ("/" ++ name ++ "/{id}") = [name.toList, "{id}".toList] := by
    simp [segments, splitAt, splitAt_append slashless, filled]
  refine ⟨⟨resourceNames_of_segments collection small filled other (List.forall_mem_nil _), ?_⟩,
    resourceNames_of_segments item small filled other (by decide), ?_⟩
  · simp [hasPlaceholder, collection, isPlaceholder_letters small]
  · have identified : isPlaceholder "{id}".toList = true := by decide
    rw [hasPlaceholder, item, List.any_cons, List.any_cons, identified, Bool.true_or, Bool.or_true]

theorem namesOneResource_iff (filled : word ≠ "") (small : ∀ c ∈ word.toList, isAsciiLower c = true)
    (single : word.toList.getLast? ≠ some 's') (regular : ∀ noun ∈ irregularNouns, word ≠ noun.2) :
    NamesOneResource word ↔ ¬LosesPlural word := by
  have returned_iff := singularize_pluralize_iff single regular
  constructor
  · exact fun names => returned_iff.mp names.returned
  · intro kept
    have returned := returned_iff.mpr kept
    have stable := pluralize_stable single regular fun borrowed => kept (.inl borrowed)
    refine ⟨returned, ?_, fun method path read collection => ?_, fun method path itemVerb read item => ?_⟩
    · have plural : IsSnakeStem word := .of_letters (fun c member => isWordLetter_of_lower (small c member)) filled
      refine placed_of_letters (pluralize_letters small) plural.pluralize.filled fun same => ?_
      have irregular : ∀ noun ∈ irregularNouns, noun.2 ≠ "api" := by decide
      rcases pluralize_cases word with ⟨noun, member, own⟩ | own
      · exact irregular noun member (own.symm.trans same)
      · have last := regularPlural_getLast? word.toList
        rw [← String.toList_ofList (l := regularPlural word.toList), ← own, same] at last
        exact absurd last (by decide)
    · rw [operationName_collection read collection, stable]
    · rw [operationName_item read item, returned]

theorem category_named :
    NamesOneResource "category" ∧ operationName "GET" "/v1/categories" = "list_categories" ∧
      operationName "PATCH" "/v1/categories/{id}" = "update_category" := by
  have names : NamesOneResource "category" :=
    (namesOneResource_iff (by decide) (List.all_eq_true.mp (by decide)) (by decide) (by decide)).mpr (by decide)
  have collection : IsCollection "/v1/categories" (pluralize "category") := ⟨by decide, by decide⟩
  have item : IsItem "/v1/categories/{id}" (pluralize "category") := ⟨by decide, by decide⟩
  refine ⟨names, ?_, ?_⟩
  · rw [names.collection "GET" _ (by decide) collection]
    decide
  · exact names.items "PATCH" _ "update" (by decide) item

/-- One of many movies is a movy. -/
theorem movie_lost :
    "movie" ≠ "" ∧ (∀ c ∈ "movie".toList, isAsciiLower c = true) ∧ "movie".toList.getLast? ≠ some 's' ∧
      (∀ noun ∈ irregularNouns, "movie" ≠ noun.2) ∧
      pluralize "movie" = "movies" ∧ singularize "movies" = "movy" ∧
      operationName "get" "/movies" = "list_movies" ∧ operationName "get" "/movies/{id}" = "get_movy" ∧
      ¬NamesOneResource "movie" := by
  have plural : pluralize "movie" = "movies" := by decide
  have singular : singularize "movies" = "movy" := by decide
  refine ⟨by decide, List.all_eq_true.mp (by decide), by decide, by decide, plural, singular, by decide,
    by decide, ?_⟩
  intro names
  have returned := names.returned
  rw [plural, singular] at returned
  exact absurd returned (by decide)

end OpenApiClient.Naming
