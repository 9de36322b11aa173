import OpenApiClient.Proofs.ClassBodies
import OpenApiClient.Proofs.Identifiers
import OpenApiClient.Unicode.Identifier
import Mathlib.Data.List.TakeWhile

/-! Field names. Keywords and the names that a class needs for itself are always avoided. Whether the names are legal
rests on the properties: the word characters of each must be those of an identifier, and no second property may leave
nothing but underscores. -/

namespace OpenApiClient

namespace Text

def startsIdentifier (c : Char) : Bool :=
  if isAscii c then isAsciiLetter c || c == '_'
  else isLetter c && !within Unicode.letterRangesApart c.toNat || within Unicode.letterLikeRanges c.toNat

def continuesIdentifier (c : Char) : Bool :=
  startsIdentifier c || isDecimalDigit c || !isAscii c && within Unicode.markRanges c.toNat

def isIdentifier : List Char → Bool
  | [] => false
  | c :: rest => startsIdentifier c && rest.all continuesIdentifier

theorem startsIdentifier_continues {c : Char} (starts : startsIdentifier c = true) : continuesIdentifier c = true := by
  simp [continuesIdentifier, starts]

theorem asciiDigit_continues {c : Char} (digit : isAsciiDigit c = true) : continuesIdentifier c = true := by
  have ascii := Naming.isIdentifierCharacter_ascii (c := c) (by simp [Naming.isIdentifierCharacter, digit])
  have checked := of_ascii (fun c => !isAsciiDigit c || continuesIdentifier c) (by decide) ascii
  simpa [digit] using checked

theorem isDigit_ne_underscore {c : Char} (digit : isDigit c = true) : c ≠ '_' := by
  rintro rfl
  exact absurd digit (by decide)

theorem continues_dropWhile (text : List Char) :
    (text.dropWhile (· == '_')).all continuesIdentifier = text.all continuesIdentifier := by
  induction text with
  | nil => rfl
  | cons c rest ih =>
      rw [List.dropWhile_cons]
      split
      · rename_i underscore
        obtain rfl : c = '_' := by simpa using underscore
        rw [ih, List.all_cons, show continuesIdentifier '_' = true from by decide, Bool.true_and]
      · rfl

theorem isIdentifier_append {text more : List Char} (filled : text ≠ [])
    (continues : ∀ c ∈ more, continuesIdentifier c = true) : isIdentifier (text ++ more) = isIdentifier text := by
  obtain ⟨c, rest, rfl⟩ := List.exists_cons_of_ne_nil filled
  simp [isIdentifier, List.all_eq_true.mpr continues]

end Text

namespace Naming

open Text

/-- What a field name needs besides the characters of an identifier. Two underscores at the start would make it private
to its class. -/
structure IsFree (name : String) : Prop where
  filled : name ≠ ""
  noKeyword : isKeyword name = false
  unreserved : name ∉ reservedFieldNames
  unmangled : ¬['_', '_'] <+: name.toList

structure IsFieldName (name : String) : Prop extends IsFree name where
  identifier : isIdentifier name.toList = true

theorem isFieldName_iff {name : String} : IsFieldName name ↔ IsFree name ∧ isIdentifier name.toList = true :=
  ⟨fun legal => ⟨legal.toIsFree, legal.identifier⟩, fun ⟨free, identifier⟩ => ⟨free, identifier⟩⟩

/-! The characters of a field name. -/

def wordText (property : String) : List Char := property.toList.map fun c => if isWordCharacter c then c else '_'

inductive Opens : List Char → List Char → Prop
  | digit {c : Char} {rest : List Char} : isDigit c = true → Opens (c :: rest) ('_' :: c :: rest)
  | underscore (rest : List Char) : Opens ('_' :: rest) ('_' :: rest.dropWhile (· == '_'))
  | other {c : Char} {rest : List Char} : isDigit c = false → c ≠ '_' → Opens (c :: rest) (c :: rest)

/-- A property whose word characters are those of an identifier. A digit may be the first: it gets an underscore before
it. -/
structure Spelled (property : String) : Prop where
  continues : ∀ c ∈ property.toList, isWordCharacter c = true → continuesIdentifier c = true
  starts : ∀ c, property.toList.head? = some c → isWordCharacter c = true →
    isDigit c = true ∨ startsIdentifier c = true

def Bare (property : String) : Prop := property ≠ "" ∧ ∀ c ∈ property.toList, isWordCharacter c = true → c = '_'

instance (property : String) : Decidable (Bare property) :=
  decidable_of_iff (property ≠ "" ∧ property.toList.all (fun c => !isWordCharacter c || c == '_') = true)
    (by simp [Bare, imp_iff_not_or])

theorem Spelled.of_ascii {property : String}
    (ascii : ∀ c ∈ property.toList, isWordCharacter c = true → isAscii c = true) : Spelled property := by
  have checked : ∀ c, isWordCharacter c = true → isAscii c = true →
      continuesIdentifier c = true ∧ (isDigit c = true ∨ startsIdentifier c = true) := by
    intro c word own
    have found := Text.of_ascii
      (fun c => !isWordCharacter c || continuesIdentifier c && (isDigit c || startsIdentifier c))
      (by decide) own
    simpa [word] using found
  refine ⟨fun c member word => (checked c word (ascii c member word)).1, fun c first word => ?_⟩
  exact (checked c word (ascii c (List.mem_of_head? first) word)).2

section Opens

variable {text name : List Char}

theorem Opens.isIdentifier_iff (opens : Opens text name) :
    isIdentifier name = true ↔ (∀ c ∈ text, continuesIdentifier c = true) ∧
      ∀ c, text.head? = some c → isDigit c = true ∨ startsIdentifier c = true := by
  have underscore : startsIdentifier '_' = true := by decide
  cases opens with
  | digit digit => simp [isIdentifier, underscore, digit]
  | underscore rest =>
      simp [isIdentifier, underscore, continues_dropWhile, startsIdentifier_continues underscore]
  | @other c rest noDigit _ =>
      simp only [isIdentifier, Bool.and_eq_true, List.all_eq_true, List.forall_mem_cons, List.head?_cons,
        Option.some.injEq, forall_eq', noDigit, Bool.false_eq_true, false_or]
      constructor
      · rintro ⟨starts, continues⟩
        exact ⟨⟨startsIdentifier_continues starts, continues⟩, starts⟩
      · rintro ⟨⟨-, continues⟩, starts⟩
        exact ⟨starts, continues⟩

theorem Opens.unmangled (opens : Opens text name) : ¬['_', '_'] <+: name := by
  cases opens with
  | digit digit =>
      intro starts
      exact isDigit_ne_underscore digit (List.cons_prefix_cons.mp (List.cons_prefix_cons.mp starts).2).1.symm
  | underscore rest =>
      intro starts
      obtain ⟨_, same⟩ := (List.cons_prefix_cons.mp starts).2
      have head := List.head?_dropWhile_not (· == '_') rest
      simp [← same] at head
  | other _ different =>
      intro starts
      exact different (List.cons_prefix_cons.mp starts).1.symm

theorem Opens.bare_iff (opens : Opens text name) : name = ['_'] ↔ ∀ c ∈ text, c = '_' := by
  cases opens with
  | digit digit => simp [isDigit_ne_underscore digit]
  | underscore rest => simp [List.dropWhile_eq_nil_iff]
  | other _ different => simp [different]

theorem Opens.filled (opens : Opens text name) : name ≠ [] := by
  cases opens <;> exact List.cons_ne_nil _ _

end Opens

variable {property name entry : String}

theorem wordText_forall {holds : Char → Prop} (underscore : holds '_') :
    (∀ c ∈ wordText property, holds c) ↔ ∀ c ∈ property.toList, isWordCharacter c = true → holds c := by
  rw [wordText, List.forall_mem_map]
  refine forall₂_congr fun c _ => ?_
  split
  case isTrue word => simp [word]
  case isFalse other => simp [other, underscore]

theorem wordText_spelled : (∀ c ∈ wordText property, continuesIdentifier c = true) ∧
    (∀ c, (wordText property).head? = some c → isDigit c = true ∨ startsIdentifier c = true) ↔ Spelled property := by
  have starts : (∀ c, (wordText property).head? = some c → isDigit c = true ∨ startsIdentifier c = true) ↔
      ∀ c, property.toList.head? = some c → isWordCharacter c = true →
        isDigit c = true ∨ startsIdentifier c = true := by
    cases text : property.toList with
    | nil => simp [wordText, text]
    | cons c rest =>
        by_cases word : isWordCharacter c = true
        · simp [wordText, text, word]
        · simp [wordText, text, word, show startsIdentifier '_' = true from by decide]
  rw [wordText_forall (by decide), starts]
  exact ⟨fun ⟨continues, starts⟩ => ⟨continues, starts⟩, fun ⟨continues, starts⟩ => ⟨continues, starts⟩⟩

theorem fieldName_opens (filled : property ≠ "") :
    ∃ name, Opens (wordText property) name.toList ∧
      fieldName property = if isKeyword name || reservedFieldNames.contains name then name ++ "_" else name := by
  unfold fieldName
  rw [← wordText]
  split
  case h_1 empty => simp [wordText, filled] at empty
  case h_2 c rest text =>
    refine ⟨String.ofList _, ?_, rfl⟩
    rw [text, String.toList_ofList]
    by_cases digit : isDigit c = true
    · simp only [digit, ↓reduceIte]
      split
      case h_1 same => exact absurd (List.cons.inj (List.cons.inj same).2).1 (isDigit_ne_underscore digit)
      case h_2 => exact .digit digit
    · simp only [digit, Bool.false_eq_true, ↓reduceIte]
      split
      case h_1 others same =>
        obtain ⟨rfl, rfl⟩ := List.cons.inj same
        exact .underscore ('_' :: others)
      case h_2 single =>
        by_cases underscore : c = '_'
        · subst underscore
          have kept : rest.dropWhile (· == '_') = rest := by
            cases rest with
            | nil => rfl
            | cons d others =>
                have different : d ≠ '_' := by
                  rintro rfl
                  exact single others rfl
                simp [different]
          simpa only [kept] using Opens.underscore rest
        · exact .other (by simpa using digit) underscore

/-- The underscore after a keyword or a reserved name changes nothing else. -/
theorem fieldName_spec (filled : property ≠ "") :
    ∃ name, Opens (wordText property) name.toList ∧
      (fieldName property = name ∧ name ∉ reservedFieldNames ∨ fieldName property = name ++ "_" ∧ name ≠ "_") := by
  obtain ⟨name, opens, same⟩ := fieldName_opens filled
  refine ⟨name, opens, ?_⟩
  split at same
  case isTrue taken =>
    refine .inr ⟨same, ?_⟩
    rintro rfl
    exact absurd taken (by decide)
  case isFalse free =>
    rw [Bool.or_eq_true, not_or, Bool.not_eq_true, List.contains_iff_mem] at free
    exact .inl ⟨same, free.2⟩

theorem reserved_plain : ∀ name ∈ reservedFieldNames, '_' ∉ name.toList := by
  decide

theorem unmangled_append {text more : List Char} (filled : text ≠ []) (single : text ≠ ['_'])
    (unmangled : ¬['_', '_'] <+: text) : ¬['_', '_'] <+: text ++ more := by
  rcases text with _ | ⟨c, _ | ⟨d, rest⟩⟩
  · contradiction
  · intro starts
    exact single (by rw [← (List.cons_prefix_cons.mp starts).1])
  · intro starts
    obtain ⟨rfl, others⟩ := List.cons_prefix_cons.mp starts
    obtain ⟨rfl, -⟩ := List.cons_prefix_cons.mp others
    exact unmangled (List.prefix_append ['_', '_'] rest)

/-- What goes after a name keeps it free, unless the name is a single underscore. -/
theorem IsFree.append {more : String} (filled : name ≠ "") (unmangled : ¬['_', '_'] <+: name.toList)
    (single : name ≠ "_") (underscore : '_' ∈ more.toList) : IsFree (name ++ more) := by
  have within : '_' ∈ (name ++ more).toList := by simp [underscore]
  refine ⟨by simp [filled], isKeyword_marked (show '_' ∈ marks by decide) within, ?_, ?_⟩
  · exact fun reserved => reserved_plain _ reserved within
  · rw [String.toList_append]
    refine unmangled_append (mt String.toList_eq_nil_iff.mp filled) ?_ unmangled
    exact fun same => single (String.toList_inj.mp same)

theorem IsFree.fieldName (property : String) : IsFree (fieldName property) := by
  by_cases empty : property = ""
  · subst empty
    exact ⟨by decide, by decide, by decide, by decide⟩
  · obtain ⟨name, opens, ⟨same, unreserved⟩ | ⟨same, single⟩⟩ := fieldName_spec empty
    all_goals
      have filled : name ≠ "" := mt String.toList_eq_nil_iff.mpr opens.filled
    · have noKeyword := fieldName_not_keyword property
      rw [same] at noKeyword ⊢
      exact ⟨filled, noKeyword, unreserved, opens.unmangled⟩
    · rw [same]
      exact .append filled opens.unmangled single (by decide)

theorem IsFree.numbered_iff (free : IsFree name) (number : Nat) : IsFree (numbered name number) ↔ name ≠ "_" := by
  constructor
  · rintro own rfl
    exact own.unmangled ⟨(toString number).toList, by simp [numbered]⟩
  · intro single
    rw [numbered, String.append_assoc]
    exact .append free.filled free.unmangled single (by simp)

theorem isIdentifier_numbered (filled : name ≠ "") (number : Nat) :
    isIdentifier (numbered name number).toList = isIdentifier name.toList := by
  rw [numbered, String.append_assoc, String.toList_append]
  refine isIdentifier_append (mt String.toList_eq_nil_iff.mp filled) ?_
  rw [String.toList_append]
  refine List.forall_mem_append.mpr ⟨List.all_eq_true.mp (by decide), fun c digit => ?_⟩
  exact asciiDigit_continues (toString_digits number c digit)

theorem fieldName_isIdentifier_iff : isIdentifier (fieldName property).toList = true ↔ Spelled property := by
  by_cases empty : property = ""
  · subst empty
    exact iff_of_true (by decide) ⟨by simp, by simp⟩
  · obtain ⟨name, opens, ⟨same, -⟩ | ⟨same, -⟩⟩ := fieldName_spec empty
    · rw [same, opens.isIdentifier_iff, wordText_spelled]
    · rw [same, String.toList_append, isIdentifier_append opens.filled (List.all_eq_true.mp (by decide)),
        opens.isIdentifier_iff, wordText_spelled]

theorem fieldName_eq_underscore_iff : fieldName property = "_" ↔ Bare property := by
  by_cases empty : property = ""
  · subst empty
    exact iff_of_false (by decide) fun bare => bare.1 rfl
  · obtain ⟨name, opens, spec⟩ := fieldName_spec empty
    have bare : name = "_" ↔ Bare property := by
      rw [← String.toList_inj, Bare, and_iff_right empty, ← @wordText_forall property (· = '_') rfl]
      exact opens.bare_iff
    rw [← bare]
    rcases spec with ⟨same, -⟩ | ⟨same, single⟩
    · rw [same]
    · refine iff_of_false ?_ single
      rw [same]
      exact fun alone => opens.filled (String.toList_eq_nil_iff.mpr (String.append_eq_right_iff.mp alone))

/-! The field names of a class. -/

section Repeats

variable {taken names entries : List String}

theorem numbered_ne_underscore (filled : name ≠ "") (number : Nat) : numbered name number ≠ "_" := by
  intro same
  have length := congrArg String.length same
  have own : name.length ≠ 0 := by simpa using filled
  simp only [numbered, String.length_append, show "_".length = 1 from rfl] at length
  omega

/-- A second underscore is what makes a repeated name illegal: its number would leave two underscores at the start. -/
theorem IsNext.isFieldName_iff (next : IsNext taken name entry) (free : IsFree name) :
    IsFieldName entry ↔ isIdentifier name.toList = true ∧ ¬(name = "_" ∧ "_" ∈ taken) := by
  cases next with
  | first new =>
      have single : ¬(name = "_" ∧ "_" ∈ taken) := by
        rintro ⟨rfl, known⟩
        exact new known
      simp [isFieldName_iff, free, single]
  | @repeated number known _ _ _ =>
      have single : ¬(name = "_" ∧ "_" ∈ taken) ↔ name ≠ "_" :=
        ⟨fun apart same => apart ⟨same, same ▸ known⟩, fun apart both => apart both.1⟩
      rw [isFieldName_iff, free.numbered_iff, isIdentifier_numbered free.filled, single, and_comm]

theorem IsNext.underscore_iff (next : IsNext taken name entry) (filled : name ≠ "") :
    "_" ∈ taken ++ [entry] ↔ "_" ∈ taken ∨ name = "_" := by
  cases next with
  | first => simp [eq_comm]
  | @repeated number known _ _ _ =>
      have apart : "_" ≠ numbered name number := (numbered_ne_underscore filled number).symm
      rw [List.mem_append, List.mem_singleton, or_iff_left apart]
      exact ⟨.inl, fun either => either.elim id fun same => same ▸ known⟩

theorem GreedyAfter.isFieldName_iff (greedy : GreedyAfter taken names entries) (free : ∀ name ∈ names, IsFree name) :
    (∀ entry ∈ entries, IsFieldName entry) ↔
      (∀ name ∈ names, isIdentifier name.toList = true) ∧
        names.Pairwise (fun first second => ¬(first = "_" ∧ second = "_")) ∧ ("_" ∈ taken → "_" ∉ names) := by
  -- Of what is taken it matters only whether a single underscore is among it.
  induction names generalizing taken entries with
  | nil => simp [greedyAfter_nil.mp greedy]
  | cons name names ih =>
      obtain ⟨entry, entries, rfl⟩ := List.exists_cons_of_length_eq_add_one greedy.1
      obtain ⟨next, later⟩ := greedyAfter_cons.mp greedy
      obtain ⟨own, others⟩ := List.forall_mem_cons.mp free
      rw [List.forall_mem_cons, next.isFieldName_iff own, ih later others, next.underscore_iff own.filled,
        List.forall_mem_cons, List.pairwise_cons, List.mem_cons]
      have pairs : (∀ second ∈ names, ¬(name = "_" ∧ second = "_")) ↔ (name = "_" → "_" ∉ names) := by
        simp only [not_and]
        exact ⟨fun apart same member => apart _ member same rfl,
          fun apart second member same other => apart same (other ▸ member)⟩
      rw [pairs]
      grind

end Repeats

end Naming

def textKeys (properties : List (String × Schema)) : List (Value × Schema) :=
  properties.map fun (name, schema) => (.string name, schema)

theorem fieldNames_textKeys (properties : List (String × Schema)) :
    fieldNames (textKeys properties) =
      .ok (Naming.unique (properties.map fun property => Naming.fieldName property.1)) := by
  have mapped : (textKeys properties).mapM (fun property => Naming.fieldName <$> property.1.asPattern) =
      .ok (properties.map fun property => Naming.fieldName property.1) := by
    rw [mapM_ok_iff, textKeys, List.forall₂_map_left_iff, List.forall₂_map_right_iff, List.forall₂_same]
    exact fun property _ => rfl
  rw [fieldNames]
  exact except_bind_ok.mpr ⟨_, mapped, rfl⟩

theorem unique_legal_iff (properties : List (String × Schema)) :
    (∀ name ∈ Naming.unique (properties.map fun property => Naming.fieldName property.1), Naming.IsFieldName name) ↔
      (∀ property ∈ properties, Naming.Spelled property.1) ∧
        properties.Pairwise fun first second => ¬(Naming.Bare first.1 ∧ Naming.Bare second.1) := by
  have greedy : Naming.GreedyAfter [] _ _ :=
    Naming.greedy_unique (properties.map fun property => Naming.fieldName property.1)
  have free : ∀ name ∈ properties.map fun property => Naming.fieldName property.1, Naming.IsFree name :=
    List.forall_mem_map.mpr fun property _ => .fieldName property.1
  rw [greedy.isFieldName_iff free, List.forall_mem_map, List.pairwise_map]
  simp only [Naming.fieldName_isIdentifier_iff, Naming.fieldName_eq_underscore_iff, List.not_mem_nil,
    false_imp_iff, and_true]

/-- If the object has the properties, the fields of the class have the names. -/
def ClassDeclaration.FieldsNamed (properties : List (String × Schema)) (names : List String) (own : ClassDeclaration)
    (object : Schema) : Prop :=
  object.properties.getD [] = textKeys properties → own.fields.map FieldDeclaration.name = names

theorem ClassDeclaration.fieldsNamed {own : ClassDeclaration} {object : Schema} (properties : List (String × Schema))
    (found : fieldNames (object.properties.getD []) = .ok (own.fields.map FieldDeclaration.name)) :
    own.FieldsNamed properties (Naming.unique (properties.map fun property => Naming.fieldName property.1)) object := by
  intro given
  rw [given, fieldNames_textKeys] at found
  exact (Except.ok.inj found).symm

namespace Registry

/-- The names of the fields of a class, at the top or inside another, come from its properties alone. All are legal
exactly when the word characters of each property are those of an identifier and no two properties leave nothing but an
underscore. -/
theorem buildClass_fieldNames_legal_iff (properties : List (String × Schema)) :
    ∃ names, fieldNames (textKeys properties) = .ok names ∧
      ((∀ name ∈ names, Naming.IsFieldName name) ↔
        (∀ property ∈ properties, Naming.Spelled property.1) ∧
          properties.Pairwise fun first second => ¬(Naming.Bare first.1 ∧ Naming.Bare second.1)) ∧
      (∀ (registry : Registry) (schema : Schema) (name : String) (scope : NamingScope) (description : Option String)
        (own : ClassDeclaration), (registry.buildClass schema name scope description).result = .ok own →
        own.FieldsNamed properties names schema) ∧
      ∀ (registry : Registry) (suggested : Option String) (schema : Schema) (scope : NamingScope)
        (declared : List ClassDeclaration) (type : TypeExpression) (after : NamingScope),
        InScope.Yields (registry.emit suggested schema) scope (declared, type) after →
        DescribedFrom (ClassDeclaration.FieldsNamed properties names) schema.Reaches declared := by
  refine ⟨_, fieldNames_textKeys properties, unique_legal_iff properties, ?built, ?emitted⟩
  case built =>
    intro registry schema name scope description own built
    obtain ⟨last, yields⟩ := InScope.inside_ok.mp built
    obtain ⟨names, inner, fields, found, body, rfl⟩ := declareWith_spec yields
    have named := (emitFields_emitted (fieldNames_length found) body).named
    exact ClassDeclaration.fieldsNamed properties (named ▸ found)
  case emitted =>
    intro registry suggested schema scope declared type after yields own member deep holds
    obtain ⟨object, reach, body⟩ := emit_bodies yields own member deep holds
    exact ⟨object, reach, deep.fieldsNamed properties body.fields⟩

def word : Schema := { keywords := { type := .string "string" } }

def device : List (String × Schema) := [("id", word), ("class", word), ("2fa", word), ("=", word)]

theorem device_legal :
    ∃ own, ((Registry.empty none).close.buildClass { properties := some (textKeys device) } "Device" {} none).result =
        .ok own ∧
      own.fields.map FieldDeclaration.name = ["id", "class_", "_2fa", "_"] ∧
      ∀ field ∈ own.fields, Naming.IsFieldName field.name := by
  obtain ⟨own, built, shown⟩ : ∃ own,
      ((Registry.empty none).close.buildClass { properties := some (textKeys device) } "Device" {} none).result =
          .ok own ∧
        own.fields.map FieldDeclaration.name = ["id", "class_", "_2fa", "_"] := ⟨_, rfl, by decide +kernel⟩
  obtain ⟨names, -, legal, named, -⟩ := buildClass_fieldNames_legal_iff device
  have ascii : (device.all fun property => property.1.toList.all Text.isAscii) = true := by decide +kernel
  have spelled : ∀ property ∈ device, Naming.Spelled property.1 := fun property member =>
    .of_ascii fun c among _ => List.all_eq_true.mp (List.all_eq_true.mp ascii property member) c among
  have apart : device.Pairwise fun first second => ¬(Naming.Bare first.1 ∧ Naming.Bare second.1) := by
    decide +kernel
  refine ⟨own, built, shown, List.forall_mem_map.mp ?_⟩
  rw [named _ _ _ _ _ own built rfl]
  exact legal.mpr ⟨spelled, apart⟩

/-- Two signs leave an underscore each, and a small raised digit is no character of an identifier. -/
theorem plot_not_legal :
    ∃ own, ((Registry.empty none).close.buildClass
        { properties := some (textKeys [("=", word), ("!=", word), ("area_m²", word)]) } "Plot" {} none).result =
        .ok own ∧
      own.fields.map FieldDeclaration.name = ["_", "__2", "area_m²"] ∧
      ¬Naming.IsFieldName "__2" ∧ ¬Naming.IsFieldName "area_m²" := by
  refine ⟨_, rfl, by decide +kernel, ?_, ?_⟩
  · exact fun legal => absurd legal.unmangled (by decide)
  · exact fun legal => absurd legal.identifier (by decide +kernel)

end Registry
end OpenApiClient
