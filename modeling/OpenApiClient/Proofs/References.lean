import OpenApiClient.Proofs.Emission
import OpenApiClient.Schema.References
import Mathlib.Data.String.Basic

/-! The references of a schema: a model class that occurs in its type is the class of the one named schema
that it mentions. -/

namespace OpenApiClient

open InScope

theorem mem_insertName {name new : String} {names : List String} :
    name ∈ insertName new names ↔ name = new ∨ name ∈ names := by
  induction names with
  | nil => simp [insertName]
  | cons first rest ih =>
      unfold insertName
      split
      · rename_i same
        subst new
        simp
      · split
        · simp
        · rw [List.mem_cons, ih, List.mem_cons]
          exact or_left_comm

@[simp] theorem mem_sortedNames {name : String} {names : List String} :
    name ∈ sortedNames names ↔ name ∈ names := by
  induction names with
  | nil => simp [sortedNames]
  | cons first rest ih =>
      change name ∈ insertName first (sortedNames rest) ↔ _
      rw [mem_insertName, ih, List.mem_cons]

theorem insertName_sorted {new : String} {names : List String} (sorted : names.Pairwise (· < ·)) :
    (insertName new names).Pairwise (· < ·) := by
  induction names with
  | nil => simp [insertName]
  | cons first rest ih =>
      obtain ⟨before, later⟩ := List.pairwise_cons.mp sorted
      unfold insertName
      split
      · exact sorted
      · rename_i different
        split
        · rename_i less
          refine List.pairwise_cons.mpr ⟨fun name member => ?_, sorted⟩
          rcases List.mem_cons.mp member with rfl | member
          · exact less
          · exact less.trans (before name member)
        · rename_i notLess
          refine List.pairwise_cons.mpr ⟨fun name member => ?_, ih later⟩
          rcases mem_insertName.mp member with rfl | member
          · exact lt_of_le_of_ne (not_lt.mp notLess) (Ne.symm different)
          · exact before name member

theorem sortedNames_sorted (names : List String) : (sortedNames names).Pairwise (· < ·) := by
  induction names with
  | nil => exact List.Pairwise.nil
  | cons first rest ih => exact insertName_sorted ih

theorem sortedNames_nodup (names : List String) : (sortedNames names).Nodup :=
  (sortedNames_sorted names).imp fun less => ne_of_lt less

namespace TypeExpression

def imported : TypeExpression → List (String × String)
  | .named (some module) name => [(module, name)]
  | .array element => element.imported
  | .map value => value.imported
  | _ => []

def localNames : TypeExpression → List String
  | .named none name => [name]
  | .array element => element.localNames
  | .map value => value.localNames
  | _ => []

end TypeExpression

namespace Registry

variable {registry : Registry}

inductive HasType (registry : Registry) (suggested : Option String) : Schema → TypeExpression → Prop
  | reference {schema named} : schema.keywords.isReference = true →
      registry.resolveValue schema.keywords.reference = .ok named →
      HasType registry suggested schema (.named (some named.moduleName) named.className)
  | plain {schema type} : type.imported = [] → type.localNames = [] → HasType registry suggested schema type
  | struct {schema name} : schema.isStruct = true → structName schema.keywords suggested = .ok name →
      HasType registry suggested schema (.named none name)
  | array {schema items element} : schema.keywords.isReference = false → schema.typeName = .array →
      schema.items = some items → HasType registry suggested items element →
      HasType registry suggested schema (.array element)
  | map {schema value element} : schema.keywords.isReference = false → schema.typeName = .object →
      schema.properties = none → schema.additional = .typed value →
      HasType registry suggested value element → HasType registry suggested schema (.map element)
  | union {schema member type} : schema.keywords.isReference = false →
      schema.typeName = .absent ∨ schema.typeName = .other → schema.anyOf = some [member] →
      HasType registry suggested member type → HasType registry suggested schema type

theorem typeOf_hasType {suggested : Option String} {schema : Schema} {type : TypeExpression}
    (typing : (registry.typeOf suggested schema).result = .ok type) :
    registry.HasType suggested schema type := by
  fun_induction Registry.typeOf registry suggested schema generalizing type with
  | case1 keywords items properties additional anyOf oneOf allOf reference =>
      obtain ⟨named, found, same⟩ := Traced.bind_ok.mp typing
      obtain rfl := Traced.pure_ok.mp same
      exact .reference reference found
  | case2 | case3 =>
      obtain ⟨kind, -, same⟩ := Traced.bind_ok.mp typing
      obtain rfl := Traced.pure_ok.mp same
      exact .plain rfl rfl
  | case4 | case5 | case6 | case11 | case14 | case17 =>
      obtain rfl := Traced.pure_ok.mp typing
      exact .plain rfl rfl
  | case7 => cases typing
  | case8 keywords properties additional anyOf oneOf allOf reference kind items ih =>
      obtain ⟨element, found, same⟩ := Traced.bind_ok.mp typing
      obtain rfl := Traced.pure_ok.mp same
      exact .array (Bool.eq_false_of_not_eq_true reference) kind rfl (ih found)
  | case9 keywords items anyOf oneOf allOf reference kind properties additional =>
      obtain ⟨name, found, rest⟩ := Traced.bind_ok.mp typing
      have same : type = .named none name := by
        cases additional with
        | unrestricted =>
            obtain ⟨_, -, same⟩ := Traced.bind_ok.mp rest
            exact (Traced.pure_ok.mp same).symm
        | forbidden => exact (Traced.pure_ok.mp rest).symm
        | typed value => exact (Traced.pure_ok.mp rest).symm
      subst same
      exact .struct (by simp [Schema.isStruct, Schema.typeName, reference, kind]) found
  | case10 keywords items anyOf oneOf allOf reference kind value ih =>
      obtain ⟨element, found, same⟩ := Traced.bind_ok.mp typing
      obtain rfl := Traced.pure_ok.mp same
      exact .map (Bool.eq_false_of_not_eq_true reference) kind rfl rfl (ih found)
  | case12 keywords items properties additional oneOf allOf reference kind member ih =>
      exact .union (Bool.eq_false_of_not_eq_true reference) (.inl kind) rfl (ih typing)
  | case15 keywords items properties additional oneOf allOf reference kind member ih =>
      exact .union (Bool.eq_false_of_not_eq_true reference) (.inr kind) rfl (ih typing)
  | case13 | case16 =>
      obtain ⟨_, -, same⟩ := Traced.bind_ok.mp typing
      obtain rfl := Traced.pure_ok.mp same
      exact .plain rfl rfl

end Registry

def AdditionalMembers.schemas {α : Type} : AdditionalMembers α → List α
  | .typed schema => [schema]
  | _ => []

def Value.schemaName (reference : Value) : Except Failure String := do
  referencedName (← reference.asText)

namespace Schema

theorem mentionsInAll_eq (schemas : List Schema) :
    mentionsInAll schemas = List.flatten <$> schemas.mapM mentions := by
  induction schemas with
  | nil => rfl
  | cons schema rest ih => simp [mentionsInAll, ih]

theorem mentionsInProperties_eq (properties : List (Value × Schema)) :
    mentionsInProperties properties = mentionsInAll (properties.map Prod.snd) := by
  induction properties with
  | nil => rfl
  | cons entry rest ih => rw [mentionsInProperties, List.map_cons, mentionsInAll, ih]

def walkedParts : Schema → List Schema
  | ⟨keywords, items, properties, additional, anyOf, _, allOf⟩ =>
      if keywords.isReference then []
      else
        match keywords.typeName with
        | .array => items.toList
        | .object => (properties.getD []).map Prod.snd ++ additional.schemas
        | _ => anyOf.getD (allOf.getD [])

theorem mentions_eq (schema : Schema) :
    schema.mentions =
      if schema.keywords.isReference then (fun name => [name]) <$> schema.keywords.reference.schemaName
      else List.flatten <$> schema.walkedParts.mapM mentions := by
  obtain ⟨keywords, items, properties, additional, anyOf, oneOf, allOf⟩ := schema
  rw [mentions.eq_def]
  dsimp only [walkedParts]
  split
  · simp [Value.schemaName]
  · cases keywords.typeName with
    | array =>
        cases items with
        | none => rfl
        | some items => simp
    | object =>
        dsimp only
        cases properties with
        | none => cases additional <;> simp [AdditionalMembers.schemas]
        | some properties =>
            cases additional <;> simp [AdditionalMembers.schemas, mentionsInProperties_eq, mentionsInAll_eq]
    | _ =>
        cases anyOf with
        | some members => exact mentionsInAll_eq members
        | none =>
            cases allOf with
            | some members => exact mentionsInAll_eq members
            | none => rfl

theorem mentions_of_reference {schema : Schema} (reference : schema.keywords.isReference = true) :
    schema.mentions = (fun name => [name]) <$> schema.keywords.reference.schemaName := by
  rw [mentions_eq, if_pos reference]

theorem mentions_of_plain {schema : Schema} (plain : schema.keywords.isReference = false) :
    schema.mentions = List.flatten <$> schema.walkedParts.mapM mentions := by
  rw [mentions_eq, if_neg (by simp [plain])]

theorem mentions_of_part {schema part : Schema} (plain : schema.keywords.isReference = false)
    (only : schema.walkedParts = [part]) : schema.mentions = part.mentions := by
  rw [mentions_of_plain plain, only]
  simp

theorem walkedParts_array {schema : Schema} (plain : schema.keywords.isReference = false)
    (kind : schema.typeName = .array) : schema.walkedParts = schema.items.toList := by
  cases schema
  simp_all [walkedParts, typeName]

theorem walkedParts_object {schema : Schema} (plain : schema.keywords.isReference = false)
    (kind : schema.typeName = .object) :
    schema.walkedParts = (schema.properties.getD []).map Prod.snd ++ schema.additional.schemas := by
  cases schema
  simp_all [walkedParts, typeName]

theorem walkedParts_union {schema : Schema} (plain : schema.keywords.isReference = false)
    (kind : schema.typeName = .absent ∨ schema.typeName = .other) :
    schema.walkedParts = schema.anyOf.getD (schema.allOf.getD []) := by
  cases schema
  rcases kind with kind | kind <;> simp_all [walkedParts, typeName]

theorem mentions_of_array {schema items : Schema} (plain : schema.keywords.isReference = false)
    (kind : schema.typeName = .array) (found : schema.items = some items) :
    schema.mentions = items.mentions := by
  refine mentions_of_part plain ?_
  rw [walkedParts_array plain kind, found]
  rfl

theorem mentions_of_map {schema value : Schema} (plain : schema.keywords.isReference = false)
    (kind : schema.typeName = .object) (absent : schema.properties = none)
    (found : schema.additional = .typed value) : schema.mentions = value.mentions := by
  refine mentions_of_part plain ?_
  rw [walkedParts_object plain kind, absent, found]
  rfl

theorem mentions_of_union {schema member : Schema} (plain : schema.keywords.isReference = false)
    (kind : schema.typeName = .absent ∨ schema.typeName = .other) (found : schema.anyOf = some [member]) :
    schema.mentions = member.mentions := by
  refine mentions_of_part plain ?_
  rw [walkedParts_union plain kind, found]
  rfl

theorem Wraps.mentions {schema inner : Schema} (wraps : schema.Wraps inner) : schema.mentions = inner.mentions := by
  have spec := schema.emissionShape_spec
  cases wraps with
  | map shape =>
      simp only [shape] at spec
      exact mentions_of_map spec.1 spec.2.1 spec.2.2.1 spec.2.2.2
  | array shape =>
      simp only [shape] at spec
      exact mentions_of_array spec.1 spec.2.1 spec.2.2
  | union shape =>
      simp only [shape] at spec
      exact mentions_of_union spec.1 (.inl spec.2.1) spec.2.2

end Schema

namespace Registry

variable {registry : Registry}

theorem get_ok {name : String} {named : NamedSchema} (found : registry.get name = .ok named) :
    named ∈ registry.entries ∧ named.name = name := by
  unfold get at found
  split at found
  · rename_i entry located
    obtain rfl := Except.ok.inj found
    exact ⟨List.mem_of_find?_eq_some located, by simpa using List.find?_some located⟩
  · cases found

def Provides (registry : Registry) (names : List String) (located : String × String) : Prop :=
  ∃ name named, names = [name] ∧ registry.get name = .ok named ∧ located = (named.moduleName, named.className)

theorem resolve_ok_iff {text : String} {named : NamedSchema} :
    registry.resolve text = .ok named ↔
      ∃ name, referencedName text = .ok name ∧ registry.get name = .ok named := by
  rw [resolve, except_bind_ok]
  refine exists_congr fun name => and_congr_right fun _ => ?_
  unfold get
  cases registry.find? name <;> simp

theorem resolveValue_ok_iff {reference : Value} {named : NamedSchema} :
    registry.resolveValue reference = .ok named ↔
      ∃ name, reference.schemaName = .ok name ∧ registry.get name = .ok named := by
  simp only [resolveValue, Value.schemaName, except_bind_ok, resolve_ok_iff]
  constructor
  · rintro ⟨text, written, name, split, found⟩
    exact ⟨name, ⟨text, written, split⟩, found⟩
  · rintro ⟨name, ⟨text, written, split⟩, found⟩
    exact ⟨text, written, name, split, found⟩

theorem resolveValue_mentions {schema : Schema} {named : NamedSchema} {names : List String}
    (reference : schema.keywords.isReference = true)
    (found : registry.resolveValue schema.keywords.reference = .ok named)
    (mentioned : schema.mentions = .ok names) : ∃ name, names = [name] ∧ registry.get name = .ok named := by
  obtain ⟨name, own, located⟩ := resolveValue_ok_iff.mp found
  rw [Schema.mentions_of_reference reference, own] at mentioned
  exact ⟨name, (Except.ok.inj mentioned).symm, located⟩

theorem HasType.imported_provided {suggested : Option String} {schema : Schema} {type : TypeExpression}
    (typed : registry.HasType suggested schema type) {names : List String}
    (mentioned : schema.mentions = .ok names) :
    ∀ located ∈ type.imported, registry.Provides names located := by
  induction typed with
  | reference reference found =>
      intro located member
      obtain ⟨name, alone, resolved⟩ := resolveValue_mentions reference found mentioned
      exact ⟨name, _, alone, resolved, List.mem_singleton.mp member⟩
  | plain none _ => simp [none]
  | struct => simp [TypeExpression.imported]
  | array plain kind found _ ih =>
      exact ih ((Schema.mentions_of_array plain kind found).symm.trans mentioned)
  | map plain kind absent found _ ih =>
      exact ih ((Schema.mentions_of_map plain kind absent found).symm.trans mentioned)
  | union plain kind found _ ih =>
      exact ih ((Schema.mentions_of_union plain kind found).symm.trans mentioned)

theorem emit_imported_provided {suggested : Option String} {schema : Schema} {scope after : NamingScope}
    {declared : List ClassDeclaration} {type : TypeExpression} {names : List String}
    (yields : Yields (registry.emit suggested schema) scope (declared, type) after)
    (mentioned : schema.mentions = .ok names) :
    ∀ located ∈ type.imported, registry.Provides names located := by
  revert mentioned
  refine registry.emit_induction
    (fun _ schema _ _ type _ => schema.mentions = .ok names →
      ∀ located ∈ type.imported, registry.Provides names located)
    (fun _ _ _ _ _ _ _ _ => True) ?leaf ?present ?absent ?map ?array ?union ?done ?property
    suggested schema scope declared type after yields
  case leaf => exact fun _ _ _ _ _ typing mentioned => (typeOf_hasType typing).imported_provided mentioned
  case present | absent => simp [TypeExpression.imported]
  case map =>
    intro _ schema value _ _ _ _ shape ih mentioned
    exact ih ((Schema.Wraps.mentions (.map shape)).symm.trans mentioned)
  case array =>
    intro _ schema items _ _ _ _ shape ih mentioned
    exact ih ((Schema.Wraps.mentions (.array shape)).symm.trans mentioned)
  case union =>
    intro _ schema member _ _ _ _ shape ih mentioned
    exact ih ((Schema.Wraps.mentions (.union shape)).symm.trans mentioned)
  case done | property => simp

end Registry
end OpenApiClient
