import OpenApiClient.Declaration.Emission
import OpenApiClient.Proofs.Naming
import OpenApiClient.Proofs.Outcome

/-! The rules of emission: what a successful emission has declared, by the shape of the schema, and the
induction that follows them. -/

namespace OpenApiClient

open InScope

inductive EmissionShape where
  /-- Nothing is declared: the schema has a type and that is all. -/
  | leaf
  | struct (properties : List (Value × Schema))
  | map (value : Schema)
  | array (items : Schema)
  /-- An array that does not say what its items are. -/
  | incomplete
  /-- A union of one member, which is that member. -/
  | union (member : Schema)

def Schema.emissionShape : Schema → EmissionShape
  | ⟨keywords, items, properties, additional, anyOf, _, _⟩ =>
      if keywords.isReference then .leaf
      else
        match keywords.typeName with
        | .object =>
            match properties, additional with
            | some properties, _ => .struct properties
            | none, .typed value => .map value
            | none, _ => .leaf
        | .array =>
            match items with
            | none => .incomplete
            | some items => .array items
        | .absent =>
            match anyOf with
            | some [member] => .union member
            | _ => .leaf
        | _ => .leaf

namespace Schema

theorem emissionShape_spec (schema : Schema) :
    match schema.emissionShape with
    | .leaf => True
    | .struct properties =>
        schema.keywords.isReference = false ∧ schema.typeName = .object ∧ schema.properties = some properties
    | .map value =>
        schema.keywords.isReference = false ∧ schema.typeName = .object ∧ schema.properties = none ∧
          schema.additional = .typed value
    | .array items =>
        schema.keywords.isReference = false ∧ schema.typeName = .array ∧ schema.items = some items
    | .incomplete => schema.keywords.isReference = false ∧ schema.typeName = .array ∧ schema.items = none
    | .union member =>
        schema.keywords.isReference = false ∧ schema.typeName = .absent ∧ schema.anyOf = some [member] := by
  obtain ⟨keywords, items, properties, additional, anyOf, oneOf, allOf⟩ := schema
  dsimp only [emissionShape, typeName]
  by_cases reference : keywords.isReference
  · simp only [reference, ↓reduceIte]
  · simp only [reference, Bool.false_eq_true, ↓reduceIte]
    cases kind : keywords.typeName with
    | object =>
        cases properties with
        | some properties => exact ⟨trivial, rfl, rfl⟩
        | none =>
            cases additional with
            | typed value => exact ⟨trivial, rfl, rfl, rfl⟩
            | _ => trivial
    | array => cases items <;> exact ⟨trivial, rfl, rfl⟩
    | absent =>
        rcases anyOf with _ | _ | ⟨member, _ | _⟩
        · trivial
        · trivial
        · exact ⟨trivial, rfl, rfl⟩
        · trivial
    | _ => trivial

theorem emissionShape_struct {schema : Schema} {properties : List (Value × Schema)}
    (shape : schema.emissionShape = .struct properties) :
    schema.keywords.isReference = false ∧ schema.typeName = .object ∧ schema.properties = some properties := by
  have spec := schema.emissionShape_spec
  simpa only [shape] using spec

theorem emissionShape_of_isStruct {schema : Schema} (struct : schema.isStruct = true) :
    ∃ properties, schema.properties = some properties ∧ schema.emissionShape = .struct properties := by
  obtain ⟨keywords, items, properties, additional, anyOf, oneOf, allOf⟩ := schema
  simp only [isStruct, typeName, Bool.and_eq_true, Bool.not_eq_true', beq_iff_eq,
    Option.isSome_iff_exists] at struct
  obtain ⟨⟨plain, kind⟩, properties, rfl⟩ := struct
  exact ⟨properties, rfl, by simp [emissionShape, plain, kind]⟩

theorem emissionShape_of_other {schema : Schema} (kind : schema.typeName = .other) :
    schema.emissionShape = .leaf := by
  obtain ⟨keywords, items, properties, additional, anyOf, oneOf, allOf⟩ := schema
  change keywords.typeName = _ at kind
  simp [emissionShape, kind]

theorem sizeOf_property {schema : Schema} {properties : List (Value × Schema)} {entry : Value × Schema}
    (found : schema.properties = some properties) (member : entry ∈ properties) :
    sizeOf entry.2 < sizeOf schema := by
  have within := List.sizeOf_lt_of_mem member
  obtain ⟨key, part⟩ := entry
  cases schema
  subst found
  simp only [Schema.mk.sizeOf_spec, Option.some.sizeOf_spec, Prod.mk.sizeOf_spec] at within ⊢
  omega

theorem sizeOf_additional {schema value : Schema} (found : schema.additional = .typed value) :
    sizeOf value < sizeOf schema := by
  cases schema
  subst found
  simp only [Schema.mk.sizeOf_spec, AdditionalMembers.typed.sizeOf_spec]
  omega

theorem sizeOf_items {schema items : Schema} (found : schema.items = some items) :
    sizeOf items < sizeOf schema := by
  cases schema
  subst found
  simp only [Schema.mk.sizeOf_spec, Option.some.sizeOf_spec]
  omega

theorem sizeOf_anyOf {schema member : Schema} {members : List Schema} (found : schema.anyOf = some members)
    (among : member ∈ members) : sizeOf member < sizeOf schema := by
  have within := List.sizeOf_lt_of_mem among
  cases schema
  subst found
  simp only [Schema.mk.sizeOf_spec, Option.some.sizeOf_spec]
  omega

inductive Wraps (schema inner : Schema) : Prop
  | map : schema.emissionShape = .map inner → schema.Wraps inner
  | array : schema.emissionShape = .array inner → schema.Wraps inner
  | union : schema.emissionShape = .union inner → schema.Wraps inner

/-- Induction along the places that an emission comes to. -/
theorem emissionShape_induction {holds : Schema → Prop}
    (leaf : ∀ schema, schema.emissionShape = .leaf → holds schema)
    (struct : ∀ schema properties, schema.emissionShape = .struct properties →
      (∀ entry ∈ properties, holds entry.2) → holds schema)
    (map : ∀ schema value, schema.emissionShape = .map value → holds value → holds schema)
    (array : ∀ schema items, schema.emissionShape = .array items → holds items → holds schema)
    (incomplete : ∀ schema, schema.emissionShape = .incomplete → holds schema)
    (union : ∀ schema member, schema.emissionShape = .union member → holds member → holds schema)
    (schema : Schema) : holds schema := by
  induction size : sizeOf schema using Nat.strongRecOn generalizing schema with
  | ind size smaller =>
      subst size
      have spec := schema.emissionShape_spec
      cases shape : schema.emissionShape with
      | leaf => exact leaf schema shape
      | struct properties =>
          simp only [shape] at spec
          exact struct schema properties shape fun entry member =>
            smaller _ (sizeOf_property spec.2.2 member) entry.2 rfl
      | map value =>
          simp only [shape] at spec
          exact map schema value shape (smaller _ (sizeOf_additional spec.2.2.2) value rfl)
      | array items =>
          simp only [shape] at spec
          exact array schema items shape (smaller _ (sizeOf_items spec.2.2) items rfl)
      | incomplete => exact incomplete schema shape
      | union member =>
          simp only [shape] at spec
          exact union schema member shape (smaller _ (sizeOf_anyOf spec.2.2 List.mem_cons_self) member rfl)

end Schema

namespace NamingScope

variable {scope : NamingScope} {name : String}

theorem contains_iff : scope.contains name = true ↔ name ∈ scope.names := by
  simp [contains]

theorem eq_of_qualify_empty (empty : scope.qualify name = "") : name = "" := by
  unfold qualify at empty
  split at empty
  · exact empty
  · exact empty
  · exact (String.append_eq_empty_iff.mp empty).2

theorem ownerOr_child (reserved : List String) :
    NamingScope.ownerOr ((scope.child name).reserve reserved) name = scope.qualify name := by
  simp only [ownerOr, reserve, child]
  split
  · contradiction
  · rename_i owned
    have empty := Option.some.inj owned
    rw [empty, eq_of_qualify_empty empty]
  · rename_i owned
    exact (Option.some.inj owned).symm

end NamingScope

theorem fieldNames_length {properties : List (Value × Schema)} {names : List String}
    (found : fieldNames properties = .ok names) : names.length = properties.length := by
  obtain ⟨own, mapped, same⟩ := except_bind_ok.mp found
  obtain rfl := except_pure_ok.mp same
  rw [Naming.unique_length, ((mapM_ok_iff _ _ _).mp mapped).length_eq]

theorem properties_eq_nil {names : List String} {properties : List (Value × Schema)}
    (finished : names = [] ∨ properties = []) (count : names.length = properties.length) :
    properties = [] := by
  rcases finished with rfl | none
  · exact List.length_eq_zero_iff.mp count.symm
  · exact none

theorem declareStruct_yields {start : String} {declare : String → InScope ClassDeclaration}
    {scope after : NamingScope} {declared : List ClassDeclaration} {type : TypeExpression}
    (yields : Yields (declareStruct start declare) scope (declared, type) after) :
    type = .named none (scope.qualify (scope.ownName start)) ∧
      ((scope.ownName start ∈ scope.names ∧ declared = [] ∧ after = scope) ∨
        (scope.ownName start ∉ scope.names ∧ after = scope.add (scope.ownName start) ∧
          ∃ own last, Yields (declare (scope.ownName start)) (scope.child (scope.ownName start)) own last ∧
            declared = [own])) := by
  unfold declareStruct at yields
  obtain ⟨_, _, reading, yields⟩ := yields_bind.mp yields
  obtain ⟨rfl, rfl⟩ := yields_read.mp reading
  change Yields (if scope.contains (scope.ownName start) then _ else _) _ _ _ at yields
  split at yields
  · rename_i present
    obtain ⟨_, _, written, finished⟩ := yields_bind.mp yields
    obtain ⟨-, rfl⟩ := yields_liftTraced.mp written
    obtain ⟨rfl, rfl, rfl⟩ := yields_pure_pair.mp finished
    exact ⟨rfl, .inl ⟨NamingScope.contains_iff.mp present, rfl, rfl⟩⟩
  · rename_i absent
    obtain ⟨_, _, updated, yields⟩ := yields_bind.mp yields
    obtain rfl := yields_update.mp updated
    obtain ⟨own, _, ran, finished⟩ := yields_bind.mp yields
    obtain ⟨done, rfl⟩ := yields_liftTraced.mp ran
    obtain ⟨last, built⟩ := inside_ok.mp done
    obtain ⟨rfl, rfl, rfl⟩ := yields_pure_pair.mp finished
    exact ⟨rfl, .inr ⟨fun present => absent (NamingScope.contains_iff.mpr present), rfl, own, last, built,
      rfl⟩⟩

section

variable {description : Value} {additional : AdditionalMembers Schema} {properties : List (Value × Schema)}
  {name : String} {body : String → List String → InScope (List ClassDeclaration × List FieldDeclaration)}
  {scope after : NamingScope} {declared : ClassDeclaration}

theorem declareWith_spec
    (yields : Yields (declareWith description additional properties name body) scope declared after) :
    ∃ names inner fields,
      fieldNames properties = .ok names ∧
      Yields (body ((scope.reserve names).ownerOr name) names) (scope.reserve names) (inner, fields) after ∧
      declared =
        ⟨name, (scope.reserve names).ownerOr name, description, fields, inner, additional.isUnrestricted⟩ := by
  unfold declareWith at yields
  obtain ⟨names, _, naming, yields⟩ := yields_bind.mp yields
  obtain ⟨named, rfl⟩ := yields_liftMalformed.mp naming
  obtain ⟨_, _, updated, yields⟩ := yields_bind.mp yields
  obtain rfl := yields_update.mp updated
  obtain ⟨_, _, reading, yields⟩ := yields_bind.mp yields
  obtain ⟨rfl, rfl⟩ := yields_read.mp reading
  dsimp only at yields
  refine ⟨names, ?_⟩
  split at yields
  · obtain ⟨_, _, written, yields⟩ := yields_bind.mp yields
    obtain ⟨-, rfl⟩ := yields_liftTraced.mp written
    obtain ⟨⟨inner, fields⟩, _, ran, finished⟩ := yields_bind.mp yields
    obtain ⟨rfl, rfl⟩ := yields_pure.mp finished
    exact ⟨inner, fields, named, ran, rfl⟩
  · obtain ⟨⟨inner, fields⟩, _, ran, finished⟩ := yields_bind.mp yields
    obtain ⟨rfl, rfl⟩ := yields_pure.mp finished
    exact ⟨inner, fields, named, ran, rfl⟩

theorem declareWith_yields
    (yields : Yields (declareWith description additional properties name body) (scope.child name) declared
      after) :
    ∃ names inner fields,
      fieldNames properties = .ok names ∧
      Yields (body (scope.qualify name) names) ((scope.child name).reserve names) (inner, fields) after ∧
      declared = ⟨name, scope.qualify name, description, fields, inner, additional.isUnrestricted⟩ := by
  obtain ⟨names, inner, fields, named, ran, same⟩ := declareWith_spec yields
  rw [NamingScope.ownerOr_child] at ran same
  exact ⟨names, inner, fields, named, ran, same⟩

end

namespace Registry

variable {registry : Registry}

def fieldFor (name jsonName : String) (required : List Value) (schema : Schema) (type : TypeExpression) :
    FieldDeclaration where
  name
  jsonName
  type
  required := required.any (·.same (.string jsonName))
  nullable := schema.keywords.nullable
  description := schema.keywords.describe none

theorem emitFields_cons_yields {owner name : String} {required : List Value} {names : List String}
    {key : Value} {schema : Schema} {rest : List (Value × Schema)} {scope after : NamingScope}
    {inner : List ClassDeclaration} {fields : List FieldDeclaration}
    (yields : Yields (registry.emitFields owner required (name :: names) ((key, schema) :: rest)) scope
      (inner, fields) after) :
    ∃ jsonName declared type between others otherFields,
      key = .string jsonName ∧
      Yields (registry.emit (some (Naming.toIdentifierCamel jsonName)) schema) scope (declared, type)
        between ∧
      Yields (registry.emitFields owner required names rest) between (others, otherFields) after ∧
      inner = declared ++ others ∧
      fields = fieldFor name jsonName required schema type :: otherFields := by
  rw [Registry.emitFields] at yields
  obtain ⟨jsonName, _, reading, yields⟩ := yields_bind.mp yields
  obtain ⟨read, rfl⟩ := yields_liftMalformed.mp reading
  obtain ⟨⟨declared, type⟩, between, emitted, yields⟩ := yields_bind.mp yields
  obtain ⟨⟨others, otherFields⟩, _, following, finished⟩ := yields_bind.mp yields
  obtain ⟨rfl, rfl, rfl⟩ := yields_pure_pair.mp finished
  refine ⟨jsonName, declared, type, between, others, otherFields, ?_, yields_mapFailure.mp emitted, following,
    rfl, rfl⟩
  cases key with
  | string text => exact congrArg Value.string (Except.ok.inj read)
  | _ => cases read

theorem emitFields_nil_yields {owner : String} {required : List Value} {names : List String}
    {properties : List (Value × Schema)} {scope after : NamingScope} {inner : List ClassDeclaration}
    {fields : List FieldDeclaration} (finished : names = [] ∨ properties = [])
    (yields : Yields (registry.emitFields owner required names properties) scope (inner, fields) after) :
    inner = [] ∧ fields = [] ∧ after = scope := by
  rw [Registry.emitFields] at yields
  · obtain ⟨rfl, rfl, rfl⟩ := yields_pure_pair.mp yields
    exact ⟨rfl, rfl, rfl⟩
  · rintro name rest key schema others rfl rfl
    rcases finished with none | none <;> cases none

theorem emit_eq (suggested : Option String) (schema : Schema) :
    registry.emit suggested schema =
      match schema.emissionShape with
      | .leaf => do pure ([], ← registry.typeOf suggested schema)
      | .struct properties => do
          let name ← structName schema.keywords suggested
          declareStruct name fun name =>
            declareWith (schema.keywords.describe none) schema.additional properties name
              fun owner names => registry.emitFields owner schema.keywords.required names properties
      | .map value => do
          let (declared, type) ← registry.emit suggested value
          pure (declared, .map type)
      | .array items => do
          let (declared, type) ← registry.emit suggested items
          pure (declared, .array type)
      | .incomplete => InScope.ofTraced (.fail (.ofProblem .missingItems))
      | .union member => registry.emit suggested member := by
  obtain ⟨keywords, items, properties, additional, anyOf, oneOf, allOf⟩ := schema
  rw [Registry.emit.eq_def]
  dsimp only [Schema.emissionShape]
  by_cases reference : keywords.isReference
  · simp only [reference, ↓reduceIte]
  · simp only [reference, Bool.false_eq_true, ↓reduceIte]
    cases keywords.typeName with
    | object =>
        cases properties with
        | some properties => rfl
        | none => cases additional <;> rfl
    | array => cases items <;> rfl
    | absent => rcases anyOf with _ | _ | ⟨member, _ | _⟩ <;> rfl
    | _ => rfl

variable {suggested : Option String} {schema : Schema} {scope after : NamingScope}
  {declared : List ClassDeclaration} {type : TypeExpression}

theorem emit_leaf_yields (shape : schema.emissionShape = .leaf)
    (yields : Yields (registry.emit suggested schema) scope (declared, type) after) :
    declared = [] ∧ (registry.typeOf suggested schema).result = .ok type ∧ after = scope := by
  rw [emit_eq, shape] at yields
  obtain ⟨found, _, typing, finished⟩ := yields_bind.mp yields
  obtain ⟨typed, rfl⟩ := yields_liftTraced.mp typing
  obtain ⟨rfl, rfl, rfl⟩ := yields_pure_pair.mp finished
  exact ⟨rfl, typed, rfl⟩

/-- A struct whose class is there already is only referred to. For any other a class is declared, whose body
is emitted in a scope of its own. -/
theorem emit_struct_yields {properties : List (Value × Schema)}
    (shape : schema.emissionShape = .struct properties)
    (yields : Yields (registry.emit suggested schema) scope (declared, type) after) :
    ∃ start, structName schema.keywords suggested = .ok start ∧
      type = .named none (scope.qualify (scope.ownName start)) ∧
      ((scope.ownName start ∈ scope.names ∧ declared = [] ∧ after = scope) ∨
        (scope.ownName start ∉ scope.names ∧ after = scope.add (scope.ownName start) ∧
          ∃ names inner fields last, fieldNames properties = .ok names ∧
            Yields (registry.emitFields (scope.qualify (scope.ownName start)) schema.keywords.required names
              properties) ((scope.child (scope.ownName start)).reserve names) (inner, fields) last ∧
            declared = [⟨scope.ownName start, scope.qualify (scope.ownName start),
              schema.keywords.describe none, fields, inner, schema.additional.isUnrestricted⟩])) := by
  rw [emit_eq, shape] at yields
  obtain ⟨start, _, naming, yields⟩ := yields_bind.mp yields
  obtain ⟨named, rfl⟩ := yields_lift.mp naming
  obtain ⟨rfl, ⟨present, rfl, rfl⟩ | ⟨absent, rfl, own, last, built, rfl⟩⟩ := declareStruct_yields yields
  · exact ⟨start, named, rfl, .inl ⟨present, rfl, rfl⟩⟩
  · obtain ⟨names, inner, fields, namesFound, body, rfl⟩ := declareWith_yields built
    exact ⟨start, named, rfl, .inr ⟨absent, rfl, names, inner, fields, last, namesFound, body, rfl⟩⟩

theorem emit_map_yields {value : Schema} (shape : schema.emissionShape = .map value)
    (yields : Yields (registry.emit suggested schema) scope (declared, type) after) :
    ∃ element, Yields (registry.emit suggested value) scope (declared, element) after ∧
      type = .map element := by
  rw [emit_eq, shape] at yields
  obtain ⟨⟨classes, element⟩, _, emitted, finished⟩ := yields_bind.mp yields
  obtain ⟨rfl, rfl, rfl⟩ := yields_pure_pair.mp finished
  exact ⟨element, emitted, rfl⟩

theorem emit_array_yields {items : Schema} (shape : schema.emissionShape = .array items)
    (yields : Yields (registry.emit suggested schema) scope (declared, type) after) :
    ∃ element, Yields (registry.emit suggested items) scope (declared, element) after ∧
      type = .array element := by
  rw [emit_eq, shape] at yields
  obtain ⟨⟨classes, element⟩, _, emitted, finished⟩ := yields_bind.mp yields
  obtain ⟨rfl, rfl, rfl⟩ := yields_pure_pair.mp finished
  exact ⟨element, emitted, rfl⟩

theorem emit_incomplete_fails (shape : schema.emissionShape = .incomplete) :
    ¬Yields (registry.emit suggested schema) scope (declared, type) after := by
  intro yields
  rw [emit_eq, shape] at yields
  cases yields.1

theorem emit_union_yields {member : Schema} (shape : schema.emissionShape = .union member)
    (yields : Yields (registry.emit suggested schema) scope (declared, type) after) :
    Yields (registry.emit suggested member) scope (declared, type) after := by
  rw [emit_eq, shape] at yields
  exact yields

/-- Induction along a successful emission. `typed` is about a schema in a scope, the classes declared for it,
its type and the scope that is left; `bodied` is the same for the properties of a class body. -/
theorem emit_induction
    (typed : Option String → Schema → NamingScope → List ClassDeclaration → TypeExpression →
      NamingScope → Prop)
    (bodied : String → List Value → List String → List (Value × Schema) → NamingScope →
      List ClassDeclaration → List FieldDeclaration → NamingScope → Prop)
    (leaf : ∀ suggested schema scope type, schema.emissionShape = .leaf →
      (registry.typeOf suggested schema).result = .ok type → typed suggested schema scope [] type scope)
    (present : ∀ suggested schema properties scope start, schema.emissionShape = .struct properties →
      structName schema.keywords suggested = .ok start → scope.ownName start ∈ scope.names →
      typed suggested schema scope [] (.named none (scope.qualify (scope.ownName start))) scope)
    (absent : ∀ suggested schema properties scope start names inner fields last,
      schema.emissionShape = .struct properties → structName schema.keywords suggested = .ok start →
      scope.ownName start ∉ scope.names → fieldNames properties = .ok names →
      bodied (scope.qualify (scope.ownName start)) schema.keywords.required names properties
        ((scope.child (scope.ownName start)).reserve names) inner fields last →
      typed suggested schema scope
        [⟨scope.ownName start, scope.qualify (scope.ownName start), schema.keywords.describe none, fields,
          inner, schema.additional.isUnrestricted⟩]
        (.named none (scope.qualify (scope.ownName start))) (scope.add (scope.ownName start)))
    (map : ∀ suggested schema value scope declared type after, schema.emissionShape = .map value →
      typed suggested value scope declared type after →
      typed suggested schema scope declared (.map type) after)
    (array : ∀ suggested schema items scope declared type after, schema.emissionShape = .array items →
      typed suggested items scope declared type after →
      typed suggested schema scope declared (.array type) after)
    (union : ∀ suggested schema member scope declared type after, schema.emissionShape = .union member →
      typed suggested member scope declared type after → typed suggested schema scope declared type after)
    (done : ∀ owner required names properties scope, names = [] ∨ properties = [] →
      bodied owner required names properties scope [] [] scope)
    (property : ∀ owner required name names jsonName schema rest scope declared type between inner fields
      after,
      Yields (registry.emit (some (Naming.toIdentifierCamel jsonName)) schema) scope (declared, type)
        between →
      typed (some (Naming.toIdentifierCamel jsonName)) schema scope declared type between →
      bodied owner required names rest between inner fields after →
      bodied owner required (name :: names) ((.string jsonName, schema) :: rest) scope (declared ++ inner)
        (fieldFor name jsonName required schema type :: fields) after) :
    ∀ suggested schema scope declared type after,
      Yields (registry.emit suggested schema) scope (declared, type) after →
      typed suggested schema scope declared type after := by
  intro suggested schema
  induction size : sizeOf schema using Nat.strongRecOn generalizing suggested schema with
  | ind size smaller =>
      subst size
      -- The properties of a class body are an induction of their own, over schemas that are smaller.
      have body : ∀ properties : List (Value × Schema),
          (∀ entry ∈ properties, sizeOf entry.2 < sizeOf schema) →
          ∀ owner required names scope inner fields after,
            Yields (registry.emitFields owner required names properties) scope (inner, fields) after →
            bodied owner required names properties scope inner fields after := by
        intro properties
        induction properties with
        | nil =>
            intro _ owner required names scope inner fields after yields
            obtain ⟨rfl, rfl, rfl⟩ := emitFields_nil_yields (.inr rfl) yields
            exact done _ _ _ _ _ (.inr rfl)
        | cons entry rest ih =>
            intro small owner required names scope inner fields after yields
            cases names with
            | nil =>
                obtain ⟨rfl, rfl, rfl⟩ := emitFields_nil_yields (.inl rfl) yields
                exact done _ _ _ _ _ (.inl rfl)
            | cons name names =>
                obtain ⟨key, part⟩ := entry
                obtain ⟨jsonName, declared, type, between, others, otherFields, rfl, emitted, following, rfl,
                  rfl⟩ := emitFields_cons_yields yields
                exact property _ _ _ _ _ _ _ _ _ _ _ _ _ _ emitted
                  (smaller _ (small _ List.mem_cons_self) _ _ rfl _ _ _ _ emitted)
                  (ih (fun entry member => small entry (List.mem_cons_of_mem _ member)) _ _ _ _ _ _ _
                    following)
      have spec := schema.emissionShape_spec
      intro scope declared type after yields
      cases shape : schema.emissionShape with
      | leaf =>
          obtain ⟨rfl, typing, rfl⟩ := emit_leaf_yields shape yields
          exact leaf _ _ _ _ shape typing
      | struct properties =>
          simp only [shape] at spec
          have parts : ∀ entry ∈ properties, sizeOf entry.2 < sizeOf schema :=
            fun _ member => Schema.sizeOf_property spec.2.2 member
          obtain ⟨start, named, rfl, ⟨found, rfl, rfl⟩ | ⟨fresh, rfl, names, inner, fields, last, namesFound,
            built, rfl⟩⟩ := emit_struct_yields shape yields
          · exact present _ _ _ _ _ shape named found
          · exact absent _ _ _ _ _ _ _ _ _ shape named fresh namesFound (body _ parts _ _ _ _ _ _ _ built)
      | map value =>
          simp only [shape] at spec
          obtain ⟨element, emitted, rfl⟩ := emit_map_yields shape yields
          exact map _ _ _ _ _ _ _ shape
            (smaller _ (Schema.sizeOf_additional spec.2.2.2) _ _ rfl _ _ _ _ emitted)
      | array items =>
          simp only [shape] at spec
          obtain ⟨element, emitted, rfl⟩ := emit_array_yields shape yields
          exact array _ _ _ _ _ _ _ shape
            (smaller _ (Schema.sizeOf_items spec.2.2) _ _ rfl _ _ _ _ emitted)
      | incomplete => exact absurd yields (emit_incomplete_fails shape)
      | union member =>
          simp only [shape] at spec
          exact union _ _ _ _ _ _ _ shape
            (smaller _ (Schema.sizeOf_anyOf spec.2.2 List.mem_cons_self) _ _ rfl _ _ _ _
              (emit_union_yields shape yields))

end Registry
end OpenApiClient
