import OpenApiClient.Proofs.ClaimedNames
import OpenApiClient.Proofs.FreshNames
import OpenApiClient.Proofs.ScopeGrowth

/-! The classes of request bodies and responses. All contents of a service share one scope, so that those
which come to one name share a class: that of the first of them. -/

namespace OpenApiClient

open InScope

/-- The object for which an emission declares a class: the schema itself or what it is a list, a map or a
union of. -/
def Schema.object? : Schema → Option Schema
  | ⟨keywords, items, properties, additional, anyOf, oneOf, allOf⟩ =>
      if keywords.isReference then none
      else
        match keywords.typeName with
        | .object =>
            match properties, additional with
            | some properties, additional =>
                some ⟨keywords, items, some properties, additional, anyOf, oneOf, allOf⟩
            | none, .typed value => value.object?
            | none, _ => none
        | .array =>
            match items with
            | none => none
            | some items => items.object?
        | .absent =>
            match anyOf with
            | some [member] => member.object?
            | _ => none
        | _ => none

theorem Schema.object?_eq (schema : Schema) :
    schema.object? =
      match schema.emissionShape with
      | .leaf | .incomplete => none
      | .struct _ => some schema
      | .map value => value.object?
      | .array items => items.object?
      | .union member => member.object? := by
  obtain ⟨keywords, items, properties, additional, anyOf, oneOf, allOf⟩ := schema
  rw [Schema.object?.eq_def]
  dsimp only [Schema.emissionShape]
  by_cases reference : keywords.isReference
  · simp only [reference, ↓reduceIte]
  · simp only [reference, Bool.false_eq_true, ↓reduceIte]
    cases keywords.typeName with
    | object =>
        cases properties with
        | some properties => rfl
        | none => cases additional <;> rfl
    | array => cases items <;> rfl
    | absent => rcases anyOf with _ | _ | ⟨member, _ | _⟩ <;> rfl
    | _ => rfl

def ClassDeclaration.FieldsOf (own : ClassDeclaration) (object : Schema) : Prop :=
  own.fields.map (fun field => Value.string field.jsonName) = (object.properties.getD []).map Prod.fst

def Schema.IsInlineObject (schema : Schema) : Prop :=
  schema.isStruct = true ∧ schema.keywords.title.truth = false

def Schema.declaredName (scope : NamingScope) (suggested : Option String) (schema : Schema) : Option String :=
  match schema.object? with
  | none => none
  | some object =>
      match structName object.keywords suggested with
      | .ok name => some (scope.ownName name)
      | .error _ => none

namespace Registry

variable {registry : Registry}

def Declares (scope : NamingScope) (suggested : Option String) (schema : Schema)
    (declared : List ClassDeclaration) : Prop :=
  match schema.object? with
  | none => declared = []
  | some object =>
      ∃ start, structName object.keywords suggested = .ok start ∧
        (scope.ownName start ∈ scope.names ∧ declared = [] ∨
          ∃ own, declared = [own] ∧ own.name = scope.ownName start ∧ own.FieldsOf object)

theorem emit_declares {suggested : Option String} {schema : Schema} {scope after : NamingScope}
    {declared : List ClassDeclaration} {type : TypeExpression}
    (yields : Yields (registry.emit suggested schema) scope (declared, type) after) :
    Declares scope suggested schema declared := by
  refine registry.emit_induction
    (fun suggested schema scope declared _ _ => Declares scope suggested schema declared)
    (fun _ _ names properties _ _ fields _ => names.length = properties.length →
      fields.map (fun field => Value.string field.jsonName) = properties.map Prod.fst)
    ?leaf ?present ?absent ?map ?array ?union ?done ?property
    suggested schema scope declared type after yields
  case leaf =>
    intro _ schema _ _ shape _
    simp [Declares, schema.object?_eq, shape]
  case present =>
    intro _ schema _ _ start shape named known
    simp only [Declares, schema.object?_eq, shape]
    exact ⟨start, named, .inl ⟨known, trivial⟩⟩
  case absent =>
    intro _ schema properties _ start names _ _ _ shape named fresh found body
    simp only [Declares, schema.object?_eq, shape]
    refine ⟨start, named, .inr ⟨_, rfl, rfl, ?_⟩⟩
    obtain ⟨-, -, given⟩ := Schema.emissionShape_struct shape
    simpa [ClassDeclaration.FieldsOf, given] using body (fieldNames_length found)
  case map | array | union =>
    intro _ schema _ _ _ _ _ shape ih
    simpa only [Declares, schema.object?_eq, shape] using ih
  case done =>
    intro _ _ names properties _ finished count
    simp [properties_eq_nil finished count]
  case property =>
    intro _ _ _ _ _ _ _ _ _ _ _ _ _ _ _ _ ih count
    exact congrArg (_ :: ·) (ih (Nat.succ.inj count))

end Registry

structure ContentSchema where
  suggested : String
  schema : Schema
  deriving Repr, Inhabited

namespace ContentSchema

def firstOf (suggested : String) : Content → List ContentSchema
  | (_, some schema) :: _ => [⟨suggested, schema⟩]
  | _ => []

def comesTo (base : NamingScope) (text : String) (content : ContentSchema) : Bool :=
  content.schema.declaredName base (some content.suggested) == some text

variable {base scope : NamingScope} {text : String} {content : ContentSchema}
  {declared : List ClassDeclaration}

theorem others_declared (spec : Registry.Declares scope (some content.suggested) content.schema declared)
    (same : scope.reserved = base.reserved) (other : content.comesTo base text = false) :
    ∀ own ∈ declared, own.name ≠ text := by
  simp only [Registry.Declares, comesTo, Schema.declaredName, beq_eq_false_iff_ne] at spec other
  cases found : content.schema.object? with
  | none => simp_all
  | some object =>
      simp only [found] at spec other
      obtain ⟨start, named, ⟨-, rfl⟩ | ⟨own, rfl, ownName, -⟩⟩ := spec
      · simp
      · rw [named] at other
        rw [List.forall_mem_singleton, ownName, NamingScope.ownName_of_reserved same]
        exact fun alike => other (congrArg some alike)

theorem own_declared (spec : Registry.Declares scope (some content.suggested) content.schema declared)
    (same : scope.reserved = base.reserved) (comes : content.comesTo base text = true)
    (fresh : text ∉ scope.names) :
    ∃ own object, declared = [own] ∧ own.name = text ∧ content.schema.object? = some object ∧
      own.FieldsOf object := by
  simp only [Registry.Declares, comesTo, Schema.declaredName, beq_iff_eq] at spec comes
  cases found : content.schema.object? with
  | none => simp [found] at comes
  | some object =>
      simp only [found] at spec comes
      obtain ⟨start, named, declaring⟩ := spec
      rw [named] at comes
      obtain rfl := Option.some.inj comes
      rw [NamingScope.ownName_of_reserved same] at declaring
      obtain ⟨known, -⟩ | ⟨own, rfl, ownName, fields⟩ := declaring
      · exact absurd known fresh
      · exact ⟨own, object, rfl, ownName, rfl, fields⟩

end ContentSchema

/-- The class of a name is declared once, for the first schema that comes to it, or not at all when none
does. -/
structure Shares (base : NamingScope) (text : String) (scope : NamingScope) (declared : List ClassDeclaration)
    (contents : List ContentSchema) : Prop where
  reserved : scope.reserved = base.reserved
  known : text ∈ scope.names ↔ (contents.find? (·.comesTo base text)).isSome = true
  absent : contents.find? (·.comesTo base text) = none → declared.filter (·.name == text) = []
  first : ∀ content, contents.find? (·.comesTo base text) = some content →
    ∃ own object, declared.filter (·.name == text) = [own] ∧ content.schema.object? = some object ∧
      own.FieldsOf object

def NeverClaimed (base : NamingScope) (text : String) : Prop := Unclaimed text ∨ text ∈ base.reserved

/-- A part of a service is compiled: the scope stays one of the module, and classes are shared among all
contents so far. -/
structure Advances (base scope : NamingScope) (declared : List ClassDeclaration)
    (contents : List ContentSchema) (after : NamingScope) : Prop where
  owner : after.owner = scope.owner
  reserved : after.reserved = scope.reserved
  shares : ∀ {text before earlier}, NeverClaimed base text → Shares base text scope before earlier →
    Shares base text after (before ++ declared) (earlier ++ contents)

namespace Advances

variable {base scope between after : NamingScope} {declared others : List ClassDeclaration}
  {contents later : List ContentSchema}

theorem refl (base scope : NamingScope) : Advances base scope [] [] scope where
  owner := rfl
  reserved := rfl
  shares := fun _ state => by simpa using state

theorem trans (first : Advances base scope declared contents between)
    (second : Advances base between others later after) :
    Advances base scope (declared ++ others) (contents ++ later) after where
  owner := second.owner.trans first.owner
  reserved := second.reserved.trans first.reserved
  shares := fun never state => by
    simpa only [List.append_assoc] using second.shares never (first.shares never state)

theorem ne_claimed {text name : String} (claimed : ¬Unclaimed name ∧ name ∉ scope.reserved)
    (same : scope.reserved = base.reserved) (never : NeverClaimed base text) : text ≠ name := by
  rintro rfl
  rcases never with unclaimed | reserved
  · exact claimed.1 unclaimed
  · rw [← same] at reserved
    exact claimed.2 reserved

theorem add {name : String} (claimed : ¬Unclaimed name ∧ name ∉ scope.reserved) :
    Advances base scope [] [] (scope.add name) where
  owner := rfl
  reserved := rfl
  shares := fun {text _ _} never state => by
    have different : text ≠ name := ne_claimed claimed state.reserved never
    have kept : text ∈ (scope.add name).names ↔ text ∈ scope.names := by
      rw [NamingScope.add, NamingScope.mem_insert, or_iff_right different]
    simp only [List.append_nil]
    exact ⟨state.reserved, kept.trans state.known, state.absent, state.first⟩

theorem declare {own : ClassDeclaration} (claimed : ¬Unclaimed own.name ∧ own.name ∉ scope.reserved) :
    Advances base scope [own] [] scope where
  owner := rfl
  reserved := rfl
  shares := fun {text before _} never state => by
    have different : (own.name == text) = false :=
      beq_false_of_ne (ne_claimed claimed state.reserved never).symm
    have kept : (before ++ [own]).filter (·.name == text) = before.filter (·.name == text) := by
      simp [List.filter_append, different]
    simp only [List.append_nil]
    exact ⟨state.reserved, state.known, fun none => kept.trans (state.absent none), by
      simpa only [kept] using state.first⟩

theorem emit {registry : Registry} {suggested : String} {schema : Schema} {type : TypeExpression}
    (yields : Yields (registry.emit (some suggested) schema) scope (declared, type) after) :
    Advances base scope declared [⟨suggested, schema⟩] after := by
  have growth := Registry.emit_grows yields
  have spec := Registry.emit_declares yields
  refine ⟨growth.owner, growth.reserved, fun {text before earlier} _ state => ?_⟩
  have reserved := growth.reserved.trans state.reserved
  have known : text ∈ after.names ↔ text ∈ scope.names ∨ ∃ own ∈ declared, own.name = text := by
    simp [growth.names]
  have unnamed : (∀ own ∈ declared, own.name ≠ text) →
      (before ++ declared).filter (·.name == text) = before.filter (·.name == text) := by
    intro apart
    simpa [List.filter_append] using apart
  cases found : earlier.find? (·.comesTo base text) with
  | some content =>
      have present : text ∈ scope.names := state.known.mpr (by simp [found])
      have kept := unnamed fun own member same => growth.fresh own member (same ▸ present)
      obtain ⟨own, object, one, rest⟩ := state.first content found
      refine ⟨reserved, ?_, ?_, ?_⟩
      · simp [known, present, List.find?_append, found]
      · simp [List.find?_append, found]
      · intro other again
        obtain rfl : content = other := by simpa [List.find?_append, found] using again
        exact ⟨own, object, kept.trans one, rest⟩
  | none =>
      have fresh : text ∉ scope.names := fun present => by simpa [found] using state.known.mp present
      have empty := state.absent found
      cases comes : (⟨suggested, schema⟩ : ContentSchema).comesTo base text with
      | false =>
          have apart := ContentSchema.others_declared spec state.reserved comes
          refine ⟨reserved, ?_, ?_, ?_⟩
          · simpa [known, fresh, List.find?_append, found, comes] using apart
          · exact fun _ => (unnamed apart).trans empty
          · simp [List.find?_append, found, comes]
      | true =>
          obtain ⟨own, object, rfl, rfl, objectFound, fields⟩ :=
            ContentSchema.own_declared spec state.reserved comes fresh
          refine ⟨reserved, ?_, ?_, ?_⟩
          · simp [known, List.find?_append, found, comes]
          · simp [List.find?_append, found, comes]
          · intro content again
            obtain rfl : ⟨suggested, schema⟩ = content := by
              simpa [List.find?_append, found, comes] using again
            exact ⟨own, object, by simp [List.filter_append, empty], objectFound, fields⟩

end Advances

namespace Operation

def bodyContents (operation : Operation) (start : String) : List ContentSchema :=
  match operation.requestBody with
  | none => []
  | some request => ContentSchema.firstOf (start ++ "Body") request.content

def accepted (responses : List (String × Response)) : List (String × Response) :=
  responses.filter fun entry => Client.isStatusPattern entry.1

def responseClass (start pattern : String) : String :=
  start ++ "Response" ++ OperationContext.responseEnding (Text.lowerText pattern)

def responseContents (start : String) (responses : List (String × Response)) : List ContentSchema :=
  (accepted responses).flatMap fun entry =>
    ContentSchema.firstOf (responseClass start entry.1) entry.2.content

end Operation

namespace OperationMethod

def contents (method : OperationMethod) : List ContentSchema :=
  let start := Naming.toIdentifierCamel method.operationId
  method.operation.bodyContents start ++ Operation.responseContents start method.operation.responses

end OperationMethod

namespace OperationContext

variable {context : OperationContext} {base scope after : NamingScope} {declared : List ClassDeclaration}

theorem claimName_advances {start ending free : String} {c : Char} (last : lastLetter ending = some c)
    (taken : c = 'r' ∨ c = 's') (yields : Yields (claimName (start ++ ending)) scope free after) :
    Advances base scope [] [] after ∧ ¬Unclaimed free ∧ free ∉ after.reserved := by
  have unreserved := (claimName_not_mem yields).2
  obtain ⟨rfl, letter⟩ := claimName_yields yields
  have claimed : ¬Unclaimed free := by
    rw [lastLetter_append last] at letter
    rcases taken with rfl | rfl <;> simp [Unclaimed, letter]
  exact ⟨.add ⟨claimed, unreserved⟩, claimed, unreserved⟩

theorem buildClass_name {registry : Registry} {schema : Schema} {name : String} {description : Option String}
    {own : ClassDeclaration}
    (built : (registry.buildClass schema name (scope.child name) description).result = .ok own) :
    own.name = name := by
  obtain ⟨last, yields⟩ := inside_ok.mp built
  obtain ⟨names, inner, fields, -, -, rfl⟩ := declareWith_yields yields
  rfl

theorem parameters_yields {operation : Operation} {start methodName : String}
    {result : Option String × Bool × List ParameterBinding}
    (yields : Yields (context.parameters operation start methodName) scope (declared, result) after) :
    declared = [] ∧ after = scope ∧ operation.parameters = [] ∧ result = (none, false, []) ∨
      ∃ kept name own, (keepFirst operation [] operation.parameters).result = .ok kept ∧
        Yields (claimName (start ++ "Params")) scope name after ∧
        (context.registry.buildClass (parameterGroup kept) name (after.child name)
          (some ("Parameters of " ++ methodName ++ "."))).result = .ok own ∧ declared = [own] ∧
        result = (some name, kept.any Parameter.isRequired,
          (kept.zip own.fields).map fun (parameter, field) => parameter.binding field) := by
  unfold OperationContext.parameters at yields
  split at yields
  · rename_i empty
    obtain ⟨rfl, rfl, rfl⟩ := yields_pure_pair.mp yields
    exact .inl ⟨rfl, rfl, List.isEmpty_iff.mp empty, rfl⟩
  · obtain ⟨kept, _, keeping, yields⟩ := yields_bind.mp yields
    obtain ⟨found, rfl⟩ := yields_liftTraced.mp keeping
    obtain ⟨name, _, claiming, yields⟩ := yields_bind.mp yields
    obtain ⟨_, _, reading, yields⟩ := yields_bind.mp yields
    obtain ⟨rfl, rfl⟩ := yields_read.mp reading
    obtain ⟨own, _, building, finished⟩ := yields_bind.mp yields
    obtain ⟨built, rfl⟩ := yields_liftTraced.mp building
    obtain ⟨rfl, rfl, rfl⟩ := yields_pure_pair.mp finished
    exact .inr ⟨kept, name, own, found, claiming, built, rfl, rfl⟩

theorem parameters_advances {operation : Operation} {start methodName : String}
    {result : Option String × Bool × List ParameterBinding}
    (yields : Yields (context.parameters operation start methodName) scope (declared, result) after) :
    Advances base scope declared [] after := by
  obtain ⟨rfl, rfl, -⟩ | ⟨kept, name, own, -, claiming, built, rfl, -⟩ := parameters_yields yields
  · exact .refl base after
  · obtain ⟨advances, claimed⟩ : Advances base scope [] [] after ∧ ¬Unclaimed name ∧ name ∉ after.reserved :=
      claimName_advances (show lastLetter "Params" = some 's' from by decide) (.inr rfl) claiming
    exact advances.trans (.declare (buildClass_name built ▸ claimed))

theorem firstContent_ok {what : String} {contentType : Value} {schema : Option Schema} {others : Content}
    {result : Value × Option Schema}
    (found : (firstContent what contentType schema others).result = .ok result) :
    result = (contentType, schema) := by
  unfold firstContent at found
  split at found
  · obtain ⟨_, -, same⟩ := Traced.bind_ok.mp found
    exact (Traced.pure_ok.mp same).symm
  · exact (Traced.pure_ok.mp found).symm

theorem contentType_yields {schema : Option Schema} {name typeText : String}
    (yields : Yields (context.contentType schema name) scope (declared, typeText) after) :
    schema = none ∧ declared = [] ∧ after = scope ∧ typeText = "Any" ∨
      ∃ own type, schema = some own ∧
        Yields (context.registry.emit (some name) own) scope (declared, type) after ∧
        typeText = type.render [] := by
  unfold OperationContext.contentType at yields
  split at yields
  · obtain ⟨rfl, rfl, rfl⟩ := yields_pure_pair.mp yields
    exact .inl ⟨rfl, rfl, rfl, rfl⟩
  · rename_i own
    obtain ⟨⟨classes, type⟩, _, emitted, finished⟩ := yields_bind.mp yields
    obtain ⟨rfl, rfl, rfl⟩ := yields_pure_pair.mp finished
    exact .inr ⟨own, type, rfl, emitted, rfl⟩

theorem contentType_advances {content : Content} {contentType : Value} {schema : Option Schema}
    {others : Content} {name typeText : String} (first : content = (contentType, schema) :: others)
    (yields : Yields (context.contentType schema name) scope (declared, typeText) after) :
    Advances base scope declared (ContentSchema.firstOf name content) after := by
  subst first
  obtain ⟨rfl, rfl, rfl, -⟩ | ⟨own, type, rfl, emitted, -⟩ := contentType_yields yields
  · exact .refl base after
  · exact .emit emitted

theorem contentType_text {schema : Schema} {name typeText : String} (inline : schema.IsInlineObject)
    (filled : name ≠ "") (module : scope.owner = none) (reserved : scope.reserved = base.reserved)
    (yields : Yields (context.contentType (some schema) name) scope (declared, typeText) after) :
    typeText = base.ownName name ∧
      (⟨name, schema⟩ : ContentSchema).comesTo base (base.ownName name) = true := by
  obtain ⟨none, -⟩ | ⟨own, type, same, emitted, rfl⟩ := contentType_yields yields
  · contradiction
  obtain rfl := Option.some.inj same
  obtain ⟨properties, -, shape⟩ := Schema.emissionShape_of_isStruct inline.1
  have named : structName schema.keywords (some name) = .ok name := by
    unfold structName
    simp only [inline.2, Bool.false_eq_true, ↓reduceIte]
  obtain ⟨start, again, rfl, -⟩ := Registry.emit_struct_yields shape emitted
  obtain rfl := Except.ok.inj (named.symm.trans again)
  constructor
  · simp [TypeExpression.render, NamingScope.qualify, module, NamingScope.ownName_of_reserved reserved]
  · simp [ContentSchema.comesTo, Schema.declaredName, Schema.object?_eq, shape, named]

theorem body_yields {operation : Operation} {start operationId : String} {body : Option BodyShape}
    (yields : Yields (context.body operation start operationId) scope (declared, body) after) :
    operation.bodyContents start = [] ∧ declared = [] ∧ after = scope ∧ body = none ∨
      ∃ request contentType schema others shape, operation.requestBody = some request ∧
        request.content = (contentType, schema) :: others ∧ body = some shape ∧
        Yields (context.contentType schema (start ++ "Body")) scope (declared, shape.typeText) after := by
  unfold OperationContext.body at yields
  cases requested : operation.requestBody with
  | none =>
      simp only [requested] at yields
      obtain ⟨rfl, rfl, rfl⟩ := yields_pure_pair.mp yields
      exact .inl ⟨by simp only [Operation.bodyContents, requested], rfl, rfl, rfl⟩
  | some request =>
      simp only [requested] at yields
      cases filled : request.content with
      | nil =>
          simp only [filled] at yields
          obtain ⟨rfl, rfl, rfl⟩ := yields_pure_pair.mp yields
          refine .inl ⟨?_, rfl, rfl, rfl⟩
          simp only [Operation.bodyContents, requested, filled, ContentSchema.firstOf]
      | cons entry others =>
          obtain ⟨contentType, schema⟩ := entry
          simp only [filled] at yields
          obtain ⟨_, _, choosing, yields⟩ := yields_bind.mp yields
          obtain ⟨chosen, rfl⟩ := yields_liftTraced.mp choosing
          obtain rfl := firstContent_ok chosen
          obtain ⟨⟨classes, typeText⟩, _, typed, finished⟩ := yields_bind.mp yields
          obtain ⟨rfl, rfl, rfl⟩ := yields_pure_pair.mp finished
          exact .inr ⟨request, contentType, schema, others, _, rfl, filled, rfl, typed⟩

theorem body_advances {operation : Operation} {start operationId : String} {body : Option BodyShape}
    (yields : Yields (context.body operation start operationId) scope (declared, body) after) :
    Advances base scope declared (operation.bodyContents start) after := by
  obtain ⟨none, rfl, rfl, -⟩ |
    ⟨request, contentType, schema, others, shape, requested, filled, -, typed⟩ := body_yields yields
  · rw [none]
    exact .refl base after
  · simp only [Operation.bodyContents, requested]
    exact contentType_advances filled typed

theorem response_yields {start operationId pattern : String} {response : Response} {shape : ResponseShape}
    (yields : Yields (context.response start operationId pattern response) scope (declared, shape) after) :
    response.content = [] ∧ declared = [] ∧ after = scope ∧ shape.typeText = none ∨
      ∃ contentType schema others typeText, response.content = (contentType, schema) :: others ∧
        shape.typeText = some typeText ∧
        Yields (context.contentType schema (Operation.responseClass start pattern)) scope (declared, typeText)
          after := by
  unfold OperationContext.response at yields
  dsimp only at yields
  split at yields
  · rename_i empty
    obtain ⟨rfl, rfl, rfl⟩ := yields_pure_pair.mp yields
    exact .inl ⟨empty, rfl, rfl, rfl⟩
  · rename_i contentType schema others filled
    obtain ⟨_, _, choosing, yields⟩ := yields_bind.mp yields
    obtain ⟨chosen, rfl⟩ := yields_liftTraced.mp choosing
    obtain rfl := firstContent_ok chosen
    obtain ⟨⟨classes, typeText⟩, _, typed, finished⟩ := yields_bind.mp yields
    obtain ⟨rfl, rfl, rfl⟩ := yields_pure_pair.mp finished
    exact .inr ⟨contentType, schema, others, typeText, filled, rfl, typed⟩

theorem response_advances {start operationId pattern : String} {response : Response} {shape : ResponseShape}
    (yields : Yields (context.response start operationId pattern response) scope (declared, shape) after) :
    Advances base scope declared
      (ContentSchema.firstOf (Operation.responseClass start pattern) response.content) after := by
  obtain ⟨empty, rfl, rfl, -⟩ | ⟨contentType, schema, others, typeText, filled, -, typed⟩ :=
    response_yields yields
  · rw [empty]
    exact .refl base after
  · exact contentType_advances filled typed

def ResponseNamed (base : NamingScope) (start : String) (entry : String × Response) (shape : ResponseShape) :
    Prop :=
  ∀ contentType schema others, entry.2.content = (contentType, some schema) :: others →
    schema.IsInlineObject →
    shape.typeText = some (base.ownName (Operation.responseClass start entry.1)) ∧
      (⟨Operation.responseClass start entry.1, schema⟩ : ContentSchema).comesTo base
        (base.ownName (Operation.responseClass start entry.1)) = true

theorem response_named {start operationId pattern : String} {response : Response} {shape : ResponseShape}
    (module : scope.owner = none) (reserved : scope.reserved = base.reserved)
    (yields : Yields (context.response start operationId pattern response) scope (declared, shape) after) :
    ResponseNamed base start (pattern, response) shape := by
  intro contentType schema others found inline
  obtain ⟨empty, -⟩ | ⟨_, _, _, typeText, filled, same, typed⟩ := response_yields yields
  · simp [empty] at found
  · cases found.symm.trans filled
    obtain ⟨rfl, comes⟩ := contentType_text inline (by simp [Operation.responseClass]) module reserved typed
    exact ⟨same, comes⟩

/-- The responses of an operation, one after the other. Those whose pattern is not valid are passed over. -/
inductive Answered (context : OperationContext) (start operationId : String) :
    NamingScope → List (String × Response) → List ClassDeclaration → List ResponseShape → NamingScope → Prop
  | nil (scope : NamingScope) : Answered context start operationId scope [] [] [] scope
  | valid {scope between after pattern response declared others shape shapes rest} :
      Client.isStatusPattern pattern = true →
      Yields (context.response start operationId pattern response) scope (declared, shape) between →
      Answered context start operationId between rest others shapes after →
      Answered context start operationId scope ((pattern, response) :: rest) (declared ++ others) (shape :: shapes)
        after
  | invalid {scope after pattern response declared shapes rest} : ¬Client.isStatusPattern pattern = true →
      Answered context start operationId scope rest declared shapes after →
      Answered context start operationId scope ((pattern, response) :: rest) declared shapes after

theorem responses_yields {start operationId : String} {responses : List (String × Response)}
    {shapes : List ResponseShape}
    (yields : Yields (context.responses start operationId responses) scope (declared, shapes) after) :
    context.Answered start operationId scope responses declared shapes after := by
  induction responses generalizing scope declared shapes with
  | nil =>
      obtain ⟨rfl, rfl, rfl⟩ := yields_pure_pair.mp yields
      exact .nil scope
  | cons entry rest ih =>
      rw [OperationContext.responses] at yields
      split at yields
      · rename_i valid
        obtain ⟨⟨first, shape⟩, between, answered, yields⟩ := yields_bind.mp yields
        obtain ⟨⟨others, otherShapes⟩, _, following, finished⟩ := yields_bind.mp yields
        obtain ⟨rfl, rfl, rfl⟩ := yields_pure_pair.mp finished
        exact .valid valid answered (ih following)
      · rename_i invalid
        obtain ⟨_, _, writing, following⟩ := yields_bind.mp yields
        obtain ⟨-, rfl⟩ := yields_liftTraced.mp writing
        exact .invalid invalid (ih following)

theorem responses_advances {start operationId : String} {responses : List (String × Response)}
    {shapes : List ResponseShape} (module : scope.owner = none) (reserved : scope.reserved = base.reserved)
    (yields : Yields (context.responses start operationId responses) scope (declared, shapes) after) :
    Advances base scope declared (Operation.responseContents start responses) after ∧
      List.Forall₂ (ResponseNamed base start) (Operation.accepted responses) shapes := by
  replace yields := responses_yields yields
  induction yields with
  | nil scope => exact ⟨.refl base scope, .nil⟩
  | @valid scope between _ _ _ declared _ _ _ _ valid answered _ ih =>
      have advances : Advances base scope declared _ between := response_advances answered
      obtain ⟨later, shaped⟩ := ih (advances.owner.trans module) (advances.reserved.trans reserved)
      simp only [Operation.responseContents, Operation.accepted, List.filter_cons, valid, ↓reduceIte,
        List.flatMap_cons]
      exact ⟨advances.trans later, .cons (response_named module reserved answered) shaped⟩
  | invalid invalid _ ih =>
      simpa only [Operation.responseContents, Operation.accepted, List.filter_cons, invalid, Bool.false_eq_true,
        ↓reduceIte] using ih module reserved

structure Annotated (base : NamingScope) (method : OperationMethod) : Prop where
  body : ∀ request contentType schema others, method.operation.requestBody = some request →
    request.content = (contentType, some schema) :: others → schema.IsInlineObject →
    ∃ shape, method.body = some shape ∧
      shape.typeText = base.ownName (Naming.toIdentifierCamel method.operationId ++ "Body") ∧
      (⟨Naming.toIdentifierCamel method.operationId ++ "Body", schema⟩ : ContentSchema).comesTo base
        (base.ownName (Naming.toIdentifierCamel method.operationId ++ "Body")) = true
  responses : List.Forall₂ (ResponseNamed base (Naming.toIdentifierCamel method.operationId))
    (Operation.accepted method.operation.responses) method.responses

theorem compile_advances {operation : Operation} {given : Option Value} {method : OperationMethod}
    (module : scope.owner = none) (reserved : scope.reserved = base.reserved)
    (yields : Yields (context.compile operation given) scope method after) :
    Advances base scope method.declarations method.contents after ∧ Annotated base method := by
  obtain ⟨forParameters, forBody, forResponses, afterHandler, afterParameters, afterBody, -, rfl, -, claimed,
    grouped, shaped, answered, declarations, -⟩ := compile_yields yields
  have handler : Advances base scope [] [] afterHandler :=
    (claimName_advances (show lastLetter "ResponseHandler" = some 'r' from by decide) (.inl rfl) claimed).1
  have parameters := handler.trans (parameters_advances grouped)
  have body := parameters.trans (body_advances shaped)
  obtain ⟨responses, named⟩ :=
    responses_advances (body.owner.trans module) (body.reserved.trans reserved) answered
  constructor
  · rw [declarations]
    simpa only [List.nil_append, OperationMethod.contents] using body.trans responses
  · refine ⟨fun request contentType schema others requested found inline => ?_, named⟩
    obtain ⟨none, -⟩ | ⟨_, _, _, _, shape, again, filled, same, typed⟩ := body_yields shaped
    · simp [Operation.bodyContents, requested, found, ContentSchema.firstOf] at none
    · obtain rfl := Option.some.inj (requested.symm.trans again)
      cases found.symm.trans filled
      exact ⟨shape, same, contentType_text inline (by simp) (parameters.owner.trans module)
        (parameters.reserved.trans reserved) typed⟩

theorem compiled_advances {pairs : List (Operation × Value)} {methods : List OperationMethod}
    (module : scope.owner = none) (reserved : scope.reserved = base.reserved)
    (compiled : context.Compiled scope pairs methods after) :
    Advances base scope (methods.flatMap OperationMethod.declarations)
      (methods.flatMap OperationMethod.contents) after ∧ ∀ method ∈ methods, Annotated base method := by
  induction compiled with
  | nil start => exact ⟨.refl base start, by simp⟩
  | cons yields _ ih =>
      obtain ⟨first, annotated⟩ := compile_advances module reserved yields
      obtain ⟨rest, others⟩ := ih (first.owner.trans module) (first.reserved.trans reserved)
      exact ⟨first.trans rest, List.forall_mem_cons.mpr ⟨annotated, others⟩⟩

end OperationContext

namespace ServiceModule

def scope (service : ServiceModule) : NamingScope :=
  NamingScope.reserve
    (Naming.reservedClassNames ++ service.className :: service.imports.map NamedSchema.className) {}

def declarations (service : ServiceModule) : List ClassDeclaration :=
  service.operations.flatMap OperationMethod.declarations

def contents (service : ServiceModule) : List ContentSchema :=
  service.operations.flatMap OperationMethod.contents

def DeclaresOnce (service : ServiceModule) (text : String) (object : Schema) : Prop :=
  ∃ own, service.declarations.filter (·.name == text) = [own] ∧ own.FieldsOf object

/-- The name of the class of a schema is also that of the first content of the service that comes to it, and
the class is declared once, for that content. -/
def SharesClass (service : ServiceModule) (text : String) (schema : Schema) : Prop :=
  (∃ suggested, (⟨suggested, schema⟩ : ContentSchema) ∈ service.contents ∧
    (⟨suggested, schema⟩ : ContentSchema).comesTo service.scope text = true) ∧
  ∃ first object, service.contents.find? (·.comesTo service.scope text) = some first ∧
    first.schema.object? = some object ∧ service.DeclaresOnce text object

end ServiceModule

theorem mem_bodyContents {operation : Operation} {request : RequestBody} {contentType : Value}
    {schema : Schema} {others : Content} (start : String) (requested : operation.requestBody = some request)
    (found : request.content = (contentType, some schema) :: others) :
    (⟨start ++ "Body", schema⟩ : ContentSchema) ∈ operation.bodyContents start := by
  simp [Operation.bodyContents, requested, found, ContentSchema.firstOf]

theorem mem_responseContents {responses : List (String × Response)} {entry : String × Response}
    {contentType : Value} {schema : Schema} {others : Content} (start : String)
    (member : entry ∈ Operation.accepted responses)
    (found : entry.2.content = (contentType, some schema) :: others) :
    (⟨Operation.responseClass start entry.1, schema⟩ : ContentSchema) ∈
      Operation.responseContents start responses :=
  List.mem_flatMap.mpr ⟨entry, member, by simp [found, ContentSchema.firstOf]⟩

theorem service_compiled {context : OperationContext} {group : ServiceGroup} {service : ServiceModule}
    (served : (context.service group).result = .ok service) :
    ∃ pairs after, context.Compiled service.scope pairs service.operations after := by
  obtain ⟨names, after, className, -, compiled⟩ := OperationContext.service_ok served
  have same : OperationContext.serviceScope group service.imports = service.scope := by
    rw [ServiceModule.scope, className]
    rfl
  rw [same] at compiled
  exact ⟨_, after, compiled⟩

theorem service_advances {context : OperationContext} {group : ServiceGroup} {service : ServiceModule}
    (served : (context.service group).result = .ok service) :
    ∃ after, Advances service.scope service.scope service.declarations service.contents after ∧
      ∀ method ∈ service.operations, OperationContext.Annotated service.scope method := by
  obtain ⟨pairs, after, compiled⟩ := service_compiled served
  exact ⟨after, OperationContext.compiled_advances rfl rfl compiled⟩

theorem Shares.start (service : ServiceModule) (text : String) :
    Shares service.scope text service.scope [] [] :=
  ⟨rfl, by simp [ServiceModule.scope, NamingScope.reserve], by simp, by simp⟩

theorem service_shares {context : OperationContext} {group : ServiceGroup} {service : ServiceModule}
    (served : (context.service group).result = .ok service) :
    (∀ text content, Unclaimed text → content ∈ service.contents →
      content.comesTo service.scope text = true → service.SharesClass text content.schema) ∧
      ∀ method ∈ service.operations, OperationContext.Annotated service.scope method := by
  obtain ⟨after, advances, annotated⟩ := service_advances served
  refine ⟨fun text content unclaimed member comes => ⟨⟨content.suggested, member, comes⟩, ?_⟩, annotated⟩
  have state := advances.shares (.inl unclaimed) (Shares.start service text)
  simp only [List.nil_append] at state
  obtain ⟨first, found⟩ : ∃ first, service.contents.find? (·.comesTo service.scope text) = some first :=
    Option.isSome_iff_exists.mp (List.find?_isSome.mpr ⟨content, member, comes⟩)
  obtain ⟨own, object, declared, objectFound, fields⟩ := state.first first found
  exact ⟨first, object, found, objectFound, own, declared, fields⟩

/-- An inline object of a body or a response has a class that its service declares once, for the first content
that comes to the name of the class. -/
theorem content_class_shared {document : ApiDocument} {package : String} {plan : PackagePlan}
    (planned : (PackagePlan.ofDocument document package).result = .ok plan) {service : ServiceModule}
    (member : service ∈ plan.services) {method : OperationMethod} (among : method ∈ service.operations) :
    (∀ request contentType schema others, method.operation.requestBody = some request →
      request.content = (contentType, some schema) :: others → schema.IsInlineObject →
      ∃ shape, method.body = some shape ∧ service.SharesClass shape.typeText schema) ∧
    List.Forall₂ (fun entry shape => ∀ contentType schema others,
      entry.2.content = (contentType, some schema) :: others → schema.IsInlineObject →
      ∃ text, shape.typeText = some text ∧ service.SharesClass text schema)
      (Operation.accepted method.operation.responses) method.responses := by
  obtain ⟨registry, groups, services, -, -, -, served, separate⟩ := PackagePlan.ofDocument_ok planned
  rw [separate] at member
  obtain ⟨original, present, module, rfl⟩ := mem_separateModules member
  obtain ⟨group, -, done⟩ := forall₂_of_mem_right served present
  obtain ⟨shares, annotated⟩ := service_shares done
  have named := annotated method among
  constructor
  · intro request contentType schema others requested found inline
    obtain ⟨shape, body, text, comes⟩ := named.body request contentType schema others requested found inline
    refine ⟨shape, body, ?_⟩
    rw [text]
    refine shares _ _ (.body _ _) (List.mem_flatMap.mpr ⟨method, among, ?_⟩) comes
    exact List.mem_append_left _ (mem_bodyContents _ requested found)
  · refine forall₂_imp_of_mem named.responses fun entry accepted shape typed => ?_
    intro contentType schema others found inline
    obtain ⟨text, comes⟩ := typed contentType schema others found inline
    have valid : Client.isStatusPattern entry.1 = true := (List.mem_filter.mp accepted).2
    refine ⟨_, text, shares _ _ (.response valid _ _) (List.mem_flatMap.mpr ⟨method, among, ?_⟩) comes⟩
    exact List.mem_append_right _ (mem_responseContents _ accepted found)

def note (property : String) : Schema where
  keywords := { type := .string "object" }
  properties := some [(.string property, { keywords := { type := .string "string" } })]

/-- Two operations whose names differ in case alone send notes with different properties. -/
def noteDocument : ApiDocument where
  title := .string "Notes"
  version := "1"
  schemas := []
  distinctSchemas := Entries.distinct_nil Value.same
  operations := [
    { method := "POST", path := .string "/notes", operationId := .string "sendNote"
      requestBody := some { content := [(.string "application/json", some (note "text"))] } },
    { method := "PUT", path := .string "/notes/\x7bid\x7d", operationId := .string "send_note"
      requestBody := some { content := [(.string "application/json", some (note "title"))] } }]

set_option maxRecDepth 4000 in
theorem noteDocument_plan :
    ∃ plan service first second shape, (PackagePlan.ofDocument noteDocument "notes").result = .ok plan ∧
      plan.services = [service] ∧ service.operations = [first, second] ∧
      second.operation.requestBody = some { content := [(.string "application/json", some (note "title"))] } ∧
      second.body = some shape ∧
      (service.declarations.filter (·.name == shape.typeText)).map (·.fields.map FieldDeclaration.jsonName) =
        [["text"]] :=
  ⟨_, _, _, _, _, rfl, rfl, rfl, rfl, rfl, by decide +kernel⟩

theorem noteDocument_shared :
    ∃ plan service first second shape, (PackagePlan.ofDocument noteDocument "notes").result = .ok plan ∧
      plan.services = [service] ∧ service.operations = [first, second] ∧ second.body = some shape ∧
      service.SharesClass shape.typeText (note "title") := by
  obtain ⟨plan, service, first, second, _, planned, only, both, requested, -⟩ := noteDocument_plan
  have member : service ∈ plan.services := only ▸ List.mem_singleton_self service
  have among : second ∈ service.operations := both ▸ List.mem_cons_of_mem _ (List.mem_singleton_self second)
  obtain ⟨shape, body, shared⟩ :=
    (content_class_shared planned member among).1 _ _ _ [] requested rfl ⟨rfl, rfl⟩
  exact ⟨plan, service, first, second, shape, planned, only, both, body, shared⟩

theorem noteDocument_otherFields :
    ∃ plan service first second shape, (PackagePlan.ofDocument noteDocument "notes").result = .ok plan ∧
      plan.services = [service] ∧ service.operations = [first, second] ∧
      second.operation.requestBody = some { content := [(.string "application/json", some (note "title"))] } ∧
      (note "title").IsInlineObject ∧ second.body = some shape ∧
      ¬service.DeclaresOnce shape.typeText (note "title") := by
  obtain ⟨plan, service, first, second, shape, planned, only, both, requested, body, fields⟩ :=
    noteDocument_plan
  refine ⟨plan, service, first, second, shape, planned, only, both, requested, ⟨rfl, rfl⟩, body, ?_⟩
  rintro ⟨own, one, same⟩
  rw [one] at fields
  have names : own.fields.map FieldDeclaration.jsonName = ["text"] := List.singleton_injective fields
  rw [ClassDeclaration.FieldsOf, ← Function.comp_def Value.string, ← List.map_map, names] at same
  exact absurd same (by simp [note])

end OpenApiClient
