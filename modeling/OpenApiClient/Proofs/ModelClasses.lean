import OpenApiClient.Proofs.ContentClasses

/-! The model classes that generated modules use. Every one of them is the class of a schema that is referred
to where it is used, and so it is imported. -/

namespace OpenApiClient

open InScope

inductive ClassDeclaration.Uses : ClassDeclaration → String × String → Prop
  | field {own : ClassDeclaration} {field : FieldDeclaration} {located : String × String} :
      field ∈ own.fields → located ∈ field.type.imported → own.Uses located
  | inner {own inner : ClassDeclaration} {located : String × String} :
      inner ∈ own.inner → inner.Uses located → own.Uses located

def UsesOnly (allowed : String × String → Prop) (declared : List ClassDeclaration) : Prop :=
  ∀ own ∈ declared, ∀ located, own.Uses located → allowed located

theorem UsesOnly.append {allowed : String × String → Prop} {declared others : List ClassDeclaration}
    (first : UsesOnly allowed declared) (rest : UsesOnly allowed others) : UsesOnly allowed (declared ++ others) :=
  List.forall_mem_append.mpr ⟨first, rest⟩

theorem UsesOnly.imp {allowed wider : String × String → Prop} {declared : List ClassDeclaration}
    (implies : ∀ located, allowed located → wider located) (only : UsesOnly allowed declared) :
    UsesOnly wider declared :=
  fun own member located used => implies located (only own member located used)

namespace Schema

def MentionsWithin (names : List String) (schema : Schema) : Prop :=
  ∃ mentioned, schema.mentions = .ok mentioned ∧ mentioned ⊆ names

variable {names : List String} {schema : Schema}

theorem mentionsInAll_within {schemas : List Schema} :
    (∃ mentioned, mentionsInAll schemas = .ok mentioned ∧ mentioned ⊆ names) ↔
      ∀ schema ∈ schemas, schema.MentionsWithin names := by
  induction schemas with
  | nil => simp [mentionsInAll, pure, Except.pure]
  | cons schema rest ih =>
      rw [List.forall_mem_cons, ← ih]
      constructor
      · rintro ⟨mentioned, walked, within⟩
        obtain ⟨first, walkedFirst, walked⟩ := except_bind_ok.mp walked
        obtain ⟨others, walkedOthers, same⟩ := except_bind_ok.mp walked
        obtain rfl := except_pure_ok.mp same
        obtain ⟨firstWithin, othersWithin⟩ := List.append_subset.mp within
        exact ⟨⟨first, walkedFirst, firstWithin⟩, others, walkedOthers, othersWithin⟩
      · rintro ⟨⟨first, walkedFirst, firstWithin⟩, others, walkedOthers, othersWithin⟩
        refine ⟨first ++ others, ?_, List.append_subset.mpr ⟨firstWithin, othersWithin⟩⟩
        rw [mentionsInAll, except_bind_ok]
        exact ⟨first, walkedFirst, except_bind_ok.mpr ⟨others, walkedOthers, rfl⟩⟩

theorem mentionsWithin_parts (plain : schema.keywords.isReference = false) :
    schema.MentionsWithin names ↔ ∀ part ∈ schema.walkedParts, part.MentionsWithin names := by
  rw [MentionsWithin, mentions_of_plain plain, ← mentionsInAll_eq, mentionsInAll_within]

theorem references_within (found : schema.references = .ok names) : schema.MentionsWithin names := by
  obtain ⟨mentioned, walked, rfl⟩ := except_map_ok.mp found
  exact ⟨mentioned, walked, fun name member => mem_sortedNames.mpr member⟩

theorem referencesOfAll_within {schemas : List (Option Schema)} (found : referencesOfAll schemas = .ok names) :
    ∀ schema, some schema ∈ schemas → schema.MentionsWithin names := by
  obtain ⟨mentioned, walked, rfl⟩ := except_map_ok.mp found
  intro schema member
  refine mentionsInAll_within.mp ⟨mentioned, walked, fun name among => mem_sortedNames.mpr among⟩ schema ?_
  exact List.mem_filterMap.mpr ⟨some schema, member, rfl⟩

theorem MentionsWithin.properties {properties : List (Value × Schema)} (within : schema.MentionsWithin names)
    (plain : schema.keywords.isReference = false) (kind : schema.typeName = .object)
    (found : schema.properties = some properties) : ∀ entry ∈ properties, entry.2.MentionsWithin names := by
  intro entry member
  refine (mentionsWithin_parts plain).mp within entry.2 ?_
  rw [walkedParts_object plain kind, found]
  exact List.mem_append_left _ (List.mem_map_of_mem member)

theorem mentions_describe (description : Value) :
    ({ schema with keywords := { schema.keywords with description := description } } : Schema).mentions =
      schema.mentions := by
  obtain ⟨keywords, items, properties, additional, anyOf, oneOf, allOf⟩ := schema
  rw [mentions.eq_def, mentions.eq_def]
  rfl

end Schema

namespace Registry

variable {registry : Registry} {names : List String}

def Locates (registry : Registry) (names : List String) (located : String × String) : Prop :=
  ∃ name ∈ names, ∃ named, registry.get name = .ok named ∧ located = (named.moduleName, named.className)

/-- Every model class of a type and of the classes declared with it is that of a schema that the walk over the
schema meets. -/
def Accounts (registry : Registry) (schema : Schema) (declared : List ClassDeclaration)
    (type : TypeExpression) : Prop :=
  ∀ located, located ∈ type.imported ∨ (∃ own ∈ declared, own.Uses located) →
    ∃ names, schema.references = .ok names ∧ registry.Locates names located

structure LocatesAll (registry : Registry) (names : List String) (inner : List ClassDeclaration)
    (fields : List FieldDeclaration) : Prop where
  types : ∀ field ∈ fields, ∀ located ∈ field.type.imported, registry.Locates names located
  classes : UsesOnly (registry.Locates names) inner

theorem LocatesAll.uses {own : ClassDeclaration} (all : registry.LocatesAll names own.inner own.fields)
    {located : String × String} (used : own.Uses located) : registry.Locates names located := by
  cases used with
  | field member occurs => exact all.types _ member located occurs
  | inner member used => exact all.classes _ member located used

theorem LocatesAll.cons {declared inner : List ClassDeclaration} {field : FieldDeclaration}
    {fields : List FieldDeclaration}
    (typed : ∀ located ∈ field.type.imported, registry.Locates names located)
    (first : UsesOnly (registry.Locates names) declared) (rest : registry.LocatesAll names inner fields) :
    registry.LocatesAll names (declared ++ inner) (field :: fields) :=
  ⟨List.forall_mem_cons.mpr ⟨typed, rest.types⟩, first.append rest.classes⟩

theorem emit_type_located {suggested : Option String} {schema : Schema} {scope after : NamingScope}
    {declared : List ClassDeclaration} {type : TypeExpression}
    (yields : Yields (registry.emit suggested schema) scope (declared, type) after)
    (within : schema.MentionsWithin names) : ∀ located ∈ type.imported, registry.Locates names located := by
  obtain ⟨mentioned, walked, within⟩ := within
  intro located occurs
  obtain ⟨name, named, rfl, found, same⟩ := emit_imported_provided yields walked located occurs
  exact ⟨name, within (List.mem_singleton_self name), named, found, same⟩

theorem emit_classes_located {suggested : Option String} {schema : Schema} {scope after : NamingScope}
    {declared : List ClassDeclaration} {type : TypeExpression}
    (yields : Yields (registry.emit suggested schema) scope (declared, type) after)
    (within : schema.MentionsWithin names) : UsesOnly (registry.Locates names) declared := by
  revert within
  refine registry.emit_induction
    (fun _ schema _ declared _ _ => schema.MentionsWithin names → UsesOnly (registry.Locates names) declared)
    (fun _ _ _ properties _ inner fields _ => (∀ entry ∈ properties, entry.2.MentionsWithin names) →
      registry.LocatesAll names inner fields)
    ?leaf ?present ?absent ?map ?array ?union ?done ?property
    suggested schema scope declared type after yields
  case leaf | present => simp [UsesOnly]
  case absent =>
    intro _ schema properties _ _ _ _ _ _ shape _ _ _ body within
    obtain ⟨plain, kind, found⟩ := Schema.emissionShape_struct shape
    have located := body (within.properties plain kind found)
    exact List.forall_mem_singleton.mpr fun _ used => LocatesAll.uses located used
  case map =>
    intro _ schema value _ _ _ _ shape ih within
    rw [Schema.MentionsWithin, Schema.Wraps.mentions (.map shape)] at within
    exact ih within
  case array =>
    intro _ schema items _ _ _ _ shape ih within
    rw [Schema.MentionsWithin, Schema.Wraps.mentions (.array shape)] at within
    exact ih within
  case union =>
    intro _ schema member _ _ _ _ shape ih within
    rw [Schema.MentionsWithin, Schema.Wraps.mentions (.union shape)] at within
    exact ih within
  case done => exact fun _ _ _ _ _ _ _ => ⟨by simp, by simp [UsesOnly]⟩
  case property =>
    intro _ _ _ _ _ schema rest _ _ _ _ _ _ _ emitted first ih within
    obtain ⟨own, others⟩ := List.forall_mem_cons.mp within
    exact .cons (emit_type_located emitted own) (first own) (ih others)

theorem emitFields_located {owner : String} {required : List Value} {fieldNames : List String}
    {properties : List (Value × Schema)} {scope after : NamingScope} {inner : List ClassDeclaration}
    {fields : List FieldDeclaration}
    (yields : Yields (registry.emitFields owner required fieldNames properties) scope (inner, fields) after)
    (within : ∀ entry ∈ properties, entry.2.MentionsWithin names) :
    registry.LocatesAll names inner fields := by
  induction properties generalizing fieldNames scope inner fields with
  | nil =>
      obtain ⟨rfl, rfl, -⟩ := emitFields_nil_yields (.inr rfl) yields
      exact ⟨by simp, by simp [UsesOnly]⟩
  | cons entry rest ih =>
      cases fieldNames with
      | nil =>
          obtain ⟨rfl, rfl, -⟩ := emitFields_nil_yields (.inl rfl) yields
          exact ⟨by simp, by simp [UsesOnly]⟩
      | cons name fieldNames =>
          obtain ⟨key, schema⟩ := entry
          obtain ⟨jsonName, declared, type, between, others, otherFields, -, emitted, following, rfl, rfl⟩ :=
            emitFields_cons_yields yields
          obtain ⟨own, later⟩ := List.forall_mem_cons.mp within
          exact .cons (emit_type_located emitted own) (emit_classes_located emitted own) (ih following later)

theorem modelImports_struct {named : NamedSchema} {imported : List NamedSchema} {cycle : List String}
    (struct : named.schema.isStruct = true)
    (found : registry.modelImports named = .ok (imported, cycle)) : cycle = [] := by
  obtain ⟨_, -, found⟩ := except_bind_ok.mp found
  simp only [struct, ↓reduceIte] at found
  obtain ⟨own, none, found⟩ := except_bind_ok.mp found
  obtain rfl := except_pure_ok.mp none
  obtain ⟨_, -, same⟩ := except_bind_ok.mp found
  exact (Prod.mk.inj (except_pure_ok.mp same)).2.symm

theorem buildClass_located {schema : Schema} {name : String} {scope : NamingScope}
    {description : Option String} {own : ClassDeclaration}
    (built : (registry.buildClass schema name (scope.child name) description).result = .ok own)
    (within : ∀ entry ∈ schema.properties.getD [], entry.2.MentionsWithin names) {located : String × String}
    (used : own.Uses located) : registry.Locates names located := by
  obtain ⟨last, yields⟩ := inside_ok.mp built
  obtain ⟨fieldNames, inner, fields, -, body, rfl⟩ := declareWith_yields yields
  exact LocatesAll.uses (emitFields_located body within) used

end Registry

def ImportedBy (imports : List NamedSchema) (located : String × String) : Prop :=
  ∃ named ∈ imports, located = (named.moduleName, named.className)

theorem ImportedBy.of_locates {registry : Registry} {names : List String} {imports : List NamedSchema}
    (found : registry.imports names none = .ok imports) {located : String × String}
    (locates : registry.Locates names located) : ImportedBy imports located := by
  obtain ⟨name, member, named, entry, same⟩ := locates
  obtain rfl := (Registry.get_ok entry).2
  exact ⟨named, (Registry.imports_ok found named).mpr ⟨member, by simp, entry⟩, same⟩

/-- The module of a struct imports the model classes that its own class uses, itself apart. -/
def StructCovered (named : NamedSchema) (model : ModelModule) : Prop :=
  named.schema.isStruct = true →
    UsesOnly (fun located => located = (model.moduleName, model.className) ∨ ImportedBy model.imports located)
      model.classes

theorem Registry.struct_covered {registry : Registry} {named : NamedSchema} {model : ModelModule}
    (made : (registry.model named).result = .ok model)
    (entered : registry.get named.name = .ok named) : StructCovered named model := by
  intro struct own member located used
  obtain ⟨type, cycle, emitted, gathered, -, -, moduleName, className⟩ := model_ok made
  obtain ⟨names, walked, -, imported⟩ := modelImports_ok gathered
  obtain rfl := modelImports_struct struct gathered
  unfold emitNamed at emitted
  simp only [struct, ↓reduceIte] at emitted
  obtain ⟨declared, built, same⟩ := Traced.bind_ok.mp emitted
  obtain ⟨classes, -⟩ := Prod.mk.inj (Traced.pure_ok.mp same)
  rw [← classes, List.mem_singleton] at member
  subst member
  have within := Schema.references_within walked
  obtain ⟨properties, found, shape⟩ := Schema.emissionShape_of_isStruct struct
  obtain ⟨plain, kind, -⟩ := Schema.emissionShape_struct shape
  obtain ⟨name, among, other, located, rfl⟩ := buildClass_located built (by
    rw [found, Option.getD_some]
    exact within.properties plain kind found) used
  obtain rfl := (get_ok located).2
  -- A struct may refer to itself, which is the one name that its imports leave out.
  by_cases self : named.name = other.name
  · rw [← self, entered] at located
    obtain rfl := Except.ok.inj located
    exact .inl (by rw [moduleName, className])
  · exact .inr ⟨other, (imported other).mpr ⟨among, List.not_mem_nil, self, located⟩, rfl⟩

theorem keepFirst_subset {operation : Operation} {parameters before kept : List Parameter}
    (found : (keepFirst operation before parameters).result = .ok kept) : kept ⊆ before ++ parameters := by
  induction parameters generalizing before with
  | nil =>
      obtain rfl := Traced.pure_ok.mp found
      exact List.subset_append_left before []
  | cons parameter rest ih =>
      unfold keepFirst at found
      split at found
      · obtain ⟨_, -, found⟩ := Traced.bind_ok.mp found
        intro own member
        rcases List.mem_append.mp (ih found member) with early | late
        · exact List.mem_append_left _ early
        · exact List.mem_append_right _ (List.mem_cons_of_mem _ late)
      · have within := ih found
        rwa [List.append_assoc] at within

theorem Parameter.ownSchema_within {names : List String} {parameter : Parameter}
    (within : ∀ schema, parameter.schema = some schema → schema.MentionsWithin names) :
    parameter.ownSchema.MentionsWithin names := by
  -- The walk never reads a description, so that of the parameter changes nothing.
  have undescribed : (parameter.schema.getD { keywords := { type := .string "string" } }).MentionsWithin
      names := by
    cases given : parameter.schema with
    | none => exact ⟨[], rfl, List.nil_subset names⟩
    | some schema => exact within schema given
  unfold ownSchema
  split
  · rwa [Schema.MentionsWithin, Schema.mentions_describe]
  · exact undescribed

def Annotates (registry : Registry) (imports : List NamedSchema) (suggested : String) (content : Option Schema)
    (text : String) : Prop :=
  match content with
  | none => text = "Any"
  | some schema =>
      ∃ scope declared type after, Yields (registry.emit (some suggested) schema) scope (declared, type) after ∧
        text = type.render [] ∧ ∀ located ∈ type.imported, ImportedBy imports located

def ResponseCovered (registry : Registry) (imports : List NamedSchema) (start : String)
    (entry : String × Response) (shape : ResponseShape) : Prop :=
  ∀ text, shape.typeText = some text →
    ∃ contentType schema others, entry.2.content = (contentType, schema) :: others ∧
      Annotates registry imports (Operation.responseClass start entry.1) schema text

/-- The model classes that a method uses are imported: in the fields of its classes, in the text of its body and
in those of its responses. -/
structure OperationMethod.Covered (registry : Registry) (imports : List NamedSchema)
    (method : OperationMethod) : Prop where
  classes : UsesOnly (ImportedBy imports) method.declarations
  body : ∀ shape, method.body = some shape →
    ∃ request contentType schema others, method.operation.requestBody = some request ∧
      request.content = (contentType, schema) :: others ∧
      Annotates registry imports (Naming.toIdentifierCamel method.operationId ++ "Body") schema shape.typeText
  responses : List.Forall₂
    (ResponseCovered registry imports (Naming.toIdentifierCamel method.operationId))
    (Operation.accepted method.operation.responses) method.responses

namespace OperationContext

variable {context : OperationContext} {names : List String} {imports : List NamedSchema}
  {scope after : NamingScope} {declared : List ClassDeclaration}

theorem parameters_covered {operation : Operation} {start methodName : String}
    {result : Option String × Bool × List ParameterBinding}
    (found : context.registry.imports names none = .ok imports)
    (within : ∀ parameter ∈ operation.parameters, ∀ schema, parameter.schema = some schema →
      schema.MentionsWithin names)
    (yields : Yields (context.parameters operation start methodName) scope (declared, result) after) :
    UsesOnly (ImportedBy imports) declared := by
  obtain ⟨rfl, -⟩ | ⟨kept, name, own, keeping, -, built, rfl, -⟩ := parameters_yields yields
  · simp [UsesOnly]
  · refine List.forall_mem_singleton.mpr fun located used => .of_locates found ?_
    refine Registry.buildClass_located built (fun entry member => ?_) used
    obtain ⟨parameter, among, rfl⟩ := List.mem_map.mp member
    exact Parameter.ownSchema_within (within parameter (keepFirst_subset keeping among))

theorem contentType_covered {schema : Option Schema} {name typeText : String}
    (found : context.registry.imports names none = .ok imports)
    (within : ∀ own, schema = some own → own.MentionsWithin names)
    (yields : Yields (context.contentType schema name) scope (declared, typeText) after) :
    UsesOnly (ImportedBy imports) declared ∧
      Annotates context.registry imports name schema typeText := by
  obtain ⟨rfl, rfl, -, rfl⟩ | ⟨own, type, rfl, emitted, rfl⟩ := contentType_yields yields
  · exact ⟨by simp [UsesOnly], rfl⟩
  · have mentioned := within own rfl
    have classes : UsesOnly (ImportedBy imports) declared :=
      (Registry.emit_classes_located emitted mentioned).imp fun _ => .of_locates found
    refine ⟨classes, scope, declared, type, after, emitted, rfl, fun located occurs => .of_locates found ?_⟩
    exact Registry.emit_type_located emitted mentioned located occurs

theorem body_covered {operation : Operation} {start operationId : String} {body : Option BodyShape}
    (found : context.registry.imports names none = .ok imports)
    (within : ∀ request, operation.requestBody = some request → ∀ entry ∈ request.content, ∀ schema,
      entry.2 = some schema → schema.MentionsWithin names)
    (yields : Yields (context.body operation start operationId) scope (declared, body) after) :
    UsesOnly (ImportedBy imports) declared ∧
      ∀ shape, body = some shape →
        ∃ request contentType schema others, operation.requestBody = some request ∧
          request.content = (contentType, schema) :: others ∧
          Annotates context.registry imports (start ++ "Body") schema shape.typeText := by
  obtain ⟨-, rfl, -, rfl⟩ | ⟨request, contentType, schema, others, shape, requested, filled, rfl, typed⟩ :=
    body_yields yields
  · simp [UsesOnly]
  · have first : (contentType, schema) ∈ request.content := filled ▸ List.mem_cons_self
    obtain ⟨classes, annotated⟩ := contentType_covered found (within request requested _ first) typed
    refine ⟨classes, fun other same => ?_⟩
    obtain rfl := Option.some.inj same
    exact ⟨request, contentType, schema, others, requested, filled, annotated⟩

theorem response_covered {start operationId pattern : String} {response : Response} {shape : ResponseShape}
    (found : context.registry.imports names none = .ok imports)
    (within : ∀ entry ∈ response.content, ∀ schema, entry.2 = some schema → schema.MentionsWithin names)
    (yields : Yields (context.response start operationId pattern response) scope (declared, shape) after) :
    UsesOnly (ImportedBy imports) declared ∧
      ResponseCovered context.registry imports start (pattern, response) shape := by
  obtain ⟨-, rfl, -, none⟩ | ⟨contentType, schema, others, typeText, filled, same, typed⟩ :=
    response_yields yields
  · exact ⟨by simp [UsesOnly], by simp [ResponseCovered, none]⟩
  · have first : (contentType, schema) ∈ response.content := filled ▸ List.mem_cons_self
    obtain ⟨classes, annotated⟩ := contentType_covered found (within _ first) typed
    refine ⟨classes, fun text again => ?_⟩
    obtain rfl := Option.some.inj (same.symm.trans again)
    exact ⟨contentType, schema, others, filled, annotated⟩

theorem responses_covered {start operationId : String} {responses : List (String × Response)}
    {shapes : List ResponseShape} (found : context.registry.imports names none = .ok imports)
    (within : ∀ response ∈ responses, ∀ entry ∈ response.2.content, ∀ schema, entry.2 = some schema →
      schema.MentionsWithin names)
    (yields : Yields (context.responses start operationId responses) scope (declared, shapes) after) :
    UsesOnly (ImportedBy imports) declared ∧
      List.Forall₂ (ResponseCovered context.registry imports start) (Operation.accepted responses) shapes := by
  replace yields := responses_yields yields
  induction yields with
  | nil => exact ⟨by simp [UsesOnly], .nil⟩
  | valid valid answered _ ih =>
      obtain ⟨own, later⟩ := List.forall_mem_cons.mp within
      obtain ⟨classes, covered⟩ := response_covered found own answered
      obtain ⟨otherClasses, othersCovered⟩ := ih later
      refine ⟨classes.append otherClasses, ?_⟩
      simp only [Operation.accepted, List.filter_cons, valid, ↓reduceIte]
      exact .cons covered othersCovered
  | invalid invalid _ ih =>
      obtain ⟨-, later⟩ := List.forall_mem_cons.mp within
      simpa only [Operation.accepted, List.filter_cons, invalid, Bool.false_eq_true, ↓reduceIte] using ih later

theorem compile_covered {operation : Operation} {given : Option Value} {method : OperationMethod}
    (found : context.registry.imports names none = .ok imports)
    (within : ∀ schema, some schema ∈ operation.schemas → schema.MentionsWithin names)
    (yields : Yields (context.compile operation given) scope method after) :
    method.Covered context.registry imports := by
  obtain ⟨forParameters, forBody, forResponses, _, _, _, -, rfl, -, -, grouped, shaped, answered,
    declarations, -⟩ := compile_yields yields
  have ofParameters := parameters_covered found (fun parameter member schema given => by
    refine within schema (List.mem_append_left _ (List.mem_append_left _ ?_))
    exact List.mem_map.mpr ⟨parameter, member, given⟩) grouped
  obtain ⟨ofBody, body⟩ := body_covered found (fun request requested entry member schema given => by
    refine within schema (List.mem_append_left _ (List.mem_append_right _ ?_))
    simp only [requested]
    exact List.mem_map.mpr ⟨entry, member, given⟩) shaped
  obtain ⟨ofResponses, responses⟩ := responses_covered found
    (fun response among entry member schema given => by
      refine within schema (List.mem_append_right _ (List.mem_flatMap.mpr ⟨response, among, ?_⟩))
      exact List.mem_map.mpr ⟨entry, member, given⟩) answered
  refine ⟨?_, body, responses⟩
  rw [declarations]
  exact (ofParameters.append ofBody).append ofResponses

theorem Compiled.covered {pairs : List (Operation × Value)} {methods : List OperationMethod}
    (found : context.registry.imports names none = .ok imports)
    (within : ∀ pair ∈ pairs, ∀ schema, some schema ∈ pair.1.schemas → schema.MentionsWithin names)
    (compiled : context.Compiled scope pairs methods after) :
    ∀ method ∈ methods, method.Covered context.registry imports := by
  induction compiled with
  | nil => simp
  | cons yields _ ih =>
      obtain ⟨own, later⟩ := List.forall_mem_cons.mp within
      exact List.forall_mem_cons.mpr ⟨compile_covered found own yields, ih later⟩

theorem service_covered {group : ServiceGroup} {service : ServiceModule}
    (served : (context.service group).result = .ok service) :
    ∀ method ∈ service.operations, method.Covered context.registry service.imports := by
  obtain ⟨names, given, after, walked, found, -, compiled, -⟩ := service_parts served
  refine compiled.covered found fun pair member schema among => ?_
  refine Schema.referencesOfAll_within walked schema (List.mem_flatMap.mpr ⟨pair.1, ?_, among⟩)
  exact (List.of_mem_zip member).1

end OperationContext

/-- The model classes in the type of a schema and in the classes declared for it are those of schemas it refers
to. So the modules of structs and services import every model class that they use. -/
theorem model_classes_imported :
    (∀ (registry : Registry) (suggested : Option String) (schema : Schema) (scope after : NamingScope)
      (declared : List ClassDeclaration) (type : TypeExpression) (names : List String),
      Yields (registry.emit suggested schema) scope (declared, type) after → schema.references = .ok names →
      registry.Accounts schema declared type) ∧
    ∀ (document : ApiDocument) (package : String) (plan : PackagePlan),
      (PackagePlan.ofDocument document package).result = .ok plan →
      ∃ registry, (Registry.ofSchemas (some package) document.schemas).result = .ok registry ∧
        List.Forall₂ StructCovered registry.entries plan.models ∧
        ∀ service ∈ plan.services, ∀ method ∈ service.operations, method.Covered registry service.imports := by
  constructor
  · intro registry suggested schema scope after declared type names yields walked located used
    refine ⟨names, walked, ?_⟩
    have within := Schema.references_within walked
    rcases used with occurs | ⟨own, member, used⟩
    · exact Registry.emit_type_located yields within located occurs
    · exact Registry.emit_classes_located yields within own member located used
  · intro document package plan planned
    obtain ⟨registry, groups, services, made, modelled, -, served, separate⟩ := PackagePlan.ofDocument_ok planned
    have distinct := Registry.names_nodup document.distinctSchemas (Registry.ofSchemas_ok made)
    refine ⟨registry, made, ?_, fun service member => ?_⟩
    · exact forall₂_imp_of_mem modelled fun named member model done =>
        Registry.struct_covered done (Registry.get_of_mem distinct member)
    · rw [separate] at member
      obtain ⟨original, present, module, rfl⟩ := mem_separateModules member
      obtain ⟨group, -, done⟩ := forall₂_of_mem_right served present
      exact OperationContext.service_covered done

def referenceTo (name : String) : Schema where
  keywords := { reference := .string (schemaReferenceStart ++ name) }

def pet : Schema where
  keywords := { type := .string "object" }
  properties := some [(.string "friend", referenceTo "Pet"), (.string "owner", referenceTo "Owner")]

/-- Pets refer to each other and to owners, and a service sends a pet with its owner and gets pets. -/
def petDocument : ApiDocument where
  title := .string "Pets"
  version := "1"
  schemas := [(.string "Pet", pet), (.string "Owner", { keywords := { type := .string "string" } })]
  operations := [
    { method := "POST", path := .string "/pets", operationId := .string "sendPet"
      parameters := [{ name := .string "owner", location := .string "query", schema := some (referenceTo "Owner") }]
      requestBody := some { content := [(.string "application/json", some pet)] }
      responses := [("200", { content := [(.string "application/json", some {
        keywords := { type := .string "array" }, items := some (referenceTo "Pet") })] })] }]
  distinctSchemas := by decide +kernel

set_option maxRecDepth 4000 in
theorem petDocument_imported :
    ∃ registry, (Registry.ofSchemas (some "pets") petDocument.schemas).result = .ok registry ∧
      (∃ declared type after, Yields (registry.emit (some "Sent") pet) {} (declared, type) after ∧
        registry.Accounts pet declared type) ∧
      ∃ plan, (PackagePlan.ofDocument petDocument "pets").result = .ok plan ∧
        plan.models.map (fun model => (model.className, model.imports.map NamedSchema.className)) =
          [("Pet", ["Owner"]), ("Owner", [])] ∧
        List.Forall₂ StructCovered registry.entries plan.models ∧
        ∀ service ∈ plan.services, ∀ method ∈ service.operations,
          method.Covered registry service.imports := by
  obtain ⟨plan, planned, modules⟩ : ∃ plan, (PackagePlan.ofDocument petDocument "pets").result = .ok plan ∧
      plan.models.map (fun model => (model.className, model.imports.map NamedSchema.className)) =
        [("Pet", ["Owner"]), ("Owner", [])] := ⟨_, rfl, by decide +kernel⟩
  obtain ⟨registry, made, structs, services⟩ := model_classes_imported.2 petDocument "pets" plan planned
  obtain ⟨declared, type, after, emitted⟩ : ∃ declared type after,
      Yields (registry.emit (some "Sent") pet) {} (declared, type) after := by
    cases made
    exact ⟨_, _, _, rfl, rfl⟩
  have walked : pet.references = .ok ["Owner", "Pet"] := rfl
  exact ⟨registry, made, ⟨declared, type, after, emitted,
    model_classes_imported.1 _ _ _ _ _ _ _ _ emitted walked⟩, plan, planned, modules, structs, services⟩

/-- An entry of a pet, with a note that is a text or what another document says. -/
def petEntry : Schema where
  keywords := { type := .string "object" }
  properties := some [
    (.string "pet", referenceTo "Pet"),
    (.string "note", {
      anyOf := some [{ keywords := { type := .string "string" } },
        { keywords := { reference := .string "notes.yaml#/Note" } }] })]

theorem petEntry_unaccounted :
    ∃ registry declared type after,
      (Registry.ofSchemas (some "pets") petDocument.schemas).result = .ok registry ∧
        Yields (registry.emit (some "Entry") petEntry) {} (declared, type) after ∧
        petEntry.references = .error (.ofProblem (.unsupportedReference "notes.yaml#/Note")) ∧
        ¬registry.Accounts petEntry declared type := by
  refine ⟨_, _, _, _, rfl, ⟨rfl, rfl⟩, rfl, fun accounts => ?_⟩
  obtain ⟨names, walked, -⟩ := accounts ("pets.model.pet", "Pet")
    (.inr ⟨_, List.mem_singleton_self _, .field List.mem_cons_self (List.mem_singleton_self _)⟩)
  cases walked

end OpenApiClient
