import OpenApiClient.Proofs.AliasClasses
import OpenApiClient.Proofs.Identifiers
import OpenApiClient.Proofs.PlannedBodies

/-! The names of the classes of a package. They are identifiers but for responses whose status ends in a line
feed. The scopes of services keep the keywords apart; those of class bodies and of the modules of aliases do
not. -/

namespace OpenApiClient

open InScope

inductive PackagePlan.NamesClass (plan : PackagePlan) : String → Prop
  | declared {own : ClassDeclaration} : plan.Declares own → plan.NamesClass own.name
  | handler {service : ServiceModule} {method : OperationMethod} : service ∈ plan.services →
      method ∈ service.operations → plan.NamesClass method.handlerClass
  | service {service : ServiceModule} : service ∈ plan.services → plan.NamesClass service.className

def PackagePlan.NamesLegal (plan : PackagePlan) : Prop := ∀ name, plan.NamesClass name → Naming.IsClassName name

def Schema.NamesKeyword (object : Schema) : Prop :=
  ∃ start, StartsAmong (object.properties.getD []) start ∧ Naming.isKeyword start = true

/-- A schema that is no struct leads to an object whose class starts from a keyword. -/
def ApiDocument.NamesKeyword (document : ApiDocument) : Prop :=
  ∃ name schema object start, (.string name, schema) ∈ document.schemas ∧ schema.isStruct = false ∧
    schema.LeadsTo (some (Naming.className name ++ "Item")) object start ∧ Naming.isKeyword start = true

/-- A status that ends in a line feed is answered with an object without a title. -/
def Operation.NamesLineFeed (operation : Operation) : Prop :=
  ∃ entry ∈ Operation.accepted operation.responses, '\n' ∈ (Text.lowerText entry.1).toList ∧
    ∃ contentType schema others object, entry.2.content = (contentType, some schema) :: others ∧
      schema.object? = some object ∧ object.keywords.title.truth = false

/-! The classes inside a class start from identifiers, and field names hide no keyword. -/

theorem Schema.LeadsTo.identifier {schema object : Schema} {suggested start : String}
    (leads : schema.LeadsTo (some suggested) object start)
    (identifier : Settings.isAsciiIdentifier suggested.toList = true) :
    Settings.isAsciiIdentifier start.toList = true := by
  rcases Registry.structName_cases leads.2 with ⟨title, -, -, rfl⟩ | ⟨-, same, -⟩
  · exact Naming.toIdentifierCamel_isIdentifier title
  · exact Option.some.inj same ▸ identifier

theorem startsAmong_identifier {properties : List (Value × Schema)} {start : String}
    (starts : StartsAmong properties start) : Settings.isAsciiIdentifier start.toList = true := by
  obtain ⟨jsonName, schema, object, -, leads⟩ := starts
  exact leads.identifier (Naming.toIdentifierCamel_isIdentifier jsonName)

theorem ClassDeclaration.BodyOf.inner_legal_iff {own : ClassDeclaration} {object : Schema}
    (body : own.BodyOf object) :
    (∀ inner ∈ own.inner, Naming.IsClassName inner.name) ↔ ¬object.NamesKeyword := by
  constructor
  · rintro legal ⟨start, starts, keyword⟩
    have free : start ∉ own.fields.map FieldDeclaration.name := fun taken =>
      absurd keyword (by simp [fieldNames_not_keyword body.fields start taken])
    have named : start ∈ own.inner.map ClassDeclaration.name :=
      (body.inner start).mpr ⟨start, starts, by rw [bodyName, if_neg free]⟩
    obtain ⟨inner, member, rfl⟩ := List.mem_map.mp named
    exact absurd keyword (by simp [(legal inner member).2])
  · intro none inner member
    obtain ⟨start, starts, named⟩ := (body.inner inner.name).mp (List.mem_map_of_mem member)
    rw [named]
    exact Naming.isClassName_apart (startsAmong_identifier starts) fun _ =>
      Bool.eq_false_iff.mpr fun keyword => none ⟨start, starts, keyword⟩

theorem ClassDeclaration.Holds.inside {top outer inner : ClassDeclaration} (holds : top.Holds outer)
    (member : inner ∈ outer.inner) : top.Holds inner := by
  induction holds with
  | self own => exact .inner member (.self inner)
  | inner among _ ih => exact .inner among (ih member)

theorem ClassDeclaration.Holds.top_or_inside {top own : ClassDeclaration} (holds : top.Holds own) :
    own = top ∨ ∃ outer, top.Holds outer ∧ own ∈ outer.inner := by
  induction holds with
  | self own => exact .inl rfl
  | inner among _ ih =>
      rcases ih with rfl | ⟨outer, deep, member⟩
      · exact .inr ⟨_, .self _, among⟩
      · exact .inr ⟨outer, .inner among deep, member⟩

namespace PackagePlan

variable {document : ApiDocument} {package : String} {plan : PackagePlan}

theorem Declares.inside {outer inner : ClassDeclaration} (declares : plan.Declares outer)
    (member : inner ∈ outer.inner) : plan.Declares inner := by
  cases declares with
  | model modelMember top holds => exact .model modelMember top (holds.inside member)
  | service serviceMember method top holds => exact .service serviceMember method top (holds.inside member)

theorem Declares.top_or_inside {own : ClassDeclaration} (declares : plan.Declares own) :
    (∃ model ∈ plan.models, own ∈ model.classes) ∨ (∃ service ∈ plan.services, own ∈ service.declarations) ∨
      ∃ outer, plan.Declares outer ∧ own ∈ outer.inner := by
  cases declares with
  | model member top holds =>
      rcases holds.top_or_inside with rfl | ⟨outer, deep, inside⟩
      · exact .inl ⟨_, member, top⟩
      · exact .inr (.inr ⟨outer, .model member top deep, inside⟩)
  | service member method top holds =>
      rcases holds.top_or_inside with rfl | ⟨outer, deep, inside⟩
      · exact .inr (.inl ⟨_, member, List.mem_flatMap.mpr ⟨_, method, top⟩⟩)
      · exact .inr (.inr ⟨outer, .service member method top deep, inside⟩)

theorem inner_legal_iff (planned : (ofDocument document package).result = .ok plan) :
    (∀ own, plan.Declares own → ∀ inner ∈ own.inner, Naming.IsClassName inner.name) ↔
      ∀ own object, plan.Declares own → document.HasObject object → own.BodyOf object →
        ¬object.NamesKeyword := by
  constructor
  · intro legal own object declares _ body
    exact body.inner_legal_iff.mp (legal own declares)
  · intro free own declares
    obtain ⟨object, has, body⟩ := declared_body planned declares
    exact body.inner_legal_iff.mpr (free own object declares has body)

end PackagePlan

/-! At the top of a service stand handlers and classes of parameters, whose names are claimed, and the classes that
the contents come to. -/

theorem claimName_isClassName {name free : String} {scope after : NamingScope}
    (yields : Yields (claimName name) scope free after) (legal : Naming.IsClassName name) :
    Naming.IsClassName free := by
  obtain ⟨rfl, -⟩ := claimName_free yields
  exact freeName_forall (fun _ own => Naming.isClassName_append own.1 (by decide)) scope legal _

namespace OperationContext

variable {context : OperationContext} {base scope after : NamingScope} {declared : List ClassDeclaration}

theorem contentType_comesTo {content : Content} {contentType : Value} {schema : Option Schema}
    {others : Content} {name typeText : String} (first : content = (contentType, schema) :: others)
    (reserved : scope.reserved = base.reserved)
    (yields : Yields (context.contentType schema name) scope (declared, typeText) after) :
    ∀ own ∈ declared, ∃ part ∈ ContentSchema.firstOf name content, part.comesTo base own.name = true := by
  subst first
  obtain ⟨-, rfl, -⟩ | ⟨schema, type, rfl, emitted, -⟩ := contentType_yields yields
  · simp
  · intro own member
    obtain ⟨object, start, leads, ownName, -⟩ := Registry.emit_declaredHere emitted own member
    rw [NamingScope.ownName_of_reserved reserved] at ownName
    exact ⟨⟨name, schema⟩, List.mem_singleton_self _, ContentSchema.comesTo_iff.mpr ⟨object, start, leads, ownName⟩⟩

theorem body_comesTo {operation : Operation} {start operationId : String} {body : Option BodyShape}
    (reserved : scope.reserved = base.reserved)
    (yields : Yields (context.body operation start operationId) scope (declared, body) after) :
    ∀ own ∈ declared, ∃ part ∈ operation.bodyContents start, part.comesTo base own.name = true := by
  obtain ⟨-, rfl, -⟩ | ⟨request, contentType, schema, others, shape, requested, filled, -, typed⟩ :=
    body_yields yields
  · simp
  · simpa only [Operation.bodyContents, requested] using contentType_comesTo filled reserved typed

theorem responses_comesTo {start operationId : String} {responses : List (String × Response)}
    {shapes : List ResponseShape} (reserved : scope.reserved = base.reserved)
    (yields : Yields (context.responses start operationId responses) scope (declared, shapes) after) :
    ∀ own ∈ declared, ∃ part ∈ Operation.responseContents start responses,
      part.comesTo base own.name = true := by
  replace yields := responses_yields yields
  induction yields with
  | nil => simp
  | @valid scope between _ pattern response declared others _ _ rest valid answered _ ih =>
      have advances : Advances base scope declared _ between := response_advances answered
      have later := ih (advances.reserved.trans reserved)
      simp only [Operation.responseContents, Operation.accepted, List.filter_cons, valid, ↓reduceIte,
        List.flatMap_cons, List.mem_append]
      intro own member
      rcases member with first | rest
      · obtain ⟨-, rfl, -⟩ | ⟨contentType, schema, others, typeText, filled, -, typed⟩ :=
          response_yields answered
        · contradiction
        · obtain ⟨part, among, comes⟩ := contentType_comesTo filled reserved typed own first
          exact ⟨part, .inl among, comes⟩
      · obtain ⟨part, among, comes⟩ := later own rest
        exact ⟨part, .inr among, comes⟩
  | invalid invalid _ ih =>
      simpa only [Operation.responseContents, Operation.accepted, List.filter_cons, invalid, Bool.false_eq_true,
        ↓reduceIte] using ih reserved

structure NamesKnown (base : NamingScope) (method : OperationMethod) : Prop where
  handler : Naming.IsClassName method.handlerClass
  declared : ∀ own ∈ method.declarations,
    Naming.IsClassName own.name ∨ ∃ content ∈ method.contents, content.comesTo base own.name = true

theorem compile_namesKnown {operation : Operation} {given : Option Value} {method : OperationMethod}
    (reserved : scope.reserved = base.reserved)
    (yields : Yields (context.compile operation given) scope method after) : NamesKnown base method := by
  obtain ⟨forParameters, forBody, forResponses, afterHandler, afterParameters, afterBody, -, rfl, -, claimed,
    grouped, shaped, answered, declarations, -⟩ := compile_yields yields
  have identifier := Naming.toIdentifierCamel_isIdentifier method.operationId
  have kept : afterHandler.reserved = base.reserved := by
    rw [(claimName_free claimed).2]
    exact reserved
  have parameters : Advances base afterHandler forParameters _ afterParameters := parameters_advances grouped
  have body : Advances base afterParameters forBody _ afterBody := body_advances shaped
  have keptParameters := parameters.reserved.trans kept
  have keptBody := body.reserved.trans keptParameters
  constructor
  · exact claimName_isClassName claimed (Naming.isClassName_append identifier (by decide))
  · rw [declarations]
    intro own member
    rcases List.mem_append.mp member with early | ofResponse
    · rcases List.mem_append.mp early with ofParameters | ofBody
      · obtain ⟨rfl, -⟩ | ⟨kept, name, only, -, claiming, built, rfl, -⟩ := parameters_yields grouped
        · contradiction
        · obtain rfl := List.mem_singleton.mp ofParameters
          rw [buildClass_name built]
          exact .inl (claimName_isClassName claiming (Naming.isClassName_append identifier (by decide)))
      · obtain ⟨content, among, comes⟩ := body_comesTo keptParameters shaped own ofBody
        exact .inr ⟨content, List.mem_append_left _ among, comes⟩
    · obtain ⟨content, among, comes⟩ := responses_comesTo keptBody answered own ofResponse
      exact .inr ⟨content, List.mem_append_right _ among, comes⟩

theorem Compiled.namesKnown {pairs : List (Operation × Value)} {methods : List OperationMethod}
    (module : scope.owner = none) (reserved : scope.reserved = base.reserved)
    (compiled : context.Compiled scope pairs methods after) : ∀ method ∈ methods, NamesKnown base method := by
  induction compiled with
  | nil => simp
  | cons yields _ ih =>
      have advances := (compile_advances module reserved yields).1
      refine List.forall_mem_cons.mpr ⟨compile_namesKnown reserved yields, ?_⟩
      exact ih (advances.owner.trans module) (advances.reserved.trans reserved)

end OperationContext

theorem responseClass_isClassName {name pattern : String} (valid : Client.isStatusPattern pattern = true)
    (line : '\n' ∉ (Text.lowerText pattern).toList) :
    Naming.IsClassName (Operation.responseClass (Naming.toIdentifierCamel name) pattern) := by
  have ending : ∀ c ∈ (OperationContext.responseEnding (Text.lowerText pattern)).toList,
      Naming.isIdentifierCharacter c = true := by
    unfold OperationContext.responseEnding
    split
    case isTrue => exact List.all_eq_true.mp (by decide)
    case isFalse ranged =>
      obtain ⟨a, b, c, ending, letters, short, digits⟩ := (statusPattern_cases valid).resolve_left ranged
      rw [letters] at line ⊢
      obtain rfl : ending = [] := short.resolve_right fun feed => line (by simp [feed])
      intro d member
      have digit := digits d member
      rw [Client.isPatternCharacter, Bool.or_eq_true, beq_iff_eq] at digit
      rcases digit with digit | rfl
      · simp [Naming.isIdentifierCharacter, digit]
      · decide
  rw [Operation.responseClass, String.append_assoc]
  refine Naming.isClassName_append (Naming.toIdentifierCamel_isIdentifier name) ?_
  have word : Naming.isEnding "Response" = true := by decide
  exact Naming.isEnding_append word ending

theorem lineFeed_not_className {name : String} (within : '\n' ∈ name.toList) : ¬Naming.IsClassName name := by
  rintro ⟨identifier, -⟩
  cases letters : name.toList with
  | nil => simp [letters] at within
  | cons c rest =>
      rw [letters] at identifier within
      have character := (Naming.isAsciiIdentifier_cons.mp identifier).2 _ within
      exact absurd character (by decide)

namespace ServiceModule

variable {service : ServiceModule}

theorem mem_firstOf {suggested : String} {content : ContentSchema} {contents : Content}
    (member : content ∈ ContentSchema.firstOf suggested contents) :
    ∃ contentType others, contents = (contentType, some content.schema) :: others := by
  unfold ContentSchema.firstOf at member
  split at member
  · rename_i contentType schema others
    obtain rfl := List.mem_singleton.mp member
    exact ⟨contentType, others, rfl⟩
  · contradiction

/-- A content without a title has a legal name for its class where no status ends in a line feed. -/
theorem suggested_isClassName {method : OperationMethod} {content : ContentSchema} {object : Schema}
    (member : content ∈ method.contents) (leads : content.schema.object? = some object)
    (untitled : object.keywords.title.truth = false) (clear : ¬method.operation.NamesLineFeed) :
    Naming.IsClassName content.suggested := by
  rcases List.mem_append.mp member with ofBody | ofResponse
  · unfold Operation.bodyContents at ofBody
    split at ofBody
    · contradiction
    · rw [ContentSchema.firstOf_suggested ofBody]
      exact Naming.isClassName_append (Naming.toIdentifierCamel_isIdentifier _)
        (by decide)
  · obtain ⟨entry, accepted, first⟩ := List.mem_flatMap.mp ofResponse
    obtain ⟨contentType, others, filled⟩ := mem_firstOf first
    rw [ContentSchema.firstOf_suggested first]
    refine responseClass_isClassName (List.mem_filter.mp accepted).2 fun feed => ?_
    exact clear ⟨entry, accepted, feed, contentType, _, others, object, filled, leads, untitled⟩

theorem ownName_isClassName {start : String} (identifier : Settings.isAsciiIdentifier start.toList = true)
    (free : start ∉ service.scope.reserved → Naming.isKeyword start = false) :
    Naming.IsClassName (service.scope.ownName start) := by
  rw [NamingScope.ownName_eq]
  exact Naming.isClassName_apart identifier free

theorem comesTo_isClassName {content : ContentSchema} {text : String}
    (comes : content.comesTo service.scope text = true)
    (suggested : ∀ object, content.schema.object? = some object → object.keywords.title.truth = false →
      Naming.IsClassName content.suggested) : Naming.IsClassName text := by
  obtain ⟨object, start, ⟨leads, named⟩, rfl⟩ := ContentSchema.comesTo_iff.mp comes
  rcases Registry.structName_cases named with ⟨title, -, -, rfl⟩ | ⟨untitled, same, -⟩
  · -- A title is put in camel case, whose keywords the scope of a service reserves.
    refine ownName_isClassName (Naming.toIdentifierCamel_isIdentifier title) fun unreserved => ?_
    refine Bool.eq_false_iff.mpr fun keyword => ?_
    exact unreserved (mem_scope_reserved.mpr (.inl (Naming.camel_keyword_reserved keyword)))
  · obtain rfl := Option.some.inj same
    have legal := suggested object leads untitled
    exact ownName_isClassName legal.1 fun _ => legal.2

end ServiceModule

section

variable {context : OperationContext} {group : ServiceGroup} {service : ServiceModule}

theorem service_namesKnown (served : (context.service group).result = .ok service) :
    ∀ method ∈ service.operations, OperationContext.NamesKnown service.scope method := by
  obtain ⟨pairs, after, compiled⟩ := service_compiled served
  exact compiled.namesKnown rfl rfl

/-- A status that ends in a line feed leaves its mark on the name of a class. -/
theorem service_lineFeed (served : (context.service group).result = .ok service) {method : OperationMethod}
    (member : method ∈ service.operations) (feeds : method.operation.NamesLineFeed) :
    ∃ own ∈ service.declarations, ¬Naming.IsClassName own.name := by
  obtain ⟨entry, accepted, feed, contentType, schema, others, object, filled, leads, untitled⟩ := feeds
  have valid : Client.isStatusPattern entry.1 = true := (List.mem_filter.mp accepted).2
  let name := Operation.responseClass (Naming.toIdentifierCamel method.operationId) entry.1
  have marked : '\n' ∈ name.toList := by
    have ranged : Text.lowerText entry.1 ≠ Client.defaultPattern := fun default => by
      rw [default] at feed
      exact absurd feed (by decide)
    simp only [name, Operation.responseClass, OperationContext.responseEnding, if_neg ranged, String.toList_append]
    exact List.mem_append_right _ feed
  have named : structName object.keywords (some name) = .ok name := by
    have filled : name ≠ "" := by simp [name, Operation.responseClass]
    exact Registry.structName_untitled untitled filled
  have comes : (⟨name, schema⟩ : ContentSchema).comesTo service.scope (service.scope.ownName name) = true :=
    ContentSchema.comesTo_iff.mpr ⟨object, name, ⟨leads, named⟩, rfl⟩
  have among : (⟨name, schema⟩ : ContentSchema) ∈ service.contents :=
    List.mem_flatMap.mpr ⟨method, member, List.mem_append_right _ (mem_responseContents _ accepted filled)⟩
  -- The name is claimed for nothing else, so the one class that has it is that of the response.
  have unclaimed : Unclaimed (service.scope.ownName name) := .response valid _ _
  obtain ⟨-, _, _, -, -, own, one, -⟩ := (service_shares served).1 _ _ unclaimed among comes
  have kept : own ∈ service.declarations.filter (·.name == service.scope.ownName name) := by
    rw [one]
    exact List.mem_singleton_self own
  obtain ⟨declared, ownName⟩ := List.mem_filter.mp kept
  refine ⟨own, declared, lineFeed_not_className ?_⟩
  rw [beq_iff_eq.mp ownName, NamingScope.ownName_eq]
  split
  · simp [marked]
  · exact marked

end

namespace PackagePlan

variable {document : ApiDocument} {package : String} {plan : PackagePlan}

theorem struct_classNames (planned : (ofDocument document package).result = .ok plan) {model : ModelModule}
    (member : model ∈ plan.models) {schema : Schema}
    (named : (.string model.schemaName, schema) ∈ document.schemas) (struct : schema.isStruct = true) :
    ∀ own ∈ model.classes, own.name = model.className := by
  obtain ⟨registry, entry, -, -, done, rfl⟩ := model_entry planned member named
  obtain ⟨type, cycle, emitted, -, -, -, -, className⟩ := Registry.model_ok done
  unfold Registry.emitNamed at emitted
  rw [if_pos struct] at emitted
  obtain ⟨own, built, same⟩ := Traced.bind_ok.mp emitted
  obtain ⟨only, -⟩ := Prod.mk.inj (Traced.pure_ok.mp same)
  rw [className, ← only]
  exact List.forall_mem_singleton.mpr (OperationContext.buildClass_name built)

theorem models_legal_iff (planned : (ofDocument document package).result = .ok plan) :
    (∀ model ∈ plan.models, ∀ own ∈ model.classes, Naming.IsClassName own.name) ↔ ¬document.NamesKeyword := by
  constructor
  · rintro legal ⟨name, schema, object, start, named, notStruct, leads, keyword⟩
    obtain ⟨model, member, rfl⟩ := schema_model planned named
    obtain ⟨className, -⟩ := model_classNames planned member
    rw [← className] at leads
    have different : start ≠ model.className := by
      rintro rfl
      rw [className, (Naming.className_isClassName _).2] at keyword
      contradiction
    have declared : start ∈ model.classes.map ClassDeclaration.name :=
      (alias_names planned member named notStruct start).mpr
        ⟨start, ⟨object, leads⟩, by rw [besideName, if_neg different]⟩
    obtain ⟨own, among, rfl⟩ := List.mem_map.mp declared
    exact absurd keyword (by simp [(legal model member own among).2])
  · intro none model member own among
    obtain ⟨schema, named⟩ := model_schema planned member
    obtain ⟨className, -⟩ := model_classNames planned member
    cases struct : schema.isStruct with
    | true =>
        rw [struct_classNames planned member named struct own among, className]
        exact Naming.className_isClassName _
    | false =>
        obtain ⟨start, ⟨object, leads⟩, ownName⟩ :=
          (alias_names planned member named struct own.name).mp (List.mem_map_of_mem among)
        rw [className] at leads
        have suggested : Naming.IsClassName (Naming.className model.schemaName ++ "Item") :=
          Naming.isClassName_append (Naming.className_isClassName _).1 (by decide)
        rw [ownName]
        exact Naming.isClassName_apart (leads.identifier suggested.1) fun _ =>
          Bool.eq_false_iff.mpr fun keyword => none ⟨_, schema, object, start, named, struct, leads, keyword⟩

theorem services_legal_iff (planned : (ofDocument document package).result = .ok plan) :
    (∀ service ∈ plan.services, ∀ own ∈ service.declarations, Naming.IsClassName own.name) ↔
      ∀ operation ∈ document.operations, ¬operation.NamesLineFeed := by
  obtain ⟨registry, groups, services, -, -, grouped, served, separate⟩ := ofDocument_ok planned
  have partition := groupOperations_ok grouped
  rw [separate]
  constructor
  · intro legal operation member feeds
    obtain ⟨path, written⟩ := groupOperations_succeeds.mp ⟨groups, grouped⟩ operation member
    have rooted : operation.root? = some (Naming.pathRoot path) := by simp [Operation.root?, written]
    obtain ⟨group, among, -, collected, -⟩ := partition.only member rooted
    obtain ⟨original, present, done⟩ := forall₂_of_mem_left served among
    obtain ⟨_, -, operations, -⟩ := OperationContext.service_names done
    rw [← operations] at collected
    obtain ⟨method, within, rfl⟩ := List.mem_map.mp collected
    obtain ⟨own, declared, illegal⟩ := service_lineFeed done within feeds
    obtain ⟨module, separated⟩ := separateModules_mem present
    exact illegal (legal _ separated own declared)
  · -- Separating modules renames files alone, and each method comes from an operation of its group.
    intro clear service member own declared
    obtain ⟨original, present, module, rfl⟩ := mem_separateModules member
    obtain ⟨group, among, done⟩ := forall₂_of_mem_right served present
    obtain ⟨_, -, operations, -⟩ := OperationContext.service_names done
    obtain ⟨method, within, ofMethod⟩ := List.mem_flatMap.mp declared
    have collected : method.operation ∈ group.operations := operations ▸ List.mem_map_of_mem within
    have sound := clear method.operation ((partition.mem among).mp collected).1
    rcases (service_namesKnown done method within).declared own ofMethod with legal | ⟨content, part, comes⟩
    · exact legal
    · exact ServiceModule.comesTo_isClassName comes fun object leads untitled =>
        ServiceModule.suggested_isClassName part leads untitled sound

theorem claimed_legal (planned : (ofDocument document package).result = .ok plan) {service : ServiceModule}
    (member : service ∈ plan.services) :
    Naming.IsClassName service.className ∧
      ∀ method ∈ service.operations, Naming.IsClassName method.handlerClass := by
  obtain ⟨registry, groups, services, -, -, -, served, separate⟩ := ofDocument_ok planned
  rw [separate] at member
  obtain ⟨original, present, module, rfl⟩ := mem_separateModules member
  obtain ⟨group, -, done⟩ := forall₂_of_mem_right served present
  obtain ⟨_, _, className, -⟩ := OperationContext.service_ok done
  refine ⟨?_, fun method within => (service_namesKnown done method within).handler⟩
  rw [className]
  exact group.className_isClassName

/-- Every class of a package has a legal name exactly when no object inside a class and no object beside an alias
would be called by a keyword, and no response whose status ends in a line feed is an object without a title. -/
theorem namesLegal_iff (planned : (ofDocument document package).result = .ok plan) :
    plan.NamesLegal ↔
      (∀ own object, plan.Declares own → document.HasObject object → own.BodyOf object →
        ¬object.NamesKeyword) ∧
      ¬document.NamesKeyword ∧ ∀ operation ∈ document.operations, ¬operation.NamesLineFeed := by
  rw [← inner_legal_iff planned, ← models_legal_iff planned, ← services_legal_iff planned]
  constructor
  · intro legal
    refine ⟨fun own declares inner member => legal _ (.declared (declares.inside member)), ?_, ?_⟩
    · exact fun model member own among => legal _ (.declared (.model member among (.self own)))
    · intro service member own among
      obtain ⟨method, within, top⟩ := List.mem_flatMap.mp among
      exact legal _ (.declared (.service member within top (.self own)))
  · rintro ⟨inside, models, services⟩ name names
    cases names with
    | declared declares =>
        rcases declares.top_or_inside with ⟨model, member, top⟩ | ⟨service, member, top⟩ | ⟨outer, deep, within⟩
        · exact models model member _ top
        · exact services service member _ top
        · exact inside outer deep _ within
    | handler member within => exact (claimed_legal planned member).2 _ within
    | service member => exact (claimed_legal planned member).1

end PackagePlan

def holderPart : Schema where
  keywords := { type := .string "object" }
  properties := some [(.string "value", { keywords := { type := .string "string" } })]

def holder (property : String) : Schema where
  keywords := { type := .string "object" }
  properties := some [(.string property, holderPart)]

def holderDocument (property : String) : ApiDocument where
  title := .string "Holders"
  version := "1"
  schemas := [(.string "Holder", holder property)]
  operations := [
    { method := "GET", path := .string "/holder", operationId := .string "getHolder"
      responses := [("200", { content := [(.string "application/json", some (holder property))] })] }]
  distinctSchemas := by
    simp [Entries.Distinct]

theorem holder_reaches {property : String} {object : Schema} (reach : (holder property).Reaches object) :
    object = holder property ∨ object = holderPart := by
  rcases (Schema.reaches_iff rfl).mp reach with same | ⟨entry, member, deeper⟩
  · exact .inl same
  · obtain rfl := List.mem_singleton.mp member
    exact .inr (deeper.eq_of_leaves rfl (List.forall_mem_singleton.mpr rfl))

theorem holderDocument_objects {property : String} {object : Schema}
    (has : (holderDocument property).HasObject object) :
    object = holder property ∨ object = holderPart ∨ object = parameterGroup [] := by
  have named : ∀ entry ∈ (holderDocument property).schemas, entry.2 = holder property := by simp [holderDocument]
  have answered : ∀ operation ∈ (holderDocument property).operations,
      operation.parameters = [] ∧ operation.schemas = [some (holder property)] :=
    List.forall_mem_singleton.mpr ⟨rfl, rfl⟩
  rcases has.of_only named answered with reach | empty
  · exact (holder_reaches reach).imp_right .inl
  · exact .inr (.inr empty)

theorem holder_starts {property start : String}
    (starts : StartsAmong ((holder property).properties.getD []) start) :
    start = Naming.toIdentifierCamel property := by
  obtain ⟨jsonName, schema, object, member, leads, named⟩ := starts
  obtain ⟨name, rfl⟩ := Prod.mk.inj (List.mem_singleton.mp member)
  obtain rfl := Option.some.inj leads
  rcases Registry.structName_cases named with ⟨title, text, -⟩ | ⟨-, same, -⟩
  · contradiction
  · rw [← Option.some.inj same, Value.string.inj name]

set_option maxRecDepth 4000 in
theorem holderDocument_legal :
    ∃ plan, (PackagePlan.ofDocument (holderDocument "part") "holders").result = .ok plan ∧
      plan.modelBodies = [(["Part"], ["part"])] ∧ plan.NamesLegal := by
  obtain ⟨plan, planned, bodies⟩ : ∃ plan,
      (PackagePlan.ofDocument (holderDocument "part") "holders").result = .ok plan ∧
        plan.modelBodies = [(["Part"], ["part"])] := ⟨_, rfl, by decide +kernel⟩
  refine ⟨plan, planned, bodies, (PackagePlan.namesLegal_iff planned).mpr ⟨?_, ?_, ?_⟩⟩
  · rintro own object - has - ⟨start, starts, keyword⟩
    rcases holderDocument_objects has with rfl | rfl | rfl
    · rw [holder_starts starts] at keyword
      exact absurd keyword (by decide +kernel)
    · obtain ⟨jsonName, schema, object, member, leads, -⟩ := starts
      obtain ⟨-, rfl⟩ := Prod.mk.inj (List.mem_singleton.mp member)
      cases leads
    · obtain ⟨jsonName, schema, object, member, -⟩ := starts
      exact absurd member List.not_mem_nil
  · rintro ⟨name, schema, object, start, member, notStruct, -⟩
    obtain ⟨-, rfl⟩ := Prod.mk.inj (List.mem_singleton.mp member)
    cases notStruct
  · rintro operation member ⟨entry, accepted, feed, -⟩
    obtain rfl := List.mem_singleton.mp member
    obtain rfl := List.mem_singleton.mp (List.mem_filter.mp accepted).1
    exact absurd feed (by decide +kernel)

set_option maxRecDepth 4000 in
/-- A part that is called none makes a class of that keyword. -/
theorem holderDocument_keyword :
    ∃ plan, (PackagePlan.ofDocument (holderDocument "none") "holders").result = .ok plan ∧
      plan.modelBodies = [(["None"], ["none"])] ∧ ¬plan.NamesLegal := by
  obtain ⟨plan, planned, bodies⟩ : ∃ plan,
      (PackagePlan.ofDocument (holderDocument "none") "holders").result = .ok plan ∧
        plan.modelBodies = [(["None"], ["none"])] := ⟨_, rfl, by decide +kernel⟩
  refine ⟨plan, planned, bodies, fun legal => ?_⟩
  have member : (["None"], ["none"]) ∈ plan.modelBodies := by simp [bodies]
  obtain ⟨model, modelMember, among⟩ := List.mem_flatMap.mp member
  obtain ⟨own, ownMember, body⟩ := List.mem_map.mp among
  have named : "None" ∈ own.inner.map ClassDeclaration.name := by simp [(Prod.mk.inj body).1]
  obtain ⟨inner, within, innerName⟩ := List.mem_map.mp named
  have declares : plan.Declares inner := .model modelMember ownMember (.inner within (.self inner))
  have free := (legal inner.name (.declared declares)).2
  rw [innerName] at free
  exact absurd free (by decide +kernel)

end OpenApiClient
