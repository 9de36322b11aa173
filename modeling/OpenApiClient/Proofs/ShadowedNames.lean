import OpenApiClient.Proofs.DeclaredClasses
import OpenApiClient.Proofs.ModuleNames

/-! Names that a service module has already: the reserved ones, its own class and the classes it imports. A class
that would have one gets an underscore, once, and may then have the name of an imported class that got one too. -/

namespace OpenApiClient

open InScope

namespace Naming

open Text

theorem caseForms_unmarked {c : Char} (identifier : isIdentifierCharacter c = true) (letter : c ≠ '_') :
    '_' ∉ upperCharacter c ∧ '_' ∉ lower [c] := by
  have checked := of_ascii
    (fun c => c == '_' || !(upperCharacter c).contains '_' && !(lower [c]).contains '_') (by decide +kernel)
    (isIdentifierCharacter_ascii identifier)
  simpa [letter] using checked

theorem upperCamelFrom_unmarked {name : List Char} (newWord : Bool)
    (identifier : ∀ c ∈ name, isIdentifierCharacter c = true) : '_' ∉ upperCamelFrom newWord name := by
  induction name generalizing newWord with
  | nil => simp [upperCamelFrom]
  | cons c rest ih =>
      obtain ⟨first, others⟩ := List.forall_mem_cons.mp identifier
      unfold upperCamelFrom
      split
      · exact ih true others
      · rename_i letter
        obtain ⟨upper, lower⟩ := caseForms_unmarked first letter
        split
        · simp [Ne.symm letter, ih true others]
        · split
          · simp [upper, ih false others]
          · simp [lower, ih false others]

theorem toIdentifierCamel_closed (name : String) : ¬EndsOpen (toIdentifierCamel name) := by
  have unmarked : '_' ∉ upperCamel (name.toList.map fun c => if isIdentifierCharacter c then c else '_') :=
    upperCamelFrom_unmarked true (plain_identifier name.toList)
  rw [EndsOpen, toIdentifierCamel, String.toList_ofList]
  unfold identifierCamel
  intro last
  split at last
  · exact absurd last (by decide)
  · rename_i c rest same
    rw [same] at unmarked
    split at last
    · rw [List.getLast?_cons_cons] at last
      exact unmarked (List.mem_of_getLast? last)
    · exact unmarked (List.mem_of_getLast? last)

/-- No reserved name ends in an underscore or is spelled as those of bodies and responses are. -/
theorem reservedClassNames_spelled : ∀ name ∈ reservedClassNames,
    name.toList.getLast? ≠ some '_' ∧ ¬"Body".toList <:+ name.toList ∧
      ¬"Response".toList <:+: name.toList.tail := by
  decide +kernel

theorem reservedClassNames_closed (name : String) (member : name ∈ reservedClassNames) : ¬EndsOpen name :=
  (reservedClassNames_spelled name member).1

def schemaCamel (schemaName : String) : String := toIdentifierCamel (undotted schemaName)

theorem className_eq (schemaName : String) :
    className schemaName =
      if isReservedClassName (schemaCamel schemaName) then schemaCamel schemaName ++ "_"
      else schemaCamel schemaName := rfl

theorem isReservedClassName_iff {name : String} : isReservedClassName name = true ↔ name ∈ reservedClassNames := by
  rw [isReservedClassName, List.contains_iff_mem]

theorem className_open {schemaName start : String} (same : className schemaName = start ++ "_") :
    start = schemaCamel schemaName ∧ isReservedClassName (schemaCamel schemaName) = true := by
  rw [className_eq] at same
  split at same
  · rename_i reserved
    exact ⟨(String.append_left_inj _ |>.mp same).symm, reserved⟩
  · have ends : EndsOpen (start ++ "_") := by simp [EndsOpen]
    rw [← same] at ends
    exact absurd ends (toIdentifierCamel_closed _)

end Naming

namespace ServiceModule

def classNames (service : ServiceModule) : List String :=
  service.declarations.map ClassDeclaration.name ++ service.operations.map OperationMethod.handlerClass

/-- No class of a service module has a reserved name, that of the service itself or that of an import. -/
def ShadowsNothing (service : ServiceModule) : Prop :=
  ∀ name ∈ service.classNames, name ∉ Naming.reservedClassNames ∧ name ≠ service.className ∧
    ∀ named ∈ service.imports, name ≠ named.className

theorem mem_scope_reserved {service : ServiceModule} {name : String} :
    name ∈ service.scope.reserved ↔ name ∈ Naming.reservedClassNames ∨ name = service.className ∨
      ∃ named ∈ service.imports, name = named.className := by
  rw [scope, NamingScope.mem_reserve, List.mem_append, List.mem_cons, List.mem_map]
  simp [eq_comm]

theorem shadowsNothing_iff_reserved {service : ServiceModule} :
    service.ShadowsNothing ↔ ∀ name ∈ service.classNames, name ∉ service.scope.reserved := by
  refine forall₂_congr fun name member => ?_
  rw [mem_scope_reserved]
  simp

end ServiceModule

namespace ContentSchema

theorem comesTo_iff {base : NamingScope} {text : String} {content : ContentSchema} :
    content.comesTo base text = true ↔
      ∃ object start, content.schema.LeadsTo (some content.suggested) object start ∧ text = base.ownName start := by
  simp only [comesTo, Schema.declaredName, Schema.LeadsTo, beq_iff_eq]
  cases content.schema.object? with
  | none => simp
  | some object =>
      cases named : structName object.keywords (some content.suggested) with
      | error failure => simp [named]
      | ok start => simp [named, eq_comm]

theorem comesTo_reserved {base : NamingScope} {text : String} {content : ContentSchema}
    (reserved : text ∈ base.reserved) (comes : content.comesTo base text = true) :
    ∃ object start, content.schema.LeadsTo (some content.suggested) object start ∧ text = start ++ "_" := by
  obtain ⟨object, start, leads, same⟩ := comesTo_iff.mp comes
  refine ⟨object, start, leads, ?_⟩
  rw [NamingScope.ownName_eq] at same
  by_cases known : start ∈ base.reserved
  · rwa [if_pos known] at same
  · rw [if_neg known] at same
    exact absurd (same ▸ reserved) known

/-- The object of a content has a title from which the class name of a schema is made too, and the name is
reserved. -/
def Shadows (content : ContentSchema) (named : NamedSchema) : Prop :=
  ∃ object title, content.schema.object? = some object ∧ object.keywords.title = .string title ∧ title ≠ "" ∧
    Naming.toIdentifierCamel title = Naming.schemaCamel named.name ∧
    Naming.isReservedClassName (Naming.schemaCamel named.name) = true

theorem firstOf_suggested {suggested : String} {content : ContentSchema} {contents : Content}
    (member : content ∈ firstOf suggested contents) : content.suggested = suggested := by
  unfold firstOf at member
  split at member
  · rw [List.mem_singleton.mp member]
  · contradiction

end ContentSchema

namespace Naming

theorem body_not_reserved (start : String) : start ++ "Body" ∉ reservedClassNames := by
  intro member
  exact (reservedClassNames_spelled _ member).2.1 (by simp)

theorem response_not_reserved {start : String} (filled : start ≠ "") (ending : String) :
    start ++ "Response" ++ ending ∉ reservedClassNames := by
  intro member
  refine (reservedClassNames_spelled _ member).2.2 ?_
  obtain ⟨c, rest, same⟩ : ∃ c rest, start.toList = c :: rest :=
    List.exists_cons_of_ne_nil (by simpa using filled)
  refine ⟨rest, ending.toList, ?_⟩
  rw [String.toList_append, String.toList_append, same, List.cons_append, List.cons_append, List.tail_cons]

end Naming

namespace ServiceModule

variable {service : ServiceModule}

/-- The names that are suggested for the classes of bodies and responses are never reserved. -/
theorem suggested_not_reserved {content : ContentSchema} (member : content ∈ service.contents) :
    content.suggested ∉ Naming.reservedClassNames := by
  obtain ⟨method, -, among⟩ := List.mem_flatMap.mp member
  rcases List.mem_append.mp among with ofBody | ofResponse
  · unfold Operation.bodyContents at ofBody
    split at ofBody
    · contradiction
    · rw [ContentSchema.firstOf_suggested ofBody]
      exact Naming.body_not_reserved _
  · obtain ⟨entry, -, first⟩ := List.mem_flatMap.mp ofResponse
    rw [ContentSchema.firstOf_suggested first]
    exact Naming.response_not_reserved (Naming.toIdentifierCamel_ne_empty _) _

/-- An object starts from the reserved class name of a schema only by its title. -/
theorem shadows_of_leads {content : ContentSchema} (member : content ∈ service.contents) {named : NamedSchema}
    {object : Schema}
    (leads : content.schema.LeadsTo (some content.suggested) object (Naming.schemaCamel named.name))
    (reserved : Naming.isReservedClassName (Naming.schemaCamel named.name) = true) : content.Shadows named := by
  rcases Registry.structName_cases leads.2 with ⟨title, text, filled, same⟩ | ⟨-, same, -⟩
  · exact ⟨object, title, leads.1, text, filled, same.symm, reserved⟩
  · have suggested := suggested_not_reserved member
    rw [Option.some.inj same] at suggested
    exact absurd (Naming.isReservedClassName_iff.mp reserved) suggested

end ServiceModule

theorem ContentSchema.Shadows.leads {content : ContentSchema} {named : NamedSchema}
    (shadows : content.Shadows named) :
    Naming.schemaCamel named.name ∈ Naming.reservedClassNames ∧
      ∃ object, content.schema.LeadsTo (some content.suggested) object (Naming.schemaCamel named.name) := by
  obtain ⟨object, title, found, text, filled, same, reserved⟩ := shadows
  refine ⟨Naming.isReservedClassName_iff.mp reserved, object, found, ?_⟩
  have given : (Value.string title).truth = true := by simpa [Value.truth] using filled
  unfold structName
  simp only [text, given, ↓reduceIte, ← same]
  rfl

namespace OperationContext

variable {context : OperationContext} {base scope after : NamingScope}

theorem Compiled.handlers_free {pairs : List (Operation × Value)} {methods : List OperationMethod}
    (module : scope.owner = none) (reserved : scope.reserved = base.reserved)
    (compiled : context.Compiled scope pairs methods after) :
    ∀ method ∈ methods, method.handlerClass ∉ base.reserved := by
  induction compiled with
  | nil => simp
  | cons yields _ ih =>
      have advances := (compile_advances module reserved yields).1
      obtain ⟨_, _, _, _, _, _, -, -, -, claimed, -⟩ := compile_yields yields
      refine List.forall_mem_cons.mpr ⟨?_, ih (advances.owner.trans module) (advances.reserved.trans reserved)⟩
      rw [← reserved]
      exact (claimName_not_mem claimed).2

end OperationContext

section

variable {context : OperationContext} {group : ServiceGroup} {service : ServiceModule}

/-- A reserved name is given to a class of a service exactly when one of its contents comes to it. -/
theorem classNames_reserved_iff (served : (context.service group).result = .ok service) {text : String}
    (reserved : text ∈ service.scope.reserved) :
    text ∈ service.classNames ↔ ∃ content ∈ service.contents, content.comesTo service.scope text = true := by
  obtain ⟨after, advances, -⟩ := service_advances served
  have state := advances.shares (.inr reserved) (Shares.start service text)
  simp only [List.nil_append] at state
  have declared : text ∈ service.declarations.map ClassDeclaration.name ↔
      service.declarations.filter (·.name == text) ≠ [] := by
    simp [List.filter_eq_nil_iff]
  -- Handlers are claimed, and a claimed name is never a reserved one.
  have notHandler : text ∉ service.operations.map OperationMethod.handlerClass := by
    intro member
    obtain ⟨method, among, rfl⟩ := List.mem_map.mp member
    obtain ⟨pairs, last, compiled⟩ := service_compiled served
    have free : method.handlerClass ∉ service.scope.reserved := compiled.handlers_free rfl rfl method among
    exact free reserved
  rw [ServiceModule.classNames, List.mem_append, or_iff_left notHandler, declared]
  cases found : service.contents.find? (·.comesTo service.scope text) with
  | none =>
      rw [state.absent found]
      simpa using found
  | some content =>
      obtain ⟨own, object, one, -⟩ := state.first content found
      rw [one]
      have comes := List.find?_some found
      simpa using ⟨content, List.mem_of_find?_eq_some found, comes⟩

theorem service_imports_named (served : (context.service group).result = .ok service) :
    ∀ named ∈ service.imports, named ∈ context.registry.entries := by
  intro named member
  obtain ⟨referenced, _, _, -, found, -⟩ := OperationContext.service_parts served
  exact (Registry.get_ok ((Registry.imports_ok found named).mp member).2.2).1

theorem service_className_closed (served : (context.service group).result = .ok service) :
    ¬Naming.EndsOpen service.className := by
  obtain ⟨_, _, className, -⟩ := OperationContext.service_ok served
  rw [className]
  exact Naming.toIdentifierCamel_closed _

end

/-- What comes to a reserved name has the title of an imported schema whose class name is reserved. -/
theorem shadows_of_comesTo {context : OperationContext} {group : ServiceGroup} {service : ServiceModule}
    (served : (context.service group).result = .ok service)
    (namedIn : ∀ named ∈ service.imports, named.className = Naming.className named.name)
    {content : ContentSchema} (member : content ∈ service.contents) {text : String}
    (reserved : text ∈ service.scope.reserved) (comes : content.comesTo service.scope text = true) :
    ∃ named ∈ service.imports, content.Shadows named := by
  obtain ⟨object, start, leads, rfl⟩ := ContentSchema.comesTo_reserved reserved comes
  -- Of the reserved names only that of an import can end in an underscore.
  have ends : Naming.EndsOpen (start ++ "_") := by simp [Naming.EndsOpen]
  rcases ServiceModule.mem_scope_reserved.mp reserved with builtin | own | ⟨named, imported, same⟩
  · exact absurd ends (Naming.reservedClassNames_closed _ builtin)
  · rw [own] at ends
    exact absurd ends (service_className_closed served)
  · rw [namedIn named imported] at same
    obtain ⟨rfl, camel⟩ := Naming.className_open same.symm
    exact ⟨named, imported, ServiceModule.shadows_of_leads member leads camel⟩

/-- An object with the title of an imported schema comes to the class name of the schema, which is reserved. -/
theorem comesTo_of_shadows {service : ServiceModule} {named : NamedSchema} {content : ContentSchema}
    (imported : named ∈ service.imports) (namedIn : named.className = Naming.className named.name)
    (shadows : content.Shadows named) :
    named.className ∈ service.scope.reserved ∧ content.comesTo service.scope named.className = true := by
  obtain ⟨builtin, object, leads⟩ := shadows.leads
  have taken : Naming.schemaCamel named.name ∈ service.scope.reserved :=
    ServiceModule.mem_scope_reserved.mpr (.inl builtin)
  refine ⟨ServiceModule.mem_scope_reserved.mpr (.inr (.inr ⟨named, imported, rfl⟩)), ?_⟩
  refine ContentSchema.comesTo_iff.mpr ⟨object, _, leads, ?_⟩
  rw [namedIn, Naming.className_eq, NamingScope.ownName_eq, if_pos taken,
    if_pos (Naming.isReservedClassName_iff.mpr builtin)]

/-- A service shadows a name exactly when a content is an object with a title that gives it the reserved class
name of a schema that the service imports. -/
theorem shadowsNothing_iff {document : ApiDocument} {package : String} {plan : PackagePlan}
    (planned : (PackagePlan.ofDocument document package).result = .ok plan) {service : ServiceModule}
    (member : service ∈ plan.services) :
    service.ShadowsNothing ↔
      ¬∃ content ∈ service.contents, ∃ named ∈ service.imports, content.Shadows named := by
  obtain ⟨registry, groups, services, made, -, -, served, separate⟩ := PackagePlan.ofDocument_ok planned
  rw [separate] at member
  obtain ⟨original, among, module, rfl⟩ := mem_separateModules member
  obtain ⟨group, -, done⟩ := forall₂_of_mem_right served among
  have namedIn : ∀ named ∈ original.imports, named.className = Naming.className named.name :=
    fun named imported => (Registry.ofSchemas_named made (service_imports_named done named imported)).1
  change original.ShadowsNothing ↔
    ¬∃ content ∈ original.contents, ∃ named ∈ original.imports, content.Shadows named
  rw [ServiceModule.shadowsNothing_iff_reserved]
  constructor
  · rintro apart ⟨content, within, named, imported, shadows⟩
    obtain ⟨reserved, comes⟩ := comesTo_of_shadows imported (namedIn named imported) shadows
    exact apart _ ((classNames_reserved_iff done reserved).mpr ⟨content, within, comes⟩) reserved
  · intro none text given reserved
    obtain ⟨content, within, comes⟩ := (classNames_reserved_iff done reserved).mp given
    obtain ⟨named, imported, shadows⟩ := shadows_of_comesTo done namedIn within reserved comes
    exact none ⟨content, within, named, imported, shadows⟩

def warningDocument (title : String) : ApiDocument where
  title := .string "Shop"
  version := "1"
  schemas := [(.string "Warning", {
    keywords := { type := .string "object" }
    properties := some [(.string "code", { keywords := { type := .string "integer" } })] })]
  operations := [
    { method := "POST", path := .string "/orders", operationId := .string "placeOrder"
      requestBody := some { content := [(.string "application/json", some {
        keywords := { type := .string "object", title := .string title }
        properties := some [(.string "text", { keywords := { type := .string "string" } })] })] }
      responses := [("200", { content := [(.string "application/json", some {
        keywords := { reference := .string (schemaReferenceStart ++ "Warning") } })] })] }]
  distinctSchemas := by decide +kernel

set_option maxRecDepth 4000 in
theorem warningDocument_shadowsNothing :
    ∃ plan service, (PackagePlan.ofDocument (warningDocument "Warnings") "shop").result = .ok plan ∧
      plan.services = [service] ∧ service.imports.map NamedSchema.name = ["Warning"] ∧
      service.contents.filterMap (fun content => content.schema.object?.map (·.keywords.title)) =
        [.string "Warnings"] ∧ service.ShadowsNothing := by
  obtain ⟨plan, service, planned, only, imports, titles⟩ : ∃ plan service,
      (PackagePlan.ofDocument (warningDocument "Warnings") "shop").result = .ok plan ∧
        plan.services = [service] ∧ service.imports.map NamedSchema.name = ["Warning"] ∧
        service.contents.filterMap (fun content => content.schema.object?.map (·.keywords.title)) =
          [.string "Warnings"] := ⟨_, _, rfl, rfl, rfl, rfl⟩
  have member : service ∈ plan.services := only ▸ List.mem_singleton_self service
  refine ⟨plan, service, planned, only, imports, titles, (shadowsNothing_iff planned member).mpr ?_⟩
  rintro ⟨content, within, named, imported, object, title, found, text, -, same, -⟩
  have name : named.name ∈ ["Warning"] := imports ▸ List.mem_map_of_mem imported
  have titled : object.keywords.title ∈ [Value.string "Warnings"] := by
    rw [← titles]
    exact List.mem_filterMap.mpr ⟨content, within, by rw [found]; rfl⟩
  rw [text, List.mem_singleton] at titled
  rw [Value.string.inj titled, List.mem_singleton.mp name] at same
  exact absurd same (by decide +kernel)

set_option maxRecDepth 4000 in
theorem warningDocument_shadows :
    ∃ plan service, (PackagePlan.ofDocument (warningDocument "Warning") "shop").result = .ok plan ∧
      plan.services = [service] ∧ service.imports.map NamedSchema.className = ["Warning_"] ∧
      service.classNames = ["Warning_", "PlaceOrderResponseHandler"] ∧ ¬service.ShadowsNothing := by
  obtain ⟨plan, service, planned, only, imports, names⟩ : ∃ plan service,
      (PackagePlan.ofDocument (warningDocument "Warning") "shop").result = .ok plan ∧
        plan.services = [service] ∧ service.imports.map NamedSchema.className = ["Warning_"] ∧
        service.classNames = ["Warning_", "PlaceOrderResponseHandler"] := ⟨_, _, rfl, rfl, rfl, by decide +kernel⟩
  have imported : "Warning_" ∈ service.imports.map NamedSchema.className := by
    rw [imports]
    exact List.mem_singleton_self _
  obtain ⟨named, among, same⟩ := List.mem_map.mp imported
  refine ⟨plan, service, planned, only, imports, names, fun nothing => ?_⟩
  have declared : "Warning_" ∈ service.classNames := by
    rw [names]
    exact List.mem_cons_self
  exact (nothing "Warning_" declared).2.2 named among same.symm

end OpenApiClient
