import OpenApiClient.Proofs.GeneratedMethods
import OpenApiClient.Proofs.OperationErrors
import OpenApiClient.Proofs.ServiceGroups

/-! Where the plan of a document stops. The unit that stops puts its name in front of the place of the error: a
named schema, an operation, a group of operations or the security schemes. Nothing else stops a plan. -/

namespace OpenApiClient

open InScope

variable {error : GenerationError}

/-! Named schemas. -/

inductive NamedSchema.Emits (named : NamedSchema) : Emission → NamingScope → Prop
  | struct {body : Emission} {own : NamingScope} : named.schema.isStruct = true →
      Builds named.schema named.className (NamingScope.add named.className {}) body own → Emits named body own
  | other : named.schema.isStruct = false →
      Emits named (.ofSchema (some (named.className ++ "Item")) named.schema)
        (NamingScope.reserve [named.className] {})

theorem NamedSchema.Emits.isNamed {named : NamedSchema} {emission : Emission} {scope : NamingScope}
    (emits : named.Emits emission scope) : emission.IsNamed := by
  cases emits with
  | struct _ builds => exact builds.isNamed
  | other => exact ⟨_, rfl, by simp⟩

namespace Registry

variable {registry : Registry}

theorem emitNamed_stops {named : NamedSchema} (stops : (registry.emitNamed named).Stops error) :
    ∃ emission scope, named.Emits emission scope ∧ registry.EmissionStops emission scope error := by
  unfold emitNamed at stops
  split at stops
  · rename_i struct
    obtain ⟨body, own, builds, inner⟩ := buildClass_stops.mp (Traced.stops_bind_pure.mp stops)
    exact ⟨body, own, .struct struct builds, inner⟩
  · rename_i other
    exact ⟨_, _, .other (by simpa using other), stops⟩

/-- A model stops in its emission, or where its references lead nowhere. -/
theorem model_stops {named : NamedSchema} (stops : (registry.model named).Stops error) :
    ∃ own, error = own.within named.name ∧
      ((registry.emitNamed named).Stops own ∨
        Succeeds (registry.emitNamed named).result ∧ Stops (registry.modelImports named) own) := by
  unfold model at stops
  rcases Traced.stops_bind.mp stops with within | ⟨⟨⟨classes, type⟩, imports, cycle⟩, made, later⟩
  · obtain ⟨own, making, rfl⟩ := Traced.stops_within.mp within
    refine ⟨own, rfl, ?_⟩
    rcases Traced.stops_bind.mp making with emitting | ⟨emitted, done, gathering⟩
    · exact .inl emitting
    · exact .inr ⟨⟨emitted, done⟩, Traced.stops_bind_pure.mp gathering⟩
  · -- Where the references have been followed the text of an alias can be written.
    obtain ⟨_, -, gathering⟩ := Traced.bind_ok.mp (Traced.mapFailure_ok.mp made)
    obtain ⟨⟨_, _⟩, gathered, same⟩ := Traced.bind_ok.mp gathering
    simp only [Traced.pure_ok, Prod.mk.injEq] at same
    obtain ⟨-, rfl, rfl⟩ := same
    obtain ⟨text, written⟩ := aliasText_succeeds (Traced.lift_ok.mp gathered) type
    rcases Traced.stops_bind.mp later with writing | ⟨_, -, describing⟩
    · cases written.symm.trans writing
    · exact absurd (Traced.stops_bind_pure.mp describing) Traced.stops_liftMalformed

theorem addAll_never_stops {schemas : List (Value × Schema)} : ¬(registry.addAll schemas).Stops error := by
  induction schemas generalizing registry with
  | nil => exact Traced.stops_pure
  | cons schema rest ih =>
      obtain ⟨key, own⟩ := schema
      rw [addAll, Traced.stops_liftMalformed_bind]
      rintro ⟨name, -, later⟩
      exact ih (Traced.stops_write_bind.mp later)

theorem ofSchemas_never_stops {package : Option String} {schemas : List (Value × Schema)} :
    ¬(ofSchemas package schemas).Stops error := by
  rw [ofSchemas, Traced.stops_map]
  exact addAll_never_stops

end Registry

/-! Groups of operations. -/

theorem referencesOfAll_succeeds {operations : List Operation} {operation : Operation}
    (walked : Succeeds (Schema.referencesOfAll (operations.flatMap Operation.schemas)))
    (member : operation ∈ operations) : Succeeds (Schema.referencesOfAll operation.schemas) := by
  simp only [Schema.referencesOfAll, Schema.mentionsInAll_eq, succeeds_map, succeeds_mapM] at walked ⊢
  intro schema among
  refine walked schema ?_
  obtain ⟨content, within, same⟩ := List.mem_filterMap.mp among
  exact List.mem_filterMap.mpr ⟨content, List.mem_flatMap.mpr ⟨operation, member, within⟩, same⟩

namespace OperationContext

variable {context : OperationContext}

def imports (context : OperationContext) (group : ServiceGroup) : Except Failure (List NamedSchema) := do
  let names ← Schema.referencesOfAll (group.operations.flatMap Operation.schemas)
  context.registry.imports names none

theorem imports_stopsForReferences (context : OperationContext) (group : ServiceGroup) :
    StopsForReferences (context.imports group) :=
  (Schema.referencesOfAll_stopsForReferences _).bind fun names =>
    context.registry.imports_stopsForReferences names none

/-- A service stops where the references of its operations lead nowhere, or in one of the operations. -/
theorem service_stops {group : ServiceGroup} (stops : (context.service group).Stops error) :
    (∃ own, error = own.within group.moduleName ∧ Stops (context.imports group) own) ∨
      ∃ imports names before operation name later methods between own, context.imports group = .ok imports ∧
        operationNames group.operations = .ok names ∧
        group.operations.zip names = before ++ (operation, name) :: later ∧
        context.Compiled (serviceScope group imports) before methods between ∧
        (context.compile operation (some name)).Stops between own ∧ error = own.within operation.slot := by
  rcases Traced.stops_bind.mp stops with within | ⟨imports, gathered, naming⟩
  · obtain ⟨own, gathering, rfl⟩ := Traced.stops_within.mp within
    refine .inl ⟨own, rfl, ?_⟩
    rcases Traced.stops_bind.mp gathering with walking | ⟨names, walked, finding⟩
    · exact stops_bind.mpr (.inl walking)
    · exact stops_bind.mpr (.inr ⟨names, Traced.lift_ok.mp walked, finding⟩)
  · have found : context.imports group = .ok imports := by
      obtain ⟨names, walked, found⟩ := Traced.bind_ok.mp (Traced.mapFailure_ok.mp gathered)
      exact except_bind_ok.mpr ⟨names, Traced.lift_ok.mp walked, Traced.lift_ok.mp found⟩
    obtain ⟨names, named, compiling⟩ := Traced.stops_liftMalformed_bind.mp naming
    obtain ⟨before, operation, name, later, methods, between, own, split, prior, inner, same⟩ :=
      compileAll_stops (stops_inside.mp (Traced.stops_bind_pure.mp compiling))
    exact .inr ⟨imports, names, before, operation, name, later, methods, between, own, found, named, split, prior,
      inner, same⟩

end OperationContext

/-! Security schemes and servers. -/

/-- A scheme stops only where it describes an API key that cannot be sent, and the place is its name. -/
theorem SecurityScheme.configurator?_stops {scheme : SecurityScheme} (stops : scheme.configurator?.Stops error) :
    ∃ name problem, scheme.name = .string name ∧ error = ⟨.malformedSecurityScheme problem, some name⟩ := by
  unfold configurator? at stops
  obtain ⟨name, named, making⟩ := Traced.stops_liftMalformed_bind.mp stops
  refine ⟨name, ?_⟩
  simp only [Value.asPattern_ok.mp named, true_and]
  split at making
  · have own := Traced.stops_lift.mp (Traced.stops_bind_pure.mp making)
    exact absurd (stops_bind_pure.mp own) stops_liftMalformed
  · have own := Traced.stops_lift.mp (Traced.stops_bind_pure.mp making)
    rcases apiKeyConfigurator_cases scheme name with ⟨problem, refused⟩ | ⟨otherwise, same⟩
    · rw [refused] at own
      exact ⟨problem, (Failure.generation.inj (Except.error.inj own)).symm⟩
    · rw [same] at own
      exact absurd (stops_bind_pure.mp own) stops_liftMalformed
  · exact absurd (Traced.stops_write_bind.mp making) Traced.stops_pure

theorem configurators_stops {schemes : List SecurityScheme} (stops : (configurators schemes).Stops error) :
    ∃ scheme, Traced.GetsTo SecurityScheme.configurator? schemes scheme ∧ scheme.configurator?.Stops error := by
  induction schemes with
  | nil => exact absurd stops Traced.stops_pure
  | cons scheme rest ih =>
      rcases Traced.stops_bind.mp stops with first | ⟨found, done, others⟩
      · exact ⟨scheme, ⟨[], rest, rfl, by simp⟩, first⟩
      · obtain ⟨other, ⟨before, after, rfl, passed⟩, own⟩ := ih (Traced.stops_bind_pure.mp others)
        exact ⟨other, ⟨scheme :: before, after, rfl, List.forall_mem_cons.mpr ⟨⟨found, done⟩, passed⟩⟩, own⟩

theorem chooseServer_never_stops {servers : List Server} : ¬(chooseServer servers).Stops error := by
  have made (server : Server) : ¬(do
      let parameters ← server.placeholders.mapM fun entry => serverParameter entry.1 entry.2
      pure ⟨server.url, server.description, parameters⟩ : Traced ServerChoice).Stops error := by
    rw [Traced.stops_bind_pure]
    intro each
    obtain ⟨_, -, own⟩ := Traced.stops_mapM each
    exact Traced.stops_liftMalformed own
  cases servers with
  | nil => exact Traced.stops_pure
  | cons server others =>
      rw [chooseServer]
      split
      · exact fun stops => made server (Traced.stops_write_bind.mp stops)
      · exact made server

/-! The plan. -/

namespace ApiDocument

inductive HasUnit (document : ApiDocument) : String → Prop
  | schema {name : String} {schema : Schema} : (.string name, schema) ∈ document.schemas → HasUnit document name
  | operation {operation : Operation} {path : String} : operation ∈ document.operations →
      operation.path = .string path → HasUnit document (operation.method ++ " " ++ path)
  | group {groups : List ServiceGroup} {group : ServiceGroup} : groupOperations document.operations = .ok groups →
      group ∈ groups → HasUnit document group.moduleName
  | securitySchemes : HasUnit document "securitySchemes"

end ApiDocument

/-- What a unit does when it stops: it emits something, it follows the references in it, or it reads a security
scheme. -/
inductive Activity
  | emission (place : Option PropertyPlace)
  | references
  | scheme (name : String)

namespace Activity

def place? : Activity → Option String
  | .emission place => place.map PropertyPlace.text
  | .references => none
  | .scheme name => some name

def within (unit : String) : Activity → String
  | .emission (some place) => unit ++ " > " ++ (place.owner ++ "." ++ place.property)
  | .scheme name => if name = "" then unit else unit ++ " > " ++ name
  | .emission none | .references => unit

theorem within_eq (activity : Activity) (unit : String) (problem : Problem) :
    (GenerationError.mk problem activity.place?).within unit = ⟨problem, some (activity.within unit)⟩ := by
  have filled (text : String) (nonempty : text ≠ "") :
      (GenerationError.mk problem (some text)).within unit = ⟨problem, some (unit ++ " > " ++ text)⟩ := by
    unfold GenerationError.within
    split
    · contradiction
    · rename_i same
      exact absurd (Option.some.inj same) nonempty
    · rename_i same
      rw [← Option.some.inj same]
  rcases activity with (_ | place) | _ | name
  · rfl
  · exact filled _ (by simp [PropertyPlace.text])
  · rfl
  · by_cases empty : name = ""
    · subst empty
      rfl
    · rw [within, if_neg empty]
      exact filled name empty

end Activity

namespace ApiDocument

variable {document : ApiDocument} {package : String} {problem : Problem}

/-- The plan of the document stops with the problem in this unit, while it does this. What comes before it in the
plan has succeeded: first the models are made, then the services, and then the configurators. -/
inductive StopsIn (document : ApiDocument) (package : String) (problem : Problem) : String → Activity → Prop
  | model {registry : Registry} {named : NamedSchema} {emission : Emission} {scope : NamingScope}
      {place : Option PropertyPlace} :
      (Registry.ofSchemas (some package) document.schemas).result = .ok registry →
      Traced.GetsTo registry.model registry.entries named → named.Emits emission scope →
      registry.Arises problem emission scope place →
      StopsIn document package problem named.name (.emission place)
  | modelReferences {registry : Registry} {named : NamedSchema} :
      (Registry.ofSchemas (some package) document.schemas).result = .ok registry →
      Traced.GetsTo registry.model registry.entries named → Succeeds (registry.emitNamed named).result →
      Stops (registry.modelImports named) ⟨problem, none⟩ →
      StopsIn document package problem named.name .references
  | groupReferences {registry : Registry} {groups : List ServiceGroup} {group : ServiceGroup} :
      (Registry.ofSchemas (some package) document.schemas).result = .ok registry →
      Succeeds (registry.entries.mapM registry.model).result →
      groupOperations document.operations = .ok groups →
      Traced.GetsTo (OperationContext.service ⟨registry, !document.security.isEmpty⟩) groups group →
      Stops (OperationContext.imports ⟨registry, !document.security.isEmpty⟩ group) ⟨problem, none⟩ →
      StopsIn document package problem group.moduleName .references
  | operation {registry : Registry} {groups : List ServiceGroup} {group : ServiceGroup} {imports : List NamedSchema}
      {names : List Value} {before later : List (Operation × Value)} {operation : Operation} {name : Value}
      {methods : List OperationMethod} {operationId handler : String} {emission : Emission}
      {between after scope : NamingScope} {place : Option PropertyPlace} :
      (Registry.ofSchemas (some package) document.schemas).result = .ok registry →
      Succeeds (registry.entries.mapM registry.model).result →
      groupOperations document.operations = .ok groups →
      Traced.GetsTo (OperationContext.service ⟨registry, !document.security.isEmpty⟩) groups group →
      OperationContext.imports ⟨registry, !document.security.isEmpty⟩ group = .ok imports →
      operationNames group.operations = .ok names →
      group.operations.zip names = before ++ (operation, name) :: later →
      OperationContext.Compiled ⟨registry, !document.security.isEmpty⟩ (OperationContext.serviceScope group imports)
        before methods between →
      operation.nameUnder (some name) = .ok (.string operationId) →
      Yields (claimName (Naming.toIdentifierCamel operationId ++ "ResponseHandler")) between handler after →
      OperationContext.Emits ⟨registry, !document.security.isEmpty⟩ operation operationId after emission scope →
      registry.Arises problem emission scope place →
      StopsIn document package problem operation.slot (.emission place)
  | scheme {registry : Registry} {groups : List ServiceGroup} {scheme : SecurityScheme} {name : String} :
      (Registry.ofSchemas (some package) document.schemas).result = .ok registry →
      Succeeds (registry.entries.mapM registry.model).result →
      groupOperations document.operations = .ok groups →
      Succeeds (groups.mapM (OperationContext.service ⟨registry, !document.security.isEmpty⟩)).result →
      Traced.GetsTo SecurityScheme.configurator? (document.securitySchemes.map Prod.snd) scheme →
      scheme.name = .string name → scheme.configurator?.Stops ⟨problem, some name⟩ →
      StopsIn document package problem "securitySchemes" (.scheme name)

theorem StopsIn.hasUnit {unit : String} {activity : Activity}
    (stops : document.StopsIn package problem unit activity) : document.HasUnit unit := by
  have entered {registry : Registry} {named : NamedSchema}
      (made : (Registry.ofSchemas (some package) document.schemas).result = .ok registry)
      (member : named ∈ registry.entries) : document.HasUnit named.name := by
    obtain ⟨schema, among, rfl⟩ := forall₂_of_mem_right (Registry.ofSchemas_ok made) member
    exact .schema among
  cases stops with
  | model made gets => exact entered made gets.mem
  | modelReferences made gets => exact entered made gets.mem
  | groupReferences _ _ grouped gets => exact .group grouped gets.mem
  | @operation _ _ _ _ names _ _ operation name _ _ _ _ _ _ _ _ _ _ grouped gets _ _ split =>
      have among : operation ∈ document.operations := by
        refine (((groupOperations_ok grouped).mem gets.mem).mp ?_).1
        exact (List.of_mem_zip (split ▸ List.mem_append_right _ List.mem_cons_self : (operation, name) ∈ _)).1
      obtain ⟨path, written⟩ := groupOperations_succeeds.mp ⟨_, grouped⟩ operation among
      rw [Operation.slot, written]
      exact .operation among written
  | scheme => exact .securitySchemes

/-- Below a named schema, an operation or a scheme no name is missing. -/
theorem StopsIn.named {unit : String} {activity : Activity} :
    ¬document.StopsIn package .missingTypeName unit activity := by
  have followed {α : Type} {outcome : Except Failure α} (own : StopsForReferences outcome) :
      ¬Stops outcome ⟨.missingTypeName, none⟩ := fun stops => by
    obtain ⟨reference, unknown | unsupported⟩ := (own _ stops).about
    · cases unknown
    · cases unsupported
  intro stops
  cases stops with
  | model _ _ emits arises => exact arises.unnamed emits.isNamed
  | modelReferences _ _ _ lost => exact followed (Registry.modelImports_stopsForReferences _ _) lost
  | groupReferences _ _ _ _ lost => exact followed (OperationContext.imports_stopsForReferences _ _) lost
  | operation _ _ _ _ _ _ _ _ _ _ emits arises => exact arises.unnamed emits.isNamed
  | scheme _ _ _ _ _ _ refused =>
      obtain ⟨_, _, -, same⟩ := SecurityScheme.configurator?_stops refused
      cases same

def Tells (document : ApiDocument) (package : String) (error : GenerationError) : Prop :=
  ∃ unit activity, document.StopsIn package error.problem unit activity ∧
    error.location = some (activity.within unit)

theorem StopsIn.tells {unit : String} {activity : Activity} {own : GenerationError}
    (stops : document.StopsIn package own.problem unit activity) (located : own.location = activity.place?) :
    document.Tells package (own.within unit) := by
  obtain ⟨problem, _⟩ := own
  obtain rfl := located
  rw [activity.within_eq]
  exact ⟨unit, activity, stops, rfl⟩

section

variable {registry : Registry} (made : (Registry.ofSchemas (some package) document.schemas).result = .ok registry)

include made

theorem model_tells {named : NamedSchema} (gets : Traced.GetsTo registry.model registry.entries named)
    (stops : (registry.model named).Stops error) : document.Tells package error := by
  obtain ⟨⟨problem, location⟩, rfl, emitting | ⟨emitted, lost⟩⟩ := Registry.model_stops stops
  · obtain ⟨emission, scope, emits, inner⟩ := Registry.emitNamed_stops emitting
    obtain ⟨place, arises, located⟩ := Registry.emissionStops_iff.mp inner
    exact StopsIn.tells (.model made gets emits arises) located
  · obtain rfl : location = none := (registry.modelImports_stopsForReferences named _ lost).unlocated
    exact StopsIn.tells (.modelReferences made gets emitted lost) rfl

theorem service_tells {groups : List ServiceGroup} {group : ServiceGroup}
    (modelled : Succeeds (registry.entries.mapM registry.model).result)
    (grouped : groupOperations document.operations = .ok groups)
    (gets : Traced.GetsTo (OperationContext.service ⟨registry, !document.security.isEmpty⟩) groups group)
    (stops : (OperationContext.service ⟨registry, !document.security.isEmpty⟩ group).Stops error) :
    document.Tells package error := by
  rcases OperationContext.service_stops stops with ⟨⟨problem, location⟩, rfl, lost⟩ |
    ⟨imports, names, before, operation, name, later, methods, between, own, found, named, split, prior, inner, rfl⟩
  · obtain rfl : location = none := (OperationContext.imports_stopsForReferences _ group _ lost).unlocated
    exact StopsIn.tells (.groupReferences made modelled grouped gets lost) rfl
  · -- What the operation refers to has been followed with its group.
    have walked : Succeeds (Schema.referencesOfAll operation.schemas) := by
      obtain ⟨referenced, walked, -⟩ := except_bind_ok.mp found
      refine referencesOfAll_succeeds ⟨referenced, walked⟩ ?_
      exact (List.of_mem_zip (split ▸ List.mem_append_right _ List.mem_cons_self : (operation, name) ∈ _)).1
    obtain ⟨operationId, handler, after, emission, scope, given, claimed, emits, inside⟩ :=
      OperationContext.compile_stops walked inner
    obtain ⟨place, arises, located⟩ := Registry.emissionStops_iff.mp inside
    exact StopsIn.tells
      (.operation made modelled grouped gets found named split prior given claimed emits arises) located

theorem schemes_tell {groups : List ServiceGroup}
    (modelled : Succeeds (registry.entries.mapM registry.model).result)
    (grouped : groupOperations document.operations = .ok groups)
    (served : Succeeds (groups.mapM (OperationContext.service ⟨registry, !document.security.isEmpty⟩)).result)
    (stops : (Traced.mapFailure (Failure.within "securitySchemes")
      (configurators (document.securitySchemes.map Prod.snd))).Stops error) : document.Tells package error := by
  obtain ⟨own, inner, rfl⟩ := Traced.stops_within.mp stops
  obtain ⟨scheme, gets, refused⟩ := configurators_stops inner
  obtain ⟨name, problem, named, rfl⟩ := SecurityScheme.configurator?_stops refused
  exact StopsIn.tells (.scheme made modelled grouped served gets named refused) rfl

end

theorem plan_tells (stops : (PackagePlan.ofDocument document package).Stops error) :
    document.Tells package error := by
  unfold PackagePlan.ofDocument at stops
  rcases Traced.stops_bind.mp stops with registering | ⟨registry, made, modelling⟩
  · exact absurd registering Registry.ofSchemas_never_stops
  rcases Traced.stops_bind.mp modelling with models | ⟨plans, modelled, grouping⟩
  · obtain ⟨named, gets, own⟩ := Traced.stops_mapM models
    exact model_tells made gets own
  obtain ⟨groups, grouped, serving⟩ := Traced.stops_liftMalformed_bind.mp grouping
  rcases Traced.stops_bind.mp serving with services | ⟨served, compiled, securing⟩
  · obtain ⟨group, gets, own⟩ := Traced.stops_mapM services
    exact service_tells made ⟨plans, modelled⟩ grouped gets own
  rcases Traced.stops_bind.mp securing with schemes | ⟨_, -, writing⟩
  · exact schemes_tell made ⟨plans, modelled⟩ grouped ⟨served, compiled⟩ schemes
  obtain ⟨_, -, choosing⟩ := Traced.stops_liftMalformed_bind.mp (Traced.stops_write_bind.mp writing)
  exact absurd (Traced.stops_bind_pure.mp choosing) chooseServer_never_stops

end ApiDocument

namespace PackagePlan

/-- No document lacks the name of a class: whatever is emitted as a schema has a name suggested to it. -/
theorem ofDocument_named (document : ApiDocument) (package : String) (location : Option String) :
    (ofDocument document package).result ≠ .error (.generation ⟨.missingTypeName, location⟩) := by
  intro stops
  obtain ⟨unit, activity, own, -⟩ := ApiDocument.plan_tells stops
  exact own.named

/-- A generation error is told in the unit of the document in which it arises. If it arises while a property of a
class is emitted, its place in the unit is that property of the innermost such class. -/
theorem ofDocument_error_told {document : ApiDocument} {package : String} {error : GenerationError}
    (failed : (ofDocument document package).result = .error (.generation error)) :
    ∃ unit activity, document.HasUnit unit ∧ document.StopsIn package error.problem unit activity ∧
      error.location = some (activity.within unit) := by
  obtain ⟨unit, activity, stops, located⟩ := ApiDocument.plan_tells failed
  exact ⟨unit, activity, stops.hasUnit, stops, located⟩

def lostProductDocument : ApiDocument where
  title := .string "Orders"
  version := "1"
  schemas := [(.string "Order", {
    keywords := { type := .string "object" }
    properties := some [(.string "line", {
      keywords := { type := .string "object" }
      properties := some [(.string "product", {
        keywords := { reference := .string "#/components/schemas/Product" }
      })]
    })]
  })]
  operations := []

theorem lostProductDocument_told : ∃ error unit activity,
    (ofDocument lostProductDocument "orders").result = .error (.generation error) ∧
      error.message = "[Order > Order.Line.product] Unknown schema reference '#/components/schemas/Product'" ∧
      lostProductDocument.HasUnit unit ∧ lostProductDocument.StopsIn "orders" error.problem unit activity ∧
      activity.within unit = "Order > Order.Line.product" := by
  obtain ⟨error, failed, located, told⟩ : ∃ error,
      (ofDocument lostProductDocument "orders").result = .error (.generation error) ∧
        error.location = some "Order > Order.Line.product" ∧
        error.message = "[Order > Order.Line.product] Unknown schema reference '#/components/schemas/Product'" :=
    ⟨_, rfl, rfl, rfl⟩
  obtain ⟨unit, activity, own, stops, same⟩ := ofDocument_error_told failed
  exact ⟨error, unit, activity, failed, told, own, stops, Option.some.inj (same.symm.trans located)⟩

end PackagePlan
end OpenApiClient
