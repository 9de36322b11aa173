import OpenApiClient.Proofs.Rendering
import OpenApiClient.Proofs.ServiceGroups
import OpenApiClient.Proofs.SnakeNames

/-! The modules of services. Each service of a plan has a module of its own, and together the services have the
operations of the document, none twice. -/

namespace OpenApiClient

open InScope

theorem separateModules_operations (services : List ServiceModule) :
    (separateModules services).map ServiceModule.operations = services.map ServiceModule.operations := by
  have count : services.length = (Naming.unique (services.map ServiceModule.moduleName)).length := by
    rw [Naming.unique_length, List.length_map]
  rw [separateModules, List.map_map]
  have firsts := congrArg (List.map ServiceModule.operations) (List.map_fst_zip count.le)
  rwa [List.map_map] at firsts

namespace OperationContext

variable {context : OperationContext} {scope after : NamingScope}

def Compiles (context : OperationContext) (method : OperationMethod) : Prop :=
  ∃ name scope after, Yields (context.compile method.operation (some name)) scope method after

theorem Compiled.compiles {pairs : List (Operation × Value)} {methods : List OperationMethod}
    (compiled : context.Compiled scope pairs methods after) : ∀ method ∈ methods, context.Compiles method := by
  induction compiled with
  | nil => simp
  | cons yields _ ih =>
      obtain ⟨-, -, -, -, -, -, -, operation, -⟩ := compile_yields yields
      exact List.forall_mem_cons.mpr ⟨⟨_, _, _, operation ▸ yields⟩, ih⟩

end OperationContext

namespace PackagePlan

def serviceModule (plan : PackagePlan) (service : ServiceModule) : String :=
  plan.package ++ "." ++ service.moduleName

structure RendersApart (plan : PackagePlan) (modules : List (String × String)) (service : ServiceModule) :
    Prop where
  text : ∃ text, Source.serviceText plan.package service = .ok text ∧
    Entries.find? (plan.serviceModule service) modules = some text
  notShared : plan.serviceModule service ∉
    [plan.package, plan.package ++ ".security", plan.package ++ ".servers", plan.package ++ ".model"]
  notModel : ∀ model ∈ plan.models, model.moduleName ≠ plan.serviceModule service

variable {document : ApiDocument} {package : String} {plan : PackagePlan}

theorem services_snakeNames (planned : (ofDocument document package).result = .ok plan) :
    ∀ name ∈ plan.services.map ServiceModule.moduleName, Naming.IsSnakeName name := by
  obtain ⟨_, _, services, -, -, -, served, separate⟩ := ofDocument_ok planned
  rw [separate, separateModules_names]
  refine Naming.unique_isSnakeName fun name member => ?_
  obtain ⟨service, among, rfl⟩ := List.mem_map.mp member
  obtain ⟨group, -, done⟩ := forall₂_of_mem_right served among
  obtain ⟨_, _, _, -, -, -, -, -, moduleName⟩ := OperationContext.service_parts done
  rw [moduleName]
  exact Naming.serviceModule_isSnakeName group.pathRoot

theorem services_operations (planned : (ofDocument document package).result = .ok plan) :
    ((plan.services.flatMap ServiceModule.operations).map OperationMethod.operation).Perm document.operations := by
  obtain ⟨_, groups, services, -, -, grouped, served, separate⟩ := ofDocument_ok planned
  have collected : groups.map ServiceGroup.operations =
      services.map fun service => service.operations.map OperationMethod.operation := by
    refine map_eq_of_forall₂ (served.imp fun group service done => ?_)
    obtain ⟨_, -, operations, -⟩ := OperationContext.service_names done
    exact operations.symm
  have same : (plan.services.flatMap ServiceModule.operations).map OperationMethod.operation =
      groups.flatMap ServiceGroup.operations := by
    rw [separate, List.flatMap_def, separateModules_operations, List.map_flatten, List.map_map, List.flatMap_def,
      collected]
    rfl
  rw [same]
  exact (groupOperations_ok grouped).complete

theorem services_compile (planned : (ofDocument document package).result = .ok plan) :
    ∃ registry, (Registry.ofSchemas (some package) document.schemas).result = .ok registry ∧
      ∀ service ∈ plan.services, ∀ method ∈ service.operations,
        OperationContext.Compiles ⟨registry, !document.security.isEmpty⟩ method := by
  obtain ⟨registry, _, services, made, -, -, served, separate⟩ := ofDocument_ok planned
  refine ⟨registry, made, fun service member method among => ?_⟩
  rw [separate] at member
  obtain ⟨own, present, _, rfl⟩ := mem_separateModules member
  obtain ⟨group, -, done⟩ := forall₂_of_mem_right served present
  obtain ⟨_, _, -, -, compiled⟩ := OperationContext.service_ok done
  exact compiled.compiles method among

/-- The underscore in its name tells the module of a service from what is shared, and the number of dots tells it
from the modules of models. -/
theorem services_apart (planned : (ofDocument document package).result = .ok plan) {service : ServiceModule}
    (member : service ∈ plan.services) :
    plan.serviceModule service ∉
        [plan.package, plan.package ++ ".security", plan.package ++ ".servers", plan.package ++ ".model"] ∧
      ∀ model ∈ plan.models, model.moduleName ≠ plan.serviceModule service := by
  obtain ⟨registry, _, _, made, modelled, -⟩ := ofDocument_ok planned
  have joined := (services_joinedWords planned).2 service.moduleName (List.mem_map_of_mem member)
  obtain ⟨one, underscore⟩ := joined.ending
  have packaged := ofDocument_package planned
  constructor
  · intro shared
    have ending : "." ++ service.moduleName ∈ Naming.sharedEndings := by
      simpa [serviceModule, Naming.sharedEndings, String.append_assoc] using shared
    exact (Naming.sharedEndings_apart _ ending).2 underscore
  · intro model among same
    have named : model.moduleName ∈ plan.models.map ModelModule.moduleName := List.mem_map_of_mem among
    rw [models_moduleName made modelled] at named
    obtain ⟨name, -, ending⟩ := List.mem_map.mp named
    rw [same, serviceModule, packaged, String.append_assoc, String.append_right_inj] at ending
    exact (Naming.modelEnding_apart package name).2 (ending ▸ one)

theorem services_rendered (planned : (ofDocument document package).result = .ok plan)
    {modules : List (String × String)} (rendered : plan.modules = .ok modules) {service : ServiceModule}
    (member : service ∈ plan.services) : ∃ text, Source.serviceText plan.package service = .ok text ∧
      Entries.find? (plan.serviceModule service) modules = some text := by
  obtain ⟨_, models, services, -, ofServices, rfl⟩ := modules_parts rendered
  obtain ⟨⟨name, text⟩, among, same, written⟩ := forall₂_of_mem_left ofServices member
  obtain rfl : plan.serviceModule service = name := same
  have names : services.map Prod.fst =
      (plan.services.map ServiceModule.moduleName).map (plan.package ++ "." ++ ·) := by
    rw [List.map_map]
    exact (map_eq_of_forall₂ (ofServices.imp fun _ _ both => both.1)).symm
  have distinct : (services.map Prod.fst).Nodup := by
    rw [names]
    exact (services_joinedWords planned).1.map fun first second same => String.append_right_inj _ |>.mp same
  refine ⟨text, written, ?_⟩
  -- The services come last, so that nothing takes the place of one of them.
  have found : Entries.find? (plan.serviceModule service) services.reverse = some text := by
    refine Entries.find?_of_mem ?_ (List.mem_reverse.mpr among)
    rw [List.map_reverse]
    exact List.nodup_reverse.mpr distinct
  rw [Entries.find?_ofPairs, List.reverse_append, Entries.find?_append, found, Option.some_or]

/-- The services of a plan have modules of their own with legal names and share the operations of the document among
them, each compiled once. Rendering fails only where a description is no text, and loses no service. -/
theorem services_own_modules (planned : (ofDocument document package).result = .ok plan) :
    (plan.services.map ServiceModule.moduleName).Nodup ∧
    (∀ service ∈ plan.services, Naming.IsSnakeName service.moduleName ∧
      Settings.isAsciiIdentifier service.moduleName.toList = true ∧
      service.moduleName ∉ ["model", "security", "servers"]) ∧
    ((plan.services.flatMap ServiceModule.operations).map OperationMethod.operation).Perm document.operations ∧
    (∃ registry, (Registry.ofSchemas (some package) document.schemas).result = .ok registry ∧
      ∀ service ∈ plan.services, ∀ method ∈ service.operations,
        OperationContext.Compiles ⟨registry, !document.security.isEmpty⟩ method) ∧
    (Succeeds plan.modules ↔ plan.Worded) ∧
    ∀ modules, plan.modules = .ok modules → ∀ service ∈ plan.services, plan.RendersApart modules service := by
  obtain ⟨distinct, joined⟩ := services_joinedWords planned
  refine ⟨distinct, fun service member => ?_, services_operations planned, services_compile planned,
    modules_succeeds, fun modules rendered service member => ?_⟩
  · have named : service.moduleName ∈ plan.services.map ServiceModule.moduleName := List.mem_map_of_mem member
    have own := services_snakeNames planned _ named
    refine ⟨own, own.identifier, fun shared => ?_⟩
    have plain : ∀ name ∈ ["model", "security", "servers"], '_' ∉ name.toList := by decide
    exact plain _ shared (joined _ named).1
  · obtain ⟨notShared, notModel⟩ := services_apart planned member
    exact ⟨services_rendered planned rendered member, notShared, notModel⟩

def stockDocument : ApiDocument where
  title := .string "Stock"
  version := "1"
  schemas := []
  distinctSchemas := Entries.distinct_nil Value.same
  operations := ["/v1/items", "/v1-items", "/v1/items/\x7bid\x7d"].map fun path =>
    { method := "GET", path := .string path }

theorem stockDocument_modules :
    ∃ plan, (ofDocument stockDocument "stock").result = .ok plan ∧
      plan.services.map ServiceModule.moduleName = ["v1_items_service", "v1_items_service_2"] ∧
      ((plan.services.flatMap ServiceModule.operations).map OperationMethod.operation).Perm
        stockDocument.operations ∧
      ∃ modules, plan.modules = .ok modules ∧ ∀ service ∈ plan.services, plan.RendersApart modules service := by
  obtain ⟨plan, planned, names, modules, rendered⟩ : ∃ plan, (ofDocument stockDocument "stock").result = .ok plan ∧
      plan.services.map ServiceModule.moduleName = ["v1_items_service", "v1_items_service_2"] ∧
      Succeeds plan.modules := ⟨_, rfl, by decide +kernel, _, rfl⟩
  obtain ⟨-, -, operations, -, -, apart⟩ := services_own_modules planned
  exact ⟨plan, planned, names, operations, modules, rendered, apart modules rendered⟩

end PackagePlan
end OpenApiClient
