import OpenApiClient.Proofs.ModuleNames
import OpenApiClient.Source.Package

/-! Rendering a package. It fails only where a description is no text, and it renders every model exactly when
the modules of the models have different names. -/

namespace OpenApiClient

/-- A description that can be written: a text, or nothing. -/
def Value.IsWording (description : Value) : Prop :=
  description.truth = true → ∃ text, description = .string text

theorem Value.wrapped_succeeds {description : Value} (width : Nat) :
    Succeeds (description.wrapped width) ↔ description.IsWording := by
  unfold wrapped IsWording
  split
  · rename_i given
    simp only [given, forall_const]
    constructor
    · rintro ⟨lines, wrapped⟩
      obtain ⟨text, read, -⟩ := except_map_ok.mp wrapped
      exact ⟨text, asText_ok.mp read⟩
    · rintro ⟨text, rfl⟩
      exact ⟨_, rfl⟩
  · rename_i absent
    exact iff_of_true ⟨[], rfl⟩ fun given => absurd given absent

inductive ClassDeclaration.Worded : ClassDeclaration → Prop
  | intro {own : ClassDeclaration} : own.description.IsWording →
      (∀ field ∈ own.fields, field.description.IsWording) → (∀ inner ∈ own.inner, inner.Worded) → own.Worded

theorem ClassDeclaration.worded_iff {own : ClassDeclaration} :
    own.Worded ↔ own.description.IsWording ∧ (∀ inner ∈ own.inner, inner.Worded) ∧
      ∀ field ∈ own.fields, field.description.IsWording := by
  constructor
  · rintro ⟨description, fields, inner⟩
    exact ⟨description, inner, fields⟩
  · rintro ⟨description, inner, fields⟩
    exact ⟨description, fields, inner⟩

namespace Source

theorem classDocstring_succeeds {description : Value} :
    Succeeds (classDocstring description) ↔ description.IsWording := by
  unfold classDocstring
  split
  · rw [succeeds_bind_pure, Value.wrapped_succeeds]
  · rename_i absent
    exact iff_of_true (succeeds_pure _) fun given => absurd given absent

theorem commentLines_succeeds {width : Nat} {description : Value} :
    Succeeds (commentLines width description) ↔ description.IsWording := by
  rw [commentLines, succeeds_bind_pure, Value.wrapped_succeeds]

theorem fieldLines_succeeds {field : FieldDeclaration} :
    Succeeds (fieldLines field) ↔ field.description.IsWording := by
  rw [fieldLines, succeeds_bind_pure, commentLines_succeeds]

mutual

theorem classText_succeeds : ∀ own : ClassDeclaration, Succeeds (classText own) ↔ own.Worded
  | ⟨name, qualifiedName, description, fields, inner, openEnded⟩ => by
      have nested := nestedText_succeeds inner
      rw [classText, ClassDeclaration.worded_iff]
      dsimp only
      rw [← classDocstring_succeeds, ← nested]
      refine succeeds_bind fun documented => succeeds_bind fun nested => ?_
      rw [succeeds_bind_pure, succeeds_mapM]
      simp only [fieldLines_succeeds]

theorem nestedText_succeeds : ∀ inner : List ClassDeclaration,
    Succeeds (nestedText inner) ↔ ∀ own ∈ inner, own.Worded
  | [] => iff_of_true (succeeds_pure _) (by simp)
  | declared :: rest => by
      have first := classText_succeeds declared
      have others := nestedText_succeeds rest
      rw [nestedText, List.forall_mem_cons, ← first, ← others]
      exact succeeds_bind fun text => succeeds_bind_pure

end

theorem moduleClasses_succeeds {declarations : List ClassDeclaration} :
    Succeeds (moduleClasses declarations) ↔ ∀ own ∈ declarations, own.Worded := by
  rw [moduleClasses, succeeds_bind_pure, succeeds_mapM]
  simp only [classText_succeeds]

theorem modelText_succeeds {model : ModelModule} :
    Succeeds (modelText model) ↔ ∀ own ∈ model.classes, own.Worded := by
  rw [modelText, succeeds_bind_pure, moduleClasses_succeeds]

theorem handlerText_succeeds {service : ServiceModule} {method : OperationMethod} :
    Succeeds (handlerText service method) ↔
      ∀ response ∈ method.responses, response.description.IsWording := by
  rw [handlerText, succeeds_bind_pure, succeeds_mapM]
  simp only [callbackLines, succeeds_bind_pure, commentLines_succeeds]

end Source

structure OperationMethod.Worded (method : OperationMethod) : Prop where
  classes : ∀ own ∈ method.declarations, own.Worded
  responses : ∀ response ∈ method.responses, response.description.IsWording

theorem Source.serviceText_succeeds {package : String} {service : ServiceModule} :
    Succeeds (serviceText package service) ↔ ∀ method ∈ service.operations, method.Worded := by
  rw [serviceText, succeeds_bind_pure, succeeds_mapM]
  refine forall₂_congr fun method member => ?_
  rw [succeeds_bind fun classes => succeeds_bind_pure, moduleClasses_succeeds, handlerText_succeeds]
  exact ⟨fun both => ⟨both.1, both.2⟩, fun worded => ⟨worded.classes, worded.responses⟩⟩

namespace PackagePlan

structure Worded (plan : PackagePlan) : Prop where
  title : ∃ text, plan.title = .string text
  models : ∀ model ∈ plan.models, ∀ own ∈ model.classes, own.Worded
  services : ∀ service ∈ plan.services, ∀ method ∈ service.operations, method.Worded

theorem modules_succeeds {plan : PackagePlan} : Succeeds plan.modules ↔ plan.Worded := by
  have titled : Succeeds plan.title.asText ↔ ∃ text, plan.title = .string text := by
    simp only [Succeeds, Value.asText_ok]
  unfold modules
  rw [succeeds_bind fun title => succeeds_bind fun models => succeeds_bind_pure, titled, succeeds_mapM,
    succeeds_mapM]
  simp only [succeeds_bind_pure, Source.modelText_succeeds, Source.serviceText_succeeds]
  exact ⟨fun all => ⟨all.1, all.2.1, all.2.2⟩, fun worded => ⟨worded.title, worded.models, worded.services⟩⟩

def sharedModules (plan : PackagePlan) (title : String) : List (String × String) := [
  (plan.package, Source.packageText plan.package title plan.version),
  (plan.package ++ ".security", Source.securityText title plan.security),
  (plan.package ++ ".servers", Source.serversText title plan.server),
  (plan.package ++ ".model", Source.modelPackageText title plan.models)]

/-- The modules of a package are those that all packages have, those of the models and those of the services. -/
theorem modules_parts {plan : PackagePlan} {modules : List (String × String)}
    (rendered : plan.modules = .ok modules) :
    ∃ title models services,
      List.Forall₂ (fun model entry => model.moduleName = entry.1 ∧ Source.modelText model = .ok entry.2)
        plan.models models ∧
      List.Forall₂ (fun service (entry : String × String) =>
        plan.package ++ "." ++ service.moduleName = entry.1 ∧
          Source.serviceText plan.package service = .ok entry.2) plan.services services ∧
      modules = Entries.ofPairs (· == ·) (plan.sharedModules title ++ models ++ services) := by
  obtain ⟨title, -, rendered⟩ := except_bind_ok.mp rendered
  obtain ⟨models, modelled, rendered⟩ := except_bind_ok.mp rendered
  obtain ⟨services, served, same⟩ := except_bind_ok.mp rendered
  obtain rfl := except_pure_ok.mp same
  refine ⟨title, models, services, ?_, ?_, rfl⟩
  · refine ((mapM_ok_iff _ _ _).mp modelled).imp fun model entry made => ?_
    obtain ⟨text, written, same⟩ := except_bind_ok.mp made
    obtain rfl := except_pure_ok.mp same
    exact ⟨rfl, written⟩
  · refine ((mapM_ok_iff _ _ _).mp served).imp fun service entry made => ?_
    obtain ⟨text, written, same⟩ := except_bind_ok.mp made
    obtain rfl := except_pure_ok.mp same
    exact ⟨rfl, written⟩

theorem modules_ok {plan : PackagePlan} {modules : List (String × String)}
    (rendered : plan.modules = .ok modules) :
    ∃ title models services,
      List.Forall₂ (fun model entry => model.moduleName = entry.1 ∧ Source.modelText model = .ok entry.2)
        plan.models models ∧
      List.Forall₂ (fun service (entry : String × String) =>
        plan.package ++ "." ++ service.moduleName = entry.1) plan.services services ∧
      modules = Entries.ofPairs (· == ·) (plan.sharedModules title ++ models ++ services) := by
  obtain ⟨title, models, services, ofModels, ofServices, same⟩ := modules_parts rendered
  exact ⟨title, models, services, ofModels, ofServices.imp fun _ _ both => both.1, same⟩

def Renders (registry : Registry) (modules : List (String × String)) (schema : Value × Schema)
    (model : ModelModule) : Prop :=
  ∃ name text, schema.1 = .string name ∧ (registry.model (registry.entry name schema.2)).result = .ok model ∧
    Source.modelText model = .ok text ∧
    Entries.find? (registry.entry name schema.2).moduleName modules = some text

/-- No model is lost: the models have different modules, each is there with its text, and there is nothing
missing among the modules of the package. -/
structure RendersAll (registry : Registry) (document : ApiDocument) (plan : PackagePlan)
    (modules : List (String × String)) : Prop where
  distinct : (plan.models.map ModelModule.moduleName).Nodup
  rendered : List.Forall₂ (Renders registry modules) document.schemas plan.models
  count : modules.length = 4 + document.schemas.length + plan.services.length

section

variable {document : ApiDocument} {package : String} {plan : PackagePlan} {registry : Registry}

theorem services_joinedWords (planned : (ofDocument document package).result = .ok plan) :
    (plan.services.map ServiceModule.moduleName).Nodup ∧
      ∀ name ∈ plan.services.map ServiceModule.moduleName, Naming.JoinedWords name := by
  obtain ⟨_, groups, services, -, -, -, served, separate⟩ := ofDocument_ok planned
  rw [separate, separateModules_names]
  refine ⟨Naming.unique_nodup _, Naming.unique_joinedWords fun name member => ?_⟩
  obtain ⟨service, among, rfl⟩ := List.mem_map.mp member
  obtain ⟨group, -, done⟩ := forall₂_of_mem_right served among
  obtain ⟨_, _, _, -, -, -, -, -, moduleName⟩ := OperationContext.service_parts done
  rw [moduleName]
  exact Naming.serviceModule_joinedWords group.pathRoot

theorem models_moduleName (made : (Registry.ofSchemas (some package) document.schemas).result = .ok registry)
    (modelled : List.Forall₂ (fun named model => (registry.model named).result = .ok model) registry.entries
      plan.models) :
    plan.models.map ModelModule.moduleName =
      (registry.entries.map NamedSchema.name).map fun name => package ++ Naming.modelEnding package name := by
  rw [List.map_map]
  refine (map_eq_of_forall₂ (forall₂_imp_of_mem modelled fun named member model done => ?_)).symm
  obtain ⟨_, _, -, -, -, -, moduleName, -⟩ := Registry.model_ok done
  obtain ⟨-, named⟩ := Registry.ofSchemas_named made member
  rw [moduleName, named, Naming.modelModuleIn_eq]
  rfl

/-- The modules that are rendered have different names exactly when those of the models do. -/
theorem pairs_nodup_iff (planned : (ofDocument document package).result = .ok plan)
    (made : (Registry.ofSchemas (some package) document.schemas).result = .ok registry)
    (modelled : List.Forall₂ (fun named model => (registry.model named).result = .ok model) registry.entries
      plan.models)
    (title : String) {models services : List (String × String)}
    (ofModels : List.Forall₂ (fun model entry => model.moduleName = entry.1 ∧
      Source.modelText model = .ok entry.2) plan.models models)
    (ofServices : List.Forall₂ (fun service (entry : String × String) =>
      plan.package ++ "." ++ service.moduleName = entry.1) plan.services services) :
    ((plan.sharedModules title ++ models ++ services).map Prod.fst).Nodup ↔
      (registry.entries.map NamedSchema.name).Pairwise fun first second =>
        ¬Naming.ModulesCoincide first second := by
  have packaged := ofDocument_package planned
  have modelKeys := map_eq_of_forall₂ (ofModels.imp fun model entry both => both.1)
  have serviceKeys := map_eq_of_forall₂ ofServices
  have keys : (plan.sharedModules title ++ models ++ services).map Prod.fst =
      (Naming.sharedEndings ++ (registry.entries.map NamedSchema.name).map (Naming.modelEnding package) ++
        (plan.services.map ServiceModule.moduleName).map ("." ++ ·)).map (package ++ ·) := by
    rw [List.map_append, List.map_append, ← modelKeys, ← serviceKeys, models_moduleName made modelled, packaged]
    simp [sharedModules, packaged, Naming.sharedEndings, String.append_assoc, Function.comp_def]
  have injective : Function.Injective (package ++ ·) := fun first second same =>
    String.append_right_inj _ |>.mp same
  obtain ⟨distinct, joined⟩ := services_joinedWords planned
  rw [keys, List.nodup_map_iff injective, Naming.endings_nodup_iff joined distinct]

end

/-- Rendering a planned package loses no model exactly when every description in it can be written and no two
schema names have the same words. -/
theorem rendersAll_iff {document : ApiDocument} {package : String} {plan : PackagePlan}
    (planned : (ofDocument document package).result = .ok plan) :
    ∃ (registry : Registry) (names : List String),
      (Registry.ofSchemas (some package) document.schemas).result = .ok registry ∧
      document.schemas.map Prod.fst = names.map Value.string ∧
      ((∃ modules, plan.modules = .ok modules ∧ RendersAll registry document plan modules) ↔
        plan.Worded ∧ names.Pairwise fun first second => ¬Naming.ModulesCoincide first second) := by
  obtain ⟨registry, _, _, made, modelled, -⟩ := ofDocument_ok planned
  have schemas : document.schemas = registry.entries.map fun named => (.string named.name, named.schema) := by
    rw [← List.forall₂_eq_eq_eq, List.forall₂_map_right_iff]
    exact Registry.ofSchemas_ok made
  refine ⟨registry, registry.entries.map NamedSchema.name, made, by simp [schemas], ?_⟩
  constructor
  · rintro ⟨modules, rendered, all⟩
    refine ⟨modules_succeeds.mp ⟨modules, rendered⟩, ?_⟩
    have distinct := all.distinct
    rw [models_moduleName made modelled, List.Nodup, List.pairwise_map] at distinct
    refine distinct.imp fun different coincide => different ?_
    rw [Naming.modelEnding_eq_iff.mpr coincide]
  · rintro ⟨worded, apart⟩
    obtain ⟨modules, rendered⟩ := modules_succeeds.mpr worded
    obtain ⟨title, models, services, ofModels, ofServices, same⟩ := modules_ok rendered
    -- With different names no module takes the place of an earlier one.
    have nodup := (pairs_nodup_iff planned made modelled title ofModels ofServices).mpr apart
    rw [Entries.ofPairs_of_distinct (Entries.distinct_of_nodup nodup)] at same
    subst same
    refine ⟨_, rendered, ?_, ?_, ?_⟩
    · rw [map_eq_of_forall₂ (ofModels.imp fun model entry both => both.1)]
      refine nodup.sublist (List.Sublist.map Prod.fst ?_)
      exact (List.sublist_append_right _ models).trans (List.sublist_append_left _ services)
    · rw [schemas, List.forall₂_map_left_iff]
      have entries := forall₂_imp_of_mem modelled fun named member model done => And.intro member done
      refine (forall₂_imp_of_mem entries.flip fun model member named both => ?_).flip
      have entry := Registry.ofSchemas_entry made named both.1
      obtain ⟨⟨key, text⟩, among, same, written⟩ := forall₂_of_mem_left ofModels member
      obtain ⟨_, _, -, -, -, -, moduleName, -⟩ := Registry.model_ok both.2
      refine ⟨named.name, text, rfl, ?_, written, Entries.find?_of_mem nodup ?_⟩
      · rw [entry]
        exact both.2
      · rw [entry, ← moduleName, same]
        exact List.mem_append_left _ (List.mem_append_right _ among)
    · have counts : document.schemas.length = models.length := by
        rw [schemas, List.length_map, modelled.length_eq, ofModels.length_eq]
      rw [List.length_append, List.length_append, counts, ofServices.length_eq]
      rfl

def peopleSchemas (second : String) : List (Value × Schema) := [
  (.string "UserName", {
    keywords := { type := .string "object", description := .string "Who it is." }
    properties := some [(.string "first", { keywords := { type := .string "string" } })] }),
  (.string second, { keywords := { type := .string "integer" } })]

def peopleDocument (second : String) (distinct : Entries.Distinct Value.same (peopleSchemas second)) :
    ApiDocument where
  title := .string "People"
  version := "1"
  schemas := peopleSchemas second
  operations := []
  distinctSchemas := distinct

theorem peopleDocument_rendersAll :
    ∃ distinct registry plan modules,
      (ofDocument (peopleDocument "UserAge" distinct) "people").result = .ok plan ∧
        plan.modules = .ok modules ∧ RendersAll registry (peopleDocument "UserAge" distinct) plan modules := by
  have distinct : Entries.Distinct Value.same (peopleSchemas "UserAge") := by decide +kernel
  obtain ⟨plan, planned, worded⟩ : ∃ plan,
      (ofDocument (peopleDocument "UserAge" distinct) "people").result = .ok plan ∧ plan.Worded :=
    ⟨_, rfl, modules_succeeds.mp ⟨_, rfl⟩⟩
  obtain ⟨registry, names, -, named, renders⟩ := rendersAll_iff planned
  have same : names = ["UserName", "UserAge"] := by
    refine List.map_injective_iff.mpr (fun _ _ => Value.string.inj) ?_
    exact named.symm
  obtain ⟨modules, rendered, all⟩ := renders.mpr ⟨worded, by rw [same]; decide +kernel⟩
  exact ⟨distinct, registry, plan, modules, planned, rendered, all⟩

theorem peopleDocument_modelLost :
    ∃ distinct plan modules, (ofDocument (peopleDocument "user_name" distinct) "people").result = .ok plan ∧
      plan.modules = .ok modules ∧ modules.length = 5 ∧
      ∀ registry, ¬RendersAll registry (peopleDocument "user_name" distinct) plan modules := by
  have distinct : Entries.Distinct Value.same (peopleSchemas "user_name") := by decide +kernel
  obtain ⟨plan, modules, planned, rendered, five⟩ : ∃ plan modules,
      (ofDocument (peopleDocument "user_name" distinct) "people").result = .ok plan ∧
        plan.modules = .ok modules ∧ modules.length = 5 := ⟨_, _, rfl, rfl, rfl⟩
  refine ⟨distinct, plan, modules, planned, rendered, five, fun registry all => ?_⟩
  have count := all.count
  rw [five] at count
  simp only [peopleDocument, peopleSchemas, List.length_cons, List.length_nil] at count
  omega

end PackagePlan
end OpenApiClient
