import OpenApiClient.Proofs.ImportGraph
import OpenApiClient.Proofs.Operations

/-! The order of the schemas of a document. Schemas are looked up by their names alone, so that a plan has the
same modules for the same schemas in whatever order a document holds them. -/

namespace OpenApiClient

namespace Registry

structure Alike (left right : Registry) : Prop where
  found : ∀ name, left.find? name = right.find? name
  count : left.entries.length = right.entries.length

variable {left right : Registry}

theorem Alike.of_perm (perm : left.entries.Perm right.entries)
    (distinct : (left.entries.map NamedSchema.name).Nodup) : left.Alike right where
  found := find?_perm perm distinct
  count := perm.length_eq

theorem Alike.get (alike : left.Alike right) : left.get = right.get := by
  funext name
  rw [Registry.get, Registry.get, alike.found]

theorem Alike.resolveValue (alike : left.Alike right) (reference : Value) :
    left.resolveValue reference = right.resolveValue reference := by
  simp only [Registry.resolveValue, Registry.resolve, alike.found]

theorem Alike.typeOf (alike : left.Alike right) (suggested : Option String) (schema : Schema) :
    left.typeOf suggested schema = right.typeOf suggested schema := by
  -- A registry is asked for references alone; the rest of a type is made of the parts of the schema.
  fun_induction Registry.typeOf left suggested schema
  all_goals
    rw [Registry.typeOf.eq_def right]
    simp_all [alike.resolveValue]

theorem emitFields_congr {properties : List (Value × Schema)}
    (same : ∀ entry ∈ properties, ∀ suggested, left.emit suggested entry.2 = right.emit suggested entry.2)
    (owner : String) (required : List Value) (names : List String) :
    left.emitFields owner required names properties = right.emitFields owner required names properties := by
  induction properties generalizing names with
  | nil => cases names <;> rfl
  | cons entry rest ih =>
      obtain ⟨own, others⟩ := List.forall_mem_cons.mp same
      cases names with
      | nil => rfl
      | cons name names =>
          rw [Registry.emitFields, Registry.emitFields]
          simp only [own, ih others]

theorem Alike.emit (alike : left.Alike right) (schema : Schema) :
    ∀ suggested, left.emit suggested schema = right.emit suggested schema := by
  induction schema using Schema.emissionShape_induction with
  | leaf schema shape =>
      intro suggested
      rw [emit_eq, emit_eq, shape]
      simp only [alike.typeOf]
  | struct schema properties shape ih =>
      intro suggested
      rw [emit_eq, emit_eq, shape]
      simp only [emitFields_congr ih]
  | map schema part shape ih | array schema part shape ih | union schema part shape ih =>
      intro suggested
      rw [emit_eq, emit_eq, shape]
      simp only [ih]
  | incomplete schema shape =>
      intro suggested
      rw [emit_eq, emit_eq, shape]

theorem Alike.buildClass (alike : left.Alike right) : left.buildClass = right.buildClass := by
  funext schema name scope description
  simp only [Registry.buildClass, emitFields_congr fun entry _ => alike.emit entry.2]

theorem Alike.emitNamed (alike : left.Alike right) : left.emitNamed = right.emitNamed := by
  funext named
  simp only [Registry.emitNamed, alike.buildClass, alike.emit]

theorem Alike.imports (alike : left.Alike right) : left.imports = right.imports := by
  funext names except
  rw [Registry.imports, Registry.imports, alike.get]

theorem Alike.aliasTargets (alike : left.Alike right) : left.aliasTargets = right.aliasTargets := by
  funext name
  simp only [Registry.aliasTargets, alike.get]

theorem Alike.explore (alike : left.Alike right) (fuel : Nat) :
    ∀ pending seen, left.explore fuel pending seen = right.explore fuel pending seen := by
  induction fuel with
  | zero => exact fun _ _ => rfl
  | succ fuel ih =>
      intro pending seen
      cases pending with
      | nil => rfl
      | cons name pending => simp only [Registry.explore, alike.aliasTargets, ih]

theorem Alike.aliasCycle (alike : left.Alike right) : left.aliasCycle = right.aliasCycle := by
  have reachable : left.reachable = right.reachable := by
    funext name
    rw [Registry.reachable, Registry.reachable, alike.explore, alike.count]
  funext name
  simp only [Registry.aliasCycle, reachable]

theorem Alike.model (alike : left.Alike right) : left.model = right.model := by
  funext named
  simp only [Registry.model, Registry.modelImports, Registry.aliasText, alike.emitNamed, alike.imports,
    alike.aliasCycle, alike.get]

end Registry

namespace OperationContext

variable {left right : Registry} (alike : left.Alike right) (secured : Bool)

include alike

theorem parameters_congr : parameters ⟨left, secured⟩ = parameters ⟨right, secured⟩ := by
  funext operation start methodName
  simp only [parameters, alike.buildClass]

theorem contentType_congr : contentType ⟨left, secured⟩ = contentType ⟨right, secured⟩ := by
  funext schema name
  cases schema with
  | none => rfl
  | some schema => simp only [contentType, alike.emit]

theorem responses_congr (start operationId : String) (entries : List (String × Response)) :
    responses ⟨left, secured⟩ start operationId entries =
      responses ⟨right, secured⟩ start operationId entries := by
  induction entries with
  | nil => rfl
  | cons entry rest ih => simp only [responses, response, contentType_congr alike secured, ih]

theorem compile_congr : compile ⟨left, secured⟩ = compile ⟨right, secured⟩ := by
  funext operation given
  simp only [compile, body, parameters_congr alike secured, contentType_congr alike secured,
    responses_congr alike secured]

theorem compileAll_congr (pairs : List (Operation × Value)) :
    compileAll ⟨left, secured⟩ pairs = compileAll ⟨right, secured⟩ pairs := by
  induction pairs with
  | nil => rfl
  | cons pair rest ih => simp only [compileAll, compile_congr alike secured, ih]

theorem service_congr : service ⟨left, secured⟩ = service ⟨right, secured⟩ := by
  funext group
  simp only [service, alike.imports, compileAll_congr alike secured]

end OperationContext

structure ApiDocument.Reordered (document other : ApiDocument) : Prop where
  schemas : document.schemas.Perm other.schemas
  title : document.title = other.title
  version : document.version = other.version
  operations : document.operations = other.operations
  securitySchemes : document.securitySchemes = other.securitySchemes
  servers : document.servers = other.servers
  security : document.security = other.security

theorem ApiDocument.Reordered.symm {document other : ApiDocument} (reordered : document.Reordered other) :
    other.Reordered document where
  schemas := reordered.schemas.symm
  title := reordered.title.symm
  version := reordered.version.symm
  operations := reordered.operations.symm
  securitySchemes := reordered.securitySchemes.symm
  servers := reordered.servers.symm
  security := reordered.security.symm

namespace PackagePlan

variable {document other : ApiDocument} {package : String} {plan : PackagePlan}

def model? (plan : PackagePlan) (name : String) : Option ModelModule :=
  plan.models.find? fun model => model.schemaName == name

/-- The models of a plan are those of the schemas, in order, each under the name of its schema. -/
theorem ofDocument_names (planned : (ofDocument document package).result = .ok plan) :
    document.schemas.map Prod.fst = plan.models.map (fun model => Value.string model.schemaName) ∧
      (plan.models.map ModelModule.schemaName).Nodup := by
  obtain ⟨registry, _, _, made, modelled, -⟩ := ofDocument_ok planned
  have entered := Registry.ofSchemas_ok made
  have schemas : document.schemas.map Prod.fst = registry.entries.map fun named => .string named.name :=
    map_eq_of_forall₂ (entered.imp fun _ _ enters => congrArg Prod.fst enters)
  have names : registry.entries.map NamedSchema.name = plan.models.map ModelModule.schemaName := by
    refine map_eq_of_forall₂ (modelled.imp fun named model done => ?_)
    obtain ⟨_, _, -, -, -, same, -⟩ := Registry.model_ok done
    exact same.symm
  have nodup := Registry.names_nodup document.distinctSchemas entered
  rw [names] at nodup
  refine ⟨?_, nodup⟩
  calc
    document.schemas.map Prod.fst = (registry.entries.map NamedSchema.name).map Value.string := by
      rw [schemas, List.map_map]
      rfl
    _ = plan.models.map fun model => .string model.schemaName := by
      rw [names, List.map_map]
      rfl

/-- A plan for one order of the schemas is one for any other, with its models in that order. -/
theorem ofDocument_reordered (reordered : document.Reordered other)
    (planned : (ofDocument document package).result = .ok plan) :
    ∃ models, (ofDocument other package).result = .ok { plan with models } ∧ plan.models.Perm models := by
  obtain ⟨_, models, groups, services, security, titleLines, server, made, modelled, grouped, served, secured,
    titled, chosen, rfl⟩ := ofDocument_ok_iff.mp planned
  have distinct := Registry.names_nodup document.distinctSchemas (Registry.ofSchemas_ok made)
  obtain ⟨entries, entered, rfl⟩ := Registry.ofSchemas_ok_iff.mp made
  obtain ⟨otherEntries, otherEntered, perm⟩ := mapM_perm reordered.schemas entered
  have alike : Registry.Alike ⟨some package, entries, true⟩ ⟨some package, otherEntries, true⟩ :=
    .of_perm perm distinct
  rw [Traced.result_mapM, alike.model] at modelled
  obtain ⟨otherModels, otherModelled, same⟩ := mapM_perm perm modelled
  rw [← Traced.result_mapM] at otherModelled
  rw [OperationContext.service_congr alike] at served
  refine ⟨otherModels, ofDocument_ok_iff.mpr ⟨_, otherModels, groups, services, security, titleLines, server,
    Registry.ofSchemas_ok_iff.mpr ⟨otherEntries, otherEntered, rfl⟩, otherModelled, ?_, ?_, ?_, ?_, ?_, ?_⟩, same⟩
  · rw [← reordered.operations, grouped]
  · rw [← reordered.security, served]
  · rw [← reordered.securitySchemes, secured]
  · rw [← reordered.title, titled]
  · rw [← reordered.servers, chosen]
  · rw [reordered.title, reordered.version]

/-- Of two documents that differ in the order of their schemas both have a plan or neither has, and the plans
have the same module for every schema and agree in all else. -/
theorem reordered_plans_agree (reordered : document.Reordered other) (package : String) :
    (Succeeds (ofDocument document package).result ↔ Succeeds (ofDocument other package).result) ∧
      ∀ plan otherPlan, (ofDocument document package).result = .ok plan →
        (ofDocument other package).result = .ok otherPlan →
          (∀ schema ∈ document.schemas, ∃ name model, schema.1 = .string name ∧
            plan.model? name = some model ∧ otherPlan.model? name = some model) ∧
          plan.models.Perm otherPlan.models ∧ otherPlan = { plan with models := otherPlan.models } := by
  constructor
  · constructor
    · rintro ⟨plan, planned⟩
      obtain ⟨models, otherPlanned, -⟩ := ofDocument_reordered reordered planned
      exact ⟨_, otherPlanned⟩
    · rintro ⟨plan, planned⟩
      obtain ⟨models, otherPlanned, -⟩ := ofDocument_reordered reordered.symm planned
      exact ⟨_, otherPlanned⟩
  · intro plan otherPlan planned otherPlanned
    obtain ⟨models, again, perm⟩ := ofDocument_reordered reordered planned
    obtain rfl := Except.ok.inj (otherPlanned.symm.trans again)
    refine ⟨fun schema member => ?_, perm, rfl⟩
    obtain ⟨names, nodup⟩ := ofDocument_names planned
    have named := List.mem_map_of_mem (f := Prod.fst) member
    rw [names] at named
    obtain ⟨model, among, same⟩ := List.mem_map.mp named
    have found : plan.model? model.schemaName = some model := find?_of_key nodup among (by simp)
    refine ⟨model.schemaName, model, same.symm, found, ?_⟩
    rw [← found]
    exact (find?_perm perm nodup model.schemaName).symm

end PackagePlan

/-- A tree holds its branches, which are trees. The left and the right are lists of each other. -/
def groveSchemas : List (Value × Schema) := [
  (.string "Tree", {
    keywords := { type := .string "object" }
    properties := some [(.string "branches", {
      keywords := { reference := .string (schemaReferenceStart ++ "Branches") } })] }),
  (.string "Branches", listOf "Tree"), (.string "Left", listOf "Right"), (.string "Right", listOf "Left")]

def groveDocument (schemas : List (Value × Schema)) (distinct : Entries.Distinct Value.same schemas) :
    ApiDocument where
  title := .string "Groves"
  version := "1"
  schemas
  operations := [{
    method := "GET"
    path := .string "/trees"
    responses := [("200", { content := [(.string "application/json", some (listOf "Left"))] })] }]
  distinctSchemas := distinct

theorem grove_plans_agree :
    ∃ distinct otherDistinct plan otherPlan,
      (PackagePlan.ofDocument (groveDocument groveSchemas distinct) "groves").result = .ok plan ∧
      (PackagePlan.ofDocument (groveDocument groveSchemas.reverse otherDistinct) "groves").result =
        .ok otherPlan ∧
      plan.services.map (fun service => service.imports.map NamedSchema.name) = [["Left"]] ∧
      otherPlan.services = plan.services ∧
      ∀ schema ∈ groveSchemas, ∃ name model, schema.1 = .string name ∧ plan.model? name = some model ∧
        otherPlan.model? name = some model := by
  have distinct : Entries.Distinct Value.same groveSchemas := by decide +kernel
  have otherDistinct : Entries.Distinct Value.same groveSchemas.reverse := by decide +kernel
  obtain ⟨plan, planned, imports⟩ : ∃ plan,
      (PackagePlan.ofDocument (groveDocument groveSchemas distinct) "groves").result = .ok plan ∧
      plan.services.map (fun service => service.imports.map NamedSchema.name) = [["Left"]] := ⟨_, rfl, rfl⟩
  have reordered : (groveDocument groveSchemas distinct).Reordered
      (groveDocument groveSchemas.reverse otherDistinct) :=
    ⟨(List.reverse_perm _).symm, rfl, rfl, rfl, rfl, rfl, rfl⟩
  obtain ⟨both, agree⟩ := PackagePlan.reordered_plans_agree reordered "groves"
  obtain ⟨otherPlan, otherPlanned⟩ := both.mp ⟨plan, planned⟩
  obtain ⟨models, -, same⟩ := agree plan otherPlan planned otherPlanned
  exact ⟨distinct, otherDistinct, plan, otherPlan, planned, otherPlanned, imports, by rw [same], models⟩

end OpenApiClient
