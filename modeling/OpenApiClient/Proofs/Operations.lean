import OpenApiClient.Proofs.Plan
import OpenApiClient.Proofs.Naming

/-! The parts of a service: what its methods were compiled from, and in which scopes. -/

namespace OpenApiClient

open InScope

theorem mem_separateModules {services : List ServiceModule} {service : ServiceModule}
    (member : service ∈ separateModules services) :
    ∃ own ∈ services, ∃ name, service = { own with moduleName := name } := by
  obtain ⟨⟨own, name⟩, paired, rfl⟩ := List.mem_map.mp member
  exact ⟨own, (List.of_mem_zip paired).1, name, rfl⟩

theorem separateModules_mem {services : List ServiceModule} {service : ServiceModule}
    (member : service ∈ services) : ∃ name, { service with moduleName := name } ∈ separateModules services := by
  have count : services.length = (Naming.unique (services.map ServiceModule.moduleName)).length := by
    rw [Naming.unique_length, List.length_map]
  rw [← List.map_fst_zip count.le] at member
  obtain ⟨⟨own, name⟩, paired, rfl⟩ := List.mem_map.mp member
  exact ⟨name, List.mem_map_of_mem paired⟩

theorem separateModules_names (services : List ServiceModule) :
    (separateModules services).map ServiceModule.moduleName =
      Naming.unique (services.map ServiceModule.moduleName) := by
  have count : (Naming.unique (services.map ServiceModule.moduleName)).length = services.length := by
    rw [Naming.unique_length, List.length_map]
  rw [separateModules, List.map_map]
  exact List.map_snd_zip count.le

namespace OperationContext

variable {context : OperationContext} {scope after : NamingScope}

/-- The parts of a compiled operation, each with the scope it was compiled in. -/
theorem compile_yields {operation : Operation} {given : Option Value} {method : OperationMethod}
    (yields : Yields (context.compile operation given) scope method after) :
    ∃ forParameters forBody forResponses afterHandler afterParameters afterBody,
      operation.nameUnder given = .ok (.string method.operationId) ∧
      method.operation = operation ∧ method.methodName = Naming.methodName method.operationId ∧
      Yields (claimName (Naming.toIdentifierCamel method.operationId ++ "ResponseHandler")) scope
        method.handlerClass afterHandler ∧
      Yields (context.parameters operation (Naming.toIdentifierCamel method.operationId) method.methodName)
        afterHandler (forParameters, method.parametersClass, method.parametersRequired, method.parameters)
        afterParameters ∧
      Yields (context.body operation (Naming.toIdentifierCamel method.operationId) method.operationId)
        afterParameters (forBody, method.body) afterBody ∧
      Yields (context.responses (Naming.toIdentifierCamel method.operationId) method.operationId
        operation.responses) afterBody (forResponses, method.responses) after ∧
      method.declarations = forParameters ++ forBody ++ forResponses ∧
      method.serverUrl = (operation.servers.head?.map Server.url).getD .null := by
  unfold compile at yields
  obtain ⟨name, _, naming, yields⟩ := yields_bind.mp yields
  obtain ⟨operationId, _, reading, yields⟩ := yields_bind.mp yields
  obtain ⟨handlerClass, afterHandler, claimed, yields⟩ := yields_bind.mp yields
  obtain ⟨references, _, walked, yields⟩ := yields_bind.mp yields
  obtain ⟨docLines, _, lines, yields⟩ := yields_bind.mp yields
  obtain ⟨⟨forParameters, parametersClass, parametersRequired, parameters⟩, afterParameters, grouped,
    yields⟩ := yields_bind.mp yields
  obtain ⟨⟨forBody, body⟩, afterBody, shaped, yields⟩ := yields_bind.mp yields
  obtain ⟨⟨forResponses, responses⟩, _, answered, finished⟩ := yields_bind.mp yields
  obtain ⟨same, rfl⟩ := yields_pure.mp finished
  obtain ⟨named, rfl⟩ := yields_liftMalformed.mp naming
  obtain ⟨read, rfl⟩ := yields_liftMalformed.mp reading
  obtain ⟨-, rfl⟩ := yields_lift.mp walked
  obtain ⟨-, rfl⟩ := yields_liftMalformed.mp lines
  obtain rfl := Value.asPattern_ok.mp read
  subst same
  refine ⟨forParameters, forBody, forResponses, afterHandler, afterParameters, afterBody, ?_⟩
  dsimp only
  exact ⟨named, rfl, rfl, claimed, grouped, shaped, answered, rfl, rfl⟩

inductive Compiled (context : OperationContext) :
    NamingScope → List (Operation × Value) → List OperationMethod → NamingScope → Prop
  | nil (start : NamingScope) : Compiled context start [] [] start
  | cons {start operation name method between rest methods last} :
      Yields (context.compile operation (some name)) start method between →
      Compiled context between rest methods last →
      Compiled context start ((operation, name) :: rest) (method :: methods) last

theorem compileAll_yields {pairs : List (Operation × Value)} {methods : List OperationMethod}
    (yields : Yields (context.compileAll pairs) scope methods after) :
    context.Compiled scope pairs methods after := by
  induction pairs generalizing scope methods with
  | nil =>
      obtain ⟨rfl, rfl⟩ := yields_pure.mp yields
      exact .nil scope
  | cons pair rest ih =>
      obtain ⟨operation, name⟩ := pair
      obtain ⟨method, between, compiled, yields⟩ := yields_bind.mp yields
      obtain ⟨others, _, following, finished⟩ := yields_bind.mp yields
      obtain ⟨rfl, rfl⟩ := yields_pure.mp finished
      exact .cons (yields_mapFailure.mp compiled) (ih following)

theorem Compiled.named {pairs : List (Operation × Value)} {methods : List OperationMethod}
    (compiled : context.Compiled scope pairs methods after) :
    List.Forall₂ (fun pair method =>
      pair.1.nameUnder (some pair.2) = .ok (.string method.operationId) ∧ method.operation = pair.1 ∧
        method.methodName = Naming.methodName method.operationId) pairs methods := by
  induction compiled with
  | nil => exact .nil
  | cons yields _ ih =>
      obtain ⟨-, -, -, -, -, -, named, operation, methodName, -⟩ := compile_yields yields
      exact .cons ⟨named, operation, methodName⟩ ih

/-- The parts of a service: it imports what the schemas of its operations refer to, and the operations are
compiled under their unique names in a scope of the service. -/
theorem service_parts {group : ServiceGroup} {service : ServiceModule}
    (served : (context.service group).result = .ok service) :
    ∃ referenced names after,
      Schema.referencesOfAll (group.operations.flatMap Operation.schemas) = .ok referenced ∧
      context.registry.imports referenced none = .ok service.imports ∧
      operationNames group.operations = .ok names ∧
      context.Compiled (serviceScope group service.imports) (group.operations.zip names) service.operations
        after ∧
      service.className = group.className ∧ service.moduleName = group.moduleName := by
  obtain ⟨imports, gathered, served⟩ := Traced.bind_ok.mp served
  obtain ⟨names, named, served⟩ := Traced.bind_ok.mp served
  obtain ⟨operations, ran, same⟩ := Traced.bind_ok.mp served
  obtain rfl := Traced.pure_ok.mp same
  obtain ⟨referenced, walked, found⟩ := Traced.bind_ok.mp (Traced.mapFailure_ok.mp gathered)
  obtain ⟨after, yields⟩ := inside_ok.mp ran
  refine ⟨referenced, names, after, Traced.lift_ok.mp walked, ?_⟩
  dsimp only
  exact ⟨Traced.lift_ok.mp found, Traced.liftMalformed_ok.mp named, compileAll_yields yields, rfl, rfl⟩

theorem service_ok {group : ServiceGroup} {service : ServiceModule}
    (served : (context.service group).result = .ok service) :
    ∃ names after, service.className = group.className ∧ operationNames group.operations = .ok names ∧
      context.Compiled (serviceScope group service.imports) (group.operations.zip names) service.operations
        after := by
  obtain ⟨_, names, after, -, -, named, compiled, className, -⟩ := service_parts served
  exact ⟨names, after, className, named, compiled⟩

end OperationContext

theorem leadingTexts_split (values : List Value) :
    ∃ rest, values = (leadingTexts values).map .string ++ rest ∧
      values.drop (leadingTexts values).length = rest ∧ ∀ text others, rest ≠ .string text :: others := by
  induction values with
  | nil => exact ⟨[], rfl, rfl, by simp⟩
  | cons value values ih =>
      cases value with
      | string text =>
          obtain ⟨rest, split, dropped, stops⟩ := ih
          exact ⟨rest, by rw [leadingTexts, List.map_cons, List.cons_append, ← split], dropped, stops⟩
      | _ => exact ⟨_, rfl, rfl, by simp⟩

theorem operationNames_ok {operations : List Operation} {names : List Value}
    (found : operationNames operations = .ok names) :
    ∃ own, List.Forall₂ (fun operation name => operation.nameOrDerived = .ok name) operations own ∧
      names = (Naming.unique (leadingTexts own)).map .string ++ own.drop (leadingTexts own).length := by
  obtain ⟨own, derived, found⟩ := except_bind_ok.mp found
  obtain ⟨keys, checked, found⟩ := except_bind_ok.mp found
  obtain rfl := except_pure_ok.mp found
  have same : own = keys := by
    refine List.forall₂_eq_eq_eq ▸
      List.Forall₂.imp (fun value key asKey => ?_) ((mapM_ok_iff _ _ _).mp checked)
    unfold Value.asKey at asKey
    split at asKey
    · exact Except.ok.inj asKey
    · cases asKey
  subst same
  exact ⟨own, (mapM_ok_iff _ _ _).mp derived, rfl⟩

theorem nameOrDerived_truth {operation : Operation} {name : Value}
    (found : operation.nameOrDerived = .ok name) : name.truth = true := by
  unfold Operation.nameOrDerived at found
  split at found
  · rename_i given
    obtain rfl := except_pure_ok.mp found
    exact given
  · obtain ⟨path, -, same⟩ := except_bind_ok.mp found
    obtain rfl := except_pure_ok.mp same
    simpa [Value.truth] using Naming.operationName_ne_empty operation.method path

namespace OperationContext

variable {context : OperationContext} {scope after : NamingScope}

theorem Compiled.string_of_truth {operations : List Operation} {names : List Value}
    {methods : List OperationMethod} (count : names.length = operations.length)
    (compiled : context.Compiled scope (operations.zip names) methods after) {name : Value}
    (member : name ∈ names) (given : name.truth = true) : ∃ text, name = .string text := by
  rw [← List.map_snd_zip count.le] at member
  obtain ⟨⟨operation, _⟩, paired, rfl⟩ := List.mem_map.mp member
  obtain ⟨method, -, named, -⟩ := forall₂_of_mem_left compiled.named paired
  simp only [Operation.nameUnder, given, ↓reduceIte] at named
  exact ⟨method.operationId, except_pure_ok.mp named⟩

/-- When the operations are compiled, their own names are texts, and so are the unique names made of them. -/
theorem Compiled.texts {operations : List Operation} {names : List Value} {methods : List OperationMethod}
    (found : operationNames operations = .ok names)
    (compiled : context.Compiled scope (operations.zip names) methods after) :
    ∃ own : List String,
      List.Forall₂ (fun operation name => operation.nameOrDerived = .ok (.string name)) operations own ∧
        names = (Naming.unique own).map .string ∧ ∀ name ∈ Naming.unique own, name ≠ "" := by
  obtain ⟨own, derived, rfl⟩ := operationNames_ok found
  obtain ⟨rest, split, dropped, stops⟩ := leadingTexts_split own
  have allTrue : ∀ value ∈ own, value.truth = true := fun value member => by
    obtain ⟨operation, -, given⟩ := forall₂_of_mem_right derived member
    exact nameOrDerived_truth given
  rw [dropped] at compiled ⊢
  have count : ((Naming.unique (leadingTexts own)).map Value.string ++ rest).length = operations.length := by
    rw [derived.length_eq, List.length_append, List.length_map, Naming.unique_length]
    conv => rhs; rw [split]
    simp
  have none : rest = [] := by
    cases rest with
    | nil => rfl
    | cons value others =>
        have among : value ∈ own := split ▸ List.mem_append_right _ List.mem_cons_self
        obtain ⟨text, rfl⟩ := compiled.string_of_truth count (List.mem_append_right _ List.mem_cons_self)
          (allTrue value among)
        exact absurd rfl (stops text others)
  subst none
  rw [List.append_nil] at split ⊢
  refine ⟨leadingTexts own, ?_, rfl, Naming.unique_ne_empty fun name member => ?_⟩
  · rwa [split, List.forall₂_map_right_iff] at derived
  · have given := allTrue (.string name) (split ▸ List.mem_map_of_mem member)
    simpa [Value.truth] using given

theorem service_names {group : ServiceGroup} {service : ServiceModule}
    (served : (context.service group).result = .ok service) :
    ∃ own : List String,
      List.Forall₂ (fun operation name => operation.nameOrDerived = .ok (.string name)) group.operations own ∧
        service.operations.map OperationMethod.operation = group.operations ∧
        service.operations.map OperationMethod.operationId = Naming.unique own ∧
        ∀ method ∈ service.operations, method.methodName = Naming.methodName method.operationId := by
  obtain ⟨names, after, -, found, compiled⟩ := service_ok served
  obtain ⟨own, derived, rfl, filled⟩ := compiled.texts found
  have count : group.operations.length = ((Naming.unique own).map Value.string).length := by
    rw [List.length_map, Naming.unique_length, derived.length_eq]
  have named := compiled.named
  refine ⟨own, derived, ?_, ?_, fun method member => ?_⟩
  · rw [← List.map_fst_zip count.le]
    exact (map_eq_of_forall₂ (named.imp fun pair method parts => parts.2.1.symm)).symm
  · refine (List.map_inj_right fun _ _ => Value.string.inj).mp ?_
    rw [← List.map_snd_zip count.ge, List.map_map]
    refine (map_eq_of_forall₂ (forall₂_imp_of_mem named fun pair paired method parts => ?_)).symm
    obtain ⟨name, member, same⟩ := List.mem_map.mp (List.of_mem_zip paired).2
    have given := parts.1
    rw [← same] at given ⊢
    simpa [Operation.nameUnder, Value.truth, filled name member, except_pure_ok] using given
  · obtain ⟨pair, -, -, -, methodName⟩ := forall₂_of_mem_right named member
    exact methodName

end OperationContext
end OpenApiClient
