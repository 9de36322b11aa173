import OpenApiClient.Proofs.ContentClasses

/-! A scope that many calls share. Handlers and parameter groups claim their names in it and the classes of
bodies and responses are declared in it; each call sees the names that the calls before it took. -/

namespace OpenApiClient

open InScope

theorem claimName_takes {name free : String} {scope after : NamingScope}
    (yields : Yields (claimName name) scope free after) : scope.Takes [free] after := by
  have absent := (claimName_not_mem yields).1
  obtain ⟨rfl, -⟩ := claimName_yields yields
  exact .add absent

namespace OperationMethod

def topLevelNames (method : OperationMethod) : List String :=
  method.handlerClass :: method.declarations.map ClassDeclaration.name

end OperationMethod

namespace OperationContext

variable {context : OperationContext} {scope after : NamingScope} {declared : List ClassDeclaration}

theorem parameters_takes {operation : Operation} {start methodName : String} {className : Option String}
    {result : Bool × List ParameterBinding}
    (yields : Yields (context.parameters operation start methodName) scope (declared, className, result) after) :
    scope.Takes (declared.map ClassDeclaration.name) after ∧
      className.toList = declared.map ClassDeclaration.name := by
  obtain ⟨rfl, rfl, -, same⟩ | ⟨kept, name, own, -, claimed, built, rfl, same⟩ := parameters_yields yields
  · cases same
    exact ⟨.refl after, rfl⟩
  · cases same
    have named : own.name = name := buildClass_name built
    rw [List.map_singleton, named]
    exact ⟨claimName_takes claimed, rfl⟩

theorem contentType_takes {schema : Option Schema} {name typeText : String}
    (yields : Yields (context.contentType schema name) scope (declared, typeText) after) :
    scope.Takes (declared.map ClassDeclaration.name) after := by
  obtain ⟨-, rfl, rfl, -⟩ | ⟨own, type, -, emitted, -⟩ := contentType_yields yields
  · exact .refl after
  · exact (Registry.emit_grows emitted).takes

theorem body_takes {operation : Operation} {start operationId : String} {body : Option BodyShape}
    (yields : Yields (context.body operation start operationId) scope (declared, body) after) :
    scope.Takes (declared.map ClassDeclaration.name) after := by
  obtain ⟨-, rfl, rfl, -⟩ | ⟨_, _, _, _, _, -, -, -, typed⟩ := body_yields yields
  · exact .refl after
  · exact contentType_takes typed

theorem response_takes {start operationId pattern : String} {response : Response} {shape : ResponseShape}
    (yields : Yields (context.response start operationId pattern response) scope (declared, shape) after) :
    scope.Takes (declared.map ClassDeclaration.name) after := by
  obtain ⟨-, rfl, rfl, -⟩ | ⟨_, _, _, _, -, -, typed⟩ := response_yields yields
  · exact .refl after
  · exact contentType_takes typed

theorem responses_takes {start operationId : String} {responses : List (String × Response)}
    {shapes : List ResponseShape}
    (yields : Yields (context.responses start operationId responses) scope (declared, shapes) after) :
    scope.Takes (declared.map ClassDeclaration.name) after := by
  replace yields := responses_yields yields
  induction yields with
  | nil scope => exact .refl scope
  | valid _ answered _ ih =>
      rw [List.map_append]
      exact (response_takes answered).trans ih
  | invalid _ _ ih => exact ih

/-- A compiled operation takes the names of its classes, that of its parameters included. -/
theorem compile_takes {operation : Operation} {given : Option Value} {method : OperationMethod}
    (yields : Yields (context.compile operation given) scope method after) :
    scope.Takes method.topLevelNames after ∧
      method.parametersClass.toList ⊆ method.declarations.map ClassDeclaration.name := by
  obtain ⟨forParameters, forBody, forResponses, afterHandler, afterParameters, afterBody, -, -, -, claimed,
    grouped, shaped, answered, declarations, -⟩ := compile_yields yields
  obtain ⟨parameters, group⟩ := parameters_takes grouped
  have contents := (body_takes shaped).trans (responses_takes answered)
  have all := (claimName_takes claimed).trans (parameters.trans contents)
  rw [OperationMethod.topLevelNames, declarations]
  constructor
  · simpa only [List.map_append, List.append_assoc, List.singleton_append] using all
  · rw [group, List.append_assoc, List.map_append]
    exact List.subset_append_left _ _

end OperationContext

inductive ScopeCall where
  | compile (context : OperationContext) (operation : Operation) (given : Option Value)
  | claim (name : String)

inductive ScopeResult where
  | compiled (method : OperationMethod)
  | claimed (name : String)

def ScopeResult.names : ScopeResult → List String
  | .compiled method => method.topLevelNames
  | .claimed name => [name]

namespace ScopeCall

def run : ScopeCall → InScope ScopeResult
  | .compile context operation given => do
      let method ← context.compile operation given
      pure (.compiled method)
  | .claim name => do
      let free ← claimName name
      pure (.claimed free)

def runAll : List ScopeCall → InScope (List ScopeResult)
  | [] => pure []
  | call :: rest => do
      let result ← call.run
      let others ← runAll rest
      pure (result :: others)

variable {scope after : NamingScope}

theorem run_takes {call : ScopeCall} {result : ScopeResult} (yields : Yields call.run scope result after) :
    scope.Takes result.names after := by
  cases call with
  | compile context operation given =>
      obtain ⟨method, _, compiled, finished⟩ := yields_bind.mp yields
      obtain ⟨rfl, rfl⟩ := yields_pure.mp finished
      exact (OperationContext.compile_takes compiled).1
  | claim name =>
      obtain ⟨free, _, claimed, finished⟩ := yields_bind.mp yields
      obtain ⟨rfl, rfl⟩ := yields_pure.mp finished
      exact claimName_takes claimed

theorem runAll_takes {calls : List ScopeCall} {results : List ScopeResult}
    (yields : Yields (runAll calls) scope results after) :
    scope.Takes (results.flatMap ScopeResult.names) after := by
  induction calls generalizing scope results with
  | nil =>
      obtain ⟨rfl, rfl⟩ := yields_pure.mp yields
      exact .refl scope
  | cons call rest ih =>
      obtain ⟨result, between, ran, yields⟩ := yields_bind.mp yields
      obtain ⟨others, _, following, finished⟩ := yields_bind.mp yields
      obtain ⟨rfl, rfl⟩ := yields_pure.mp finished
      exact (run_takes ran).trans (ih following)

theorem runAll_compiled {calls : List ScopeCall} {results : List ScopeResult}
    (yields : Yields (runAll calls) scope results after) {method : OperationMethod}
    (member : .compiled method ∈ results) :
    ∃ (context : OperationContext) (operation : Operation) (given : Option Value) (before later : NamingScope),
      Yields (context.compile operation given) before method later := by
  induction calls generalizing scope results with
  | nil =>
      obtain ⟨rfl, -⟩ := yields_pure.mp yields
      contradiction
  | cons call rest ih =>
      obtain ⟨result, between, ran, yields⟩ := yields_bind.mp yields
      obtain ⟨others, _, following, finished⟩ := yields_bind.mp yields
      obtain ⟨rfl, rfl⟩ := yields_pure.mp finished
      rcases List.mem_cons.mp member with rfl | later
      · cases call with
        | compile context operation given =>
            obtain ⟨own, last, compiled, ended⟩ := yields_bind.mp ran
            obtain rfl : own = method := ScopeResult.compiled.inj (yields_pure.mp ended).1
            exact ⟨context, operation, given, scope, last, compiled⟩
        | claim name =>
            obtain ⟨free, last, -, ended⟩ := yields_bind.mp ran
            cases (yields_pure.mp ended).1
      · exact ih following later

end ScopeCall

/-- Whatever is compiled and claimed in one scope, the names that are taken differ from each other and from those
that were there before, and the scope comes to have these and no others. -/
theorem shared_scope_names {calls : List ScopeCall} {results : List ScopeResult} {scope after : NamingScope}
    (yields : Yields (ScopeCall.runAll calls) scope results after) :
    (results.flatMap ScopeResult.names).Nodup ∧
      (∀ name ∈ results.flatMap ScopeResult.names, name ∉ scope.names) ∧
      after.names = scope.names ++ results.flatMap ScopeResult.names ∧
      ∀ method, .compiled method ∈ results →
        method.parametersClass.toList ⊆ method.declarations.map ClassDeclaration.name := by
  have taken := ScopeCall.runAll_takes yields
  refine ⟨taken.distinct, taken.fresh, taken.names, ?_⟩
  intro method member
  obtain ⟨context, operation, given, before, later, compiled⟩ := ScopeCall.runAll_compiled yields member
  exact (OperationContext.compile_takes compiled).2

/-- A note is sent under one name twice, among names that its classes would have. -/
def sendCalls : List ScopeCall :=
  let send : Operation := {
    method := "POST"
    path := .string "/notes"
    operationId := .string "send"
    parameters := [{ name := .string "dry", location := .string "query" }]
    requestBody := some { content := [(.string "application/json", some (note "text"))] }
    responses := [("200", { content := [(.string "application/json", some (note "id"))] })] }
  let context : OperationContext := ⟨⟨none, [], true⟩, true⟩
  [.claim "SendParams", .compile context send none, .claim "SendBody", .compile context send (some (.string "Send"))]

def sendScope : NamingScope := { names := ["SendResponseHandler"], reserved := ["SendResponse200"] }

set_option maxRecDepth 4000 in
theorem sendCalls_names :
    ∃ results after, Yields (ScopeCall.runAll sendCalls) sendScope results after ∧
      results.flatMap ScopeResult.names =
        ["SendParams", "SendResponseHandler_", "SendParams_", "SendBody", "SendResponse200_", "SendBody_",
          "SendResponseHandler__", "SendParams__"] ∧
      (results.flatMap ScopeResult.names).Nodup ∧
      after.names = "SendResponseHandler" :: results.flatMap ScopeResult.names := by
  obtain ⟨results, after, yields, names⟩ : ∃ results after,
      Yields (ScopeCall.runAll sendCalls) sendScope results after ∧
        results.flatMap ScopeResult.names =
          ["SendParams", "SendResponseHandler_", "SendParams_", "SendBody", "SendResponse200_", "SendBody_",
            "SendResponseHandler__", "SendParams__"] := ⟨_, _, ⟨rfl, rfl⟩, by decide +kernel⟩
  obtain ⟨distinct, -, all, -⟩ := shared_scope_names yields
  exact ⟨results, after, yields, names, distinct, all⟩

end OpenApiClient
