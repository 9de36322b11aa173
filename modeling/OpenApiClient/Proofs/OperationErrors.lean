import OpenApiClient.Proofs.ContentClasses
import OpenApiClient.Proofs.EmissionErrors

/-! Where the compilation of operations stops: in the class of the parameters, in the content of the body or of a
response. Each of these is an emission in the scope that the earlier ones have left. -/

namespace OpenApiClient

open InScope

variable {error : GenerationError}

theorem keepFirst_never_stops {operation : Operation} {kept parameters : List Parameter} :
    ¬(keepFirst operation kept parameters).Stops error := by
  induction parameters generalizing kept with
  | nil => exact Traced.stops_pure
  | cons parameter rest ih =>
      rw [keepFirst]
      split
      · exact fun stops => ih (Traced.stops_write_bind.mp stops)
      · exact ih

theorem firstContent_never_stops {what : String} {contentType : Value} {schema : Option Schema} {others : Content} :
    ¬(firstContent what contentType schema others).Stops error := by
  unfold firstContent
  split
  · intro stops
    have finished := Traced.stops_write_bind.mp stops
    exact Traced.stops_pure finished
  · exact Traced.stops_pure

theorem claimName_never_stops {name : String} {scope : NamingScope} : ¬(claimName name).Stops scope error :=
  InScope.stops_pure

namespace OperationContext

variable {context : OperationContext} {operation : Operation} {scope : NamingScope}

theorem contentType_stops {schema : Option Schema} {name : String}
    (stops : (context.contentType schema name).Stops scope error) :
    ∃ own, schema = some own ∧ context.registry.EmissionStops (.ofSchema (some name) own) scope error := by
  unfold contentType at stops
  split at stops
  · exact absurd stops InScope.stops_pure
  · exact ⟨_, rfl, InScope.stops_bind_pure.mp stops⟩

inductive Emits (context : OperationContext) (operation : Operation) (operationId : String) (scope : NamingScope) :
    Emission → NamingScope → Prop
  | parameters {kept : List Parameter} {name : String} {after own : NamingScope} {group : Emission} :
      operation.parameters ≠ [] → (keepFirst operation [] operation.parameters).result = .ok kept →
      Yields (claimName (Naming.toIdentifierCamel operationId ++ "Params")) scope name after →
      Builds (parameterGroup kept) name after group own → Emits context operation operationId scope group own
  | body {grouped : List ClassDeclaration × Option String × Bool × List ParameterBinding} {request : RequestBody}
      {contentType : Value} {schema : Schema} {others : Content} {after : NamingScope} :
      Yields (context.parameters operation (Naming.toIdentifierCamel operationId) (Naming.methodName operationId))
        scope grouped after →
      operation.requestBody = some request → request.content = (contentType, some schema) :: others →
      Emits context operation operationId scope
        (.ofSchema (some (Naming.toIdentifierCamel operationId ++ "Body")) schema) after
  | response {grouped : List ClassDeclaration × Option String × Bool × List ParameterBinding}
      {shaped : List ClassDeclaration × Option BodyShape} {before later : List (String × Response)}
      {declared : List ClassDeclaration} {shapes : List ResponseShape} {pattern : String} {response : Response}
      {contentType : Value} {schema : Schema} {others : Content} {between after own : NamingScope} :
      Yields (context.parameters operation (Naming.toIdentifierCamel operationId) (Naming.methodName operationId))
        scope grouped between →
      Yields (context.body operation (Naming.toIdentifierCamel operationId) operationId) between shaped after →
      operation.responses = before ++ (pattern, response) :: later → Client.isStatusPattern pattern = true →
      context.Answered (Naming.toIdentifierCamel operationId) operationId after before declared shapes own →
      response.content = (contentType, some schema) :: others →
      Emits context operation operationId scope
        (.ofSchema (some (Operation.responseClass (Naming.toIdentifierCamel operationId) pattern)) schema) own

theorem Emits.isNamed {operationId : String} {emission : Emission} {own : NamingScope}
    (emits : context.Emits operation operationId scope emission own) : emission.IsNamed := by
  cases emits with
  | parameters _ _ _ builds => exact builds.isNamed
  | body => exact ⟨_, rfl, by simp⟩
  | response => exact ⟨_, rfl, by simp [Operation.responseClass]⟩

theorem parameters_stops {start methodName : String}
    (stops : (context.parameters operation start methodName).Stops scope error) :
    ∃ kept name after group own, operation.parameters ≠ [] ∧
      (keepFirst operation [] operation.parameters).result = .ok kept ∧
      Yields (claimName (start ++ "Params")) scope name after ∧ Builds (parameterGroup kept) name after group own ∧
      context.registry.EmissionStops group own error := by
  unfold parameters at stops
  split at stops
  · exact absurd stops InScope.stops_pure
  · rename_i filled
    rcases stops_liftTraced_bind.mp stops with keeping | ⟨kept, found, stops⟩
    · exact absurd keeping keepFirst_never_stops
    rcases InScope.stops_bind.mp stops with claiming | ⟨name, after, claimed, stops⟩
    · exact absurd claiming claimName_never_stops
    rcases stops_liftTraced_bind.mp (stops_read_bind.mp stops) with building | ⟨_, -, finished⟩
    · obtain ⟨group, own, builds, inner⟩ := Registry.buildClass_stops.mp building
      exact ⟨kept, name, after, group, own, by simpa using filled, found, claimed, builds, inner⟩
    · exact absurd finished InScope.stops_pure

theorem body_stops {start operationId : String}
    (stops : (context.body operation start operationId).Stops scope error) :
    ∃ request contentType schema others, operation.requestBody = some request ∧
      request.content = (contentType, some schema) :: others ∧
      context.registry.EmissionStops (.ofSchema (some (start ++ "Body")) schema) scope error := by
  unfold body at stops
  split at stops
  · exact absurd stops InScope.stops_pure
  · rename_i request requested
    split at stops
    · exact absurd stops InScope.stops_pure
    · rename_i contentType schema others filled
      rcases stops_liftTraced_bind.mp stops with choosing | ⟨_, chosen, stops⟩
      · exact absurd choosing firstContent_never_stops
      obtain rfl := firstContent_ok chosen
      obtain ⟨own, rfl, inner⟩ := contentType_stops (InScope.stops_bind_pure.mp stops)
      exact ⟨request, contentType, own, others, requested, filled, inner⟩

theorem response_stops {start operationId pattern : String} {response : Response}
    (stops : (context.response start operationId pattern response).Stops scope error) :
    ∃ contentType schema others, response.content = (contentType, some schema) :: others ∧
      context.registry.EmissionStops (.ofSchema (some (Operation.responseClass start pattern)) schema) scope
        error := by
  unfold OperationContext.response at stops
  dsimp only at stops
  split at stops
  · exact absurd stops InScope.stops_pure
  · rename_i contentType schema others filled
    rcases stops_liftTraced_bind.mp stops with choosing | ⟨_, chosen, stops⟩
    · exact absurd choosing firstContent_never_stops
    obtain rfl := firstContent_ok chosen
    obtain ⟨own, rfl, inner⟩ := contentType_stops (InScope.stops_bind_pure.mp stops)
    exact ⟨contentType, own, others, filled, inner⟩

theorem responses_stops {start operationId : String} {responses : List (String × Response)}
    (stops : (context.responses start operationId responses).Stops scope error) :
    ∃ before pattern response later declared shapes own, responses = before ++ (pattern, response) :: later ∧
      Client.isStatusPattern pattern = true ∧
      context.Answered start operationId scope before declared shapes own ∧
      (context.response start operationId pattern response).Stops own error := by
  induction responses generalizing scope with
  | nil => exact absurd stops InScope.stops_pure
  | cons entry rest ih =>
      obtain ⟨pattern, response⟩ := entry
      rw [OperationContext.responses] at stops
      split at stops
      · rename_i valid
        rcases InScope.stops_bind.mp stops with first | ⟨⟨own, shape⟩, between, answered, stops⟩
        · exact ⟨[], pattern, response, rest, _, _, scope, rfl, valid, .nil scope, first⟩
        · obtain ⟨before, other, _, later, _, _, last, rfl, pass, prior, inner⟩ :=
            ih (InScope.stops_bind_pure.mp stops)
          exact ⟨_, other, _, later, _, _, last, rfl, pass, .valid valid answered prior, inner⟩
      · rename_i invalid
        obtain ⟨before, other, _, later, _, _, last, rfl, pass, prior, inner⟩ := ih (stops_write_bind.mp stops)
        exact ⟨_, other, _, later, _, _, last, rfl, pass, .invalid invalid prior, inner⟩

/-- An operation whose references can be walked stops in one of its emissions. -/
theorem compile_stops {given : Option Value} (walked : Succeeds (Schema.referencesOfAll operation.schemas))
    (stops : (context.compile operation given).Stops scope error) :
    ∃ operationId handler after emission own, operation.nameUnder given = .ok (.string operationId) ∧
      Yields (claimName (Naming.toIdentifierCamel operationId ++ "ResponseHandler")) scope handler after ∧
      context.Emits operation operationId after emission own ∧
      context.registry.EmissionStops emission own error := by
  unfold compile at stops
  obtain ⟨name, named, reading⟩ := stops_liftMalformed_bind.mp stops
  obtain ⟨operationId, read, compiling⟩ := stops_liftMalformed_bind.mp reading
  obtain rfl := Value.asPattern_ok.mp read
  rcases InScope.stops_bind.mp compiling with claiming | ⟨handler, after, claimed, stops⟩
  · exact absurd claiming claimName_never_stops
  refine ⟨operationId, handler, after, ?_⟩
  simp only [named, claimed, true_and]
  rcases stops_lift_bind.mp stops with walking | ⟨references, -, stops⟩
  · obtain ⟨references, found⟩ := walked
    cases found.symm.trans walking
  obtain ⟨lines, -, stops⟩ := stops_liftMalformed_bind.mp stops
  rcases InScope.stops_bind.mp stops with grouping | ⟨grouped, between, groups, stops⟩
  · obtain ⟨kept, name, _, group, own, filled, found, claims, builds, inner⟩ := parameters_stops grouping
    exact ⟨group, own, .parameters filled found claims builds, inner⟩
  rcases InScope.stops_bind.mp stops with shaping | ⟨shaped, last, shapes, stops⟩
  · obtain ⟨request, contentType, schema, others, requested, filled, inner⟩ := body_stops shaping
    exact ⟨_, _, .body groups requested filled, inner⟩
  · obtain ⟨before, pattern, response, later, _, _, own, split, valid, answered, stops⟩ :=
      responses_stops (InScope.stops_bind_pure.mp stops)
    obtain ⟨contentType, schema, others, filled, inner⟩ := response_stops stops
    exact ⟨_, _, .response groups shapes split valid answered filled, inner⟩

/-- The operations of a service stop at the first one that does, which puts its place in front of the error. -/
theorem compileAll_stops {pairs : List (Operation × Value)} (stops : (context.compileAll pairs).Stops scope error) :
    ∃ before operation name later methods between own, pairs = before ++ (operation, name) :: later ∧
      context.Compiled scope before methods between ∧ (context.compile operation (some name)).Stops between own ∧
      error = own.within operation.slot := by
  induction pairs generalizing scope with
  | nil => exact absurd stops InScope.stops_pure
  | cons pair rest ih =>
      obtain ⟨operation, name⟩ := pair
      rw [compileAll] at stops
      rcases InScope.stops_bind.mp stops with first | ⟨method, between, compiled, stops⟩
      · obtain ⟨own, inner, rfl⟩ := InScope.stops_within.mp first
        exact ⟨[], operation, name, rest, [], scope, own, rfl, .nil scope, inner, rfl⟩
      · obtain ⟨before, other, _, later, methods, last, own, rfl, prior, inner, rfl⟩ :=
          ih (InScope.stops_bind_pure.mp stops)
        exact ⟨_, other, _, later, _, last, own, rfl, .cons (yields_mapFailure.mp compiled) prior, inner, rfl⟩

end OperationContext
end OpenApiClient
