import OpenApiClient.Proofs.StatusPatterns

/-! The cases of a response handler. A document tells its responses apart by their statuses as they are written, the
handler by these in small letters; so two statuses that differ in the case of a wildcard come to one case. -/

namespace OpenApiClient

open InScope

namespace Client

def SameButForCase (first second : String) : Prop :=
  first.toList.map smallWildcard = second.toList.map smallWildcard

instance (first second : String) : Decidable (SameButForCase first second) :=
  inferInstanceAs (Decidable (_ = _))

theorem lowerText_valid {pattern : String} (valid : isStatusPattern pattern = true) :
    (Text.lowerText pattern).toList = pattern.toList.map smallWildcard := by
  rcases isStatusPattern_iff.mp valid with rfl | ⟨range, read⟩
  · decide +kernel
  · obtain ⟨a, b, c, ending, written, short, -⟩ := statusRange_ok_iff.mp read
    rw [Text.lowerText, String.toList_ofList, Text.lower, lowerAfter_letters (written.letters short)]

theorem lowerText_eq_iff {first second : String} (valid : isStatusPattern first = true)
    (also : isStatusPattern second = true) :
    Text.lowerText first = Text.lowerText second ↔ SameButForCase first second := by
  rw [SameButForCase, ← lowerText_valid valid, ← lowerText_valid also, String.toList_inj]

end Client

namespace Operation

def statuses (operation : Operation) : List String := (accepted operation.responses).map Prod.fst

theorem statuses_valid (operation : Operation) :
    ∀ status ∈ operation.statuses, Client.isStatusPattern status = true := by
  intro status member
  obtain ⟨entry, accepted, rfl⟩ := List.mem_map.mp member
  exact (List.mem_filter.mp accepted).2

theorem patterns_nodup_iff (operation : Operation) :
    operation.patterns.Nodup ↔ operation.statuses.Pairwise fun first second => ¬Client.SameButForCase first second := by
  have patterns : operation.patterns = operation.statuses.map Text.lowerText := by
    rw [Operation.patterns, statuses, List.map_map]
    rfl
  rw [patterns, List.Nodup, List.pairwise_map]
  refine List.Pairwise.iff_of_mem fun first second => ?_
  rw [ne_eq, Client.lowerText_eq_iff (operation.statuses_valid _ first) (operation.statuses_valid _ second)]

end Operation

def OperationMethod.ResponsesApart (method : OperationMethod) : Prop :=
  (method.responses.map ResponseShape.pattern).Nodup ∧ (method.responses.map ResponseShape.callback).Nodup

namespace OperationContext

variable {context : OperationContext} {scope after : NamingScope} {declared : List ClassDeclaration}

theorem response_callback {start operationId pattern : String} {response : Response} {shape : ResponseShape}
    (yields : Yields (context.response start operationId pattern response) scope (declared, shape) after) :
    shape.callback = "handle_response_" ++ shape.pattern := by
  unfold OperationContext.response at yields
  dsimp only at yields
  split at yields
  · obtain ⟨-, rfl, -⟩ := yields_pure_pair.mp yields
    rfl
  · obtain ⟨_, _, -, yields⟩ := yields_bind.mp yields
    obtain ⟨_, _, -, finished⟩ := yields_bind.mp yields
    obtain ⟨-, rfl, -⟩ := yields_pure_pair.mp finished
    rfl

theorem responses_callbacks {start operationId : String} {responses : List (String × Response)}
    {shapes : List ResponseShape}
    (yields : Yields (context.responses start operationId responses) scope (declared, shapes) after) :
    ∀ shape ∈ shapes, shape.callback = "handle_response_" ++ shape.pattern := by
  replace yields := responses_yields yields
  induction yields with
  | nil => simp
  | valid _ answered _ ih => exact List.forall_mem_cons.mpr ⟨response_callback answered, ih⟩
  | invalid _ _ ih => exact ih

theorem compile_callbacks {operation : Operation} {given : Option Value} {method : OperationMethod}
    (yields : Yields (context.compile operation given) scope method after) :
    method.responses.map ResponseShape.callback = operation.patterns.map ("handle_response_" ++ ·) := by
  obtain ⟨_, _, _, _, _, _, -, -, -, -, -, -, answered, -⟩ := compile_yields yields
  rw [← compile_patterns yields, List.map_map]
  exact List.map_congr_left (responses_callbacks answered)

/-- The responses of a method are told apart exactly when no two statuses of the document are the same but for the
case of their wildcards. -/
theorem compile_responsesApart_iff {operation : Operation} {given : Option Value} {method : OperationMethod}
    (yields : Yields (context.compile operation given) scope method after) :
    method.ResponsesApart ↔
      operation.statuses.Pairwise fun first second => ¬Client.SameButForCase first second := by
  have callbacks : (operation.patterns.map ("handle_response_" ++ ·)).Nodup ↔ operation.patterns.Nodup :=
    List.nodup_map_iff fun first second same => (String.append_right_inj _).mp same
  rw [OperationMethod.ResponsesApart, compile_patterns yields, compile_callbacks yields, callbacks, and_self,
    operation.patterns_nodup_iff]

end OperationContext

def ticketOperation (statuses : List String) : Operation where
  method := "get"
  path := .string "/tickets"
  operationId := .string "listTickets"
  responses := (["200", "default"] ++ statuses).map fun status => (status, {})

theorem tickets_apart :
    ∃ method after,
      Yields (OperationContext.compile ⟨⟨none, [], true⟩, true⟩ (ticketOperation ["4XX", "40x"]) none) {} method after ∧
        method.responses.map ResponseShape.pattern = ["200", "default", "4xx", "40x"] ∧ method.ResponsesApart := by
  obtain ⟨method, after, yields, patterns⟩ : ∃ method after,
      Yields (OperationContext.compile ⟨⟨none, [], true⟩, true⟩ (ticketOperation ["4XX", "40x"]) none) {} method after ∧
        method.responses.map ResponseShape.pattern = ["200", "default", "4xx", "40x"] := ⟨_, _, ⟨rfl, rfl⟩, rfl⟩
  exact ⟨method, after, yields, patterns,
    (OperationContext.compile_responsesApart_iff yields).mpr (by decide +kernel)⟩

/-- Two statuses that differ in the case of the wildcards come to one pattern and one callback. -/
theorem tickets_merged :
    ∃ method after,
      Yields (OperationContext.compile ⟨⟨none, [], true⟩, true⟩ (ticketOperation ["4XX", "4xx"]) none) {} method after ∧
        method.responses.map ResponseShape.pattern = ["200", "default", "4xx", "4xx"] ∧
        method.responses.map ResponseShape.callback = ["handle_response_200", "handle_response_default",
          "handle_response_4xx", "handle_response_4xx"] ∧ ¬method.ResponsesApart := by
  obtain ⟨method, after, yields, patterns, callbacks⟩ : ∃ method after,
      Yields (OperationContext.compile ⟨⟨none, [], true⟩, true⟩ (ticketOperation ["4XX", "4xx"]) none) {} method after ∧
        method.responses.map ResponseShape.pattern = ["200", "default", "4xx", "4xx"] ∧
        method.responses.map ResponseShape.callback = ["handle_response_200", "handle_response_default",
          "handle_response_4xx", "handle_response_4xx"] := ⟨_, _, ⟨rfl, rfl⟩, rfl, rfl⟩
  refine ⟨method, after, yields, patterns, callbacks, fun apart => ?_⟩
  have distinct := apart.1
  rw [patterns] at distinct
  exact absurd distinct (by decide)

end OpenApiClient
