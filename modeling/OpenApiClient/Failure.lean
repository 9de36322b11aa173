import OpenApiClient.Value.Basic

/-! Why a client cannot be generated. A generation error has a problem and the place where it arose; the
units around that place are put in front of it while the error travels outwards. -/

namespace OpenApiClient

inductive SchemeProblem where
  | missingLocation
  | missingName
  | unsupportedLocation (location : String)
  | other (text : String)
  deriving DecidableEq, Repr, Inhabited

def SchemeProblem.message : SchemeProblem → String
  | .missingLocation => "is missing required parameter 'in'"
  | .missingName => "is missing required parameter 'name'"
  | .unsupportedLocation location => "has unsupported location '" ++ location ++ "'"
  | .other text => text

inductive Problem where
  | unknownReference (reference : String)
  | unsupportedReference (reference : String)
  | missingItems
  | missingTypeName
  | malformedSecurityScheme (problem : SchemeProblem)
  | circularReference (reference : String)
  | unreadable (reason : String)
  | notAnObject
  | other (text : String)
  deriving DecidableEq, Repr, Inhabited

def Problem.message : Problem → String
  | .unknownReference reference => "Unknown schema reference '" ++ reference ++ "'"
  | .unsupportedReference reference => "External references not supported: '" ++ reference ++ "'"
  | .missingItems => "Array schema is missing 'items'"
  | .missingTypeName => "Creating a named object type requires a title or default name"
  | .malformedSecurityScheme problem => "SecurityScheme " ++ problem.message
  | .circularReference reference => "Circular component reference '" ++ reference ++ "'"
  | .unreadable reason => "Cannot parse document: " ++ reason
  | .notAnObject => "Document is not a mapping"
  | .other text => text

structure GenerationError where
  problem : Problem
  location : Option String
  deriving DecidableEq, Repr, Inhabited

namespace GenerationError

def message (error : GenerationError) : String :=
  match error.location with
  | none | some "" => error.problem.message
  | some location => "[" ++ location ++ "] " ++ error.problem.message

def within (unit : String) (error : GenerationError) : GenerationError :=
  match error.location with
  | none | some "" => { error with location := some unit }
  | some location => { error with location := some (unit ++ " > " ++ location) }

end GenerationError

inductive Failure where
  | generation (error : GenerationError)
  | malformed (fault : Malformed)
  deriving DecidableEq, Repr, Inhabited

namespace Failure

def ofProblem (problem : Problem) : Failure := .generation ⟨problem, none⟩

def within (unit : String) : Failure → Failure
  | .generation error => .generation (error.within unit)
  | other => other

def locate (place : String) : Failure → Failure
  | .generation ⟨problem, none⟩ => .generation ⟨problem, some place⟩
  | other => other

end Failure

instance : MonadLift (Except Malformed) (Except Failure) where
  monadLift outcome := outcome.mapError .malformed

end OpenApiClient
