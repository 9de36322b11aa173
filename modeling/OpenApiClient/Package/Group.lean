import OpenApiClient.Document.Basic
import OpenApiClient.Entries
import OpenApiClient.Naming.OperationName
import OpenApiClient.Value.Access

/-! Service groups: the operations whose paths have one root. -/

namespace OpenApiClient

structure ServiceGroup where
  pathRoot : String
  operations : List Operation
  deriving Repr, Inhabited

namespace ServiceGroup

def moduleName (group : ServiceGroup) : String := Naming.serviceModule group.pathRoot

def className (group : ServiceGroup) : String := Naming.toIdentifierCamel group.moduleName

def insert (root : String) (operation : Operation) : List ServiceGroup → List ServiceGroup
  | [] => [⟨root, [operation]⟩]
  | group :: rest =>
      if group.pathRoot = root then ⟨root, group.operations ++ [operation]⟩ :: rest
      else group :: insert root operation rest

end ServiceGroup

def groupOperations (operations : List Operation) : Except Malformed (List ServiceGroup) :=
  operations.foldlM (fun groups operation => do
    pure (ServiceGroup.insert (Naming.pathRoot (← operation.path.asPattern)) operation groups)) []

end OpenApiClient
