import OpenApiClient.Log
import OpenApiClient.Naming.Identifier
import OpenApiClient.Schema.Basic

/-! The registry of named schemas. Names are added, once each, until the registry is closed; after that it
is only read. It holds names and schemas and never expands a reference, so that schemas may refer to each
other in any order and in cycles. -/

namespace OpenApiClient

def schemaReferenceStart : String := "#/components/schemas/"

def referencedName (reference : String) : Except Failure String :=
  match Text.after? reference.toList schemaReferenceStart.toList with
  | some (c :: name) => .ok (String.ofList (c :: name))
  | _ => .error (.ofProblem (.unsupportedReference reference))

structure NamedSchema where
  name : String
  schema : Schema
  className : String
  moduleName : String
  deriving Repr, Inhabited

def NamedSchema.reference (named : NamedSchema) : String := schemaReferenceStart ++ named.name

structure Registry where
  package : Option String
  entries : List NamedSchema
  closed : Bool
  deriving Repr, Inhabited

inductive RegistryFault where
  | closed (name : String)
  | duplicate (name : String)
  deriving DecidableEq, Repr, Inhabited

def RegistryFault.message : RegistryFault → String
  | .closed name => "Cannot register schema '" ++ name ++ "': registry is sealed"
  | .duplicate name => "Schema '" ++ name ++ "' is already registered"

namespace Registry

def empty (package : Option String) : Registry := ⟨package, [], false⟩

def find? (registry : Registry) (name : String) : Option NamedSchema :=
  registry.entries.find? fun named => named.name == name

def contains (registry : Registry) (name : String) : Bool := (registry.find? name).isSome

def entry (registry : Registry) (name : String) (schema : Schema) : NamedSchema where
  name
  schema
  className := Naming.className name
  moduleName := Naming.modelModuleIn registry.package name

def register (registry : Registry) (name : String) (schema : Schema) : Except RegistryFault Registry :=
  if registry.closed then .error (.closed name)
  else if registry.contains name then .error (.duplicate name)
  else .ok { registry with entries := registry.entries ++ [registry.entry name schema] }

def close (registry : Registry) : Registry := { registry with closed := true }

def get (registry : Registry) (name : String) : Except Failure NamedSchema :=
  match registry.find? name with
  | some named => .ok named
  | none => .error (.ofProblem (.unknownReference (schemaReferenceStart ++ name)))

def resolve (registry : Registry) (reference : String) : Except Failure NamedSchema := do
  let name ← referencedName reference
  match registry.find? name with
  | some named => .ok named
  | none => .error (.ofProblem (.unknownReference reference))

def resolveValue (registry : Registry) (reference : Value) : Except Failure NamedSchema := do
  registry.resolve (← reference.asText)

/-- Registers the schemas of a document, whose names are distinct. -/
def addAll (registry : Registry) : List (Value × Schema) → Traced Registry
  | [] => pure registry
  | (name, schema) :: rest => do
      let name ← name.asText
      let named := registry.entry name schema
      Traced.write .debug "clientgen.registry" ("Added reference: " ++ named.reference)
      addAll { registry with entries := registry.entries ++ [named] } rest

def ofSchemas (package : Option String) (schemas : List (Value × Schema)) : Traced Registry :=
  close <$> addAll (empty package) schemas

end Registry
end OpenApiClient
