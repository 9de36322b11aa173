import OpenApiClient.Schema.Registry

/-! The named schemas that a schema refers to, and the cycles of schemas that refer to each other. -/

namespace OpenApiClient

def insertName (name : String) : List String → List String
  | [] => [name]
  | first :: rest =>
      if name = first then first :: rest
      else if name < first then name :: first :: rest
      else first :: insertName name rest

def sortedNames (names : List String) : List String := names.foldr insertName []

namespace Schema

mutual

/-- The names a schema refers to, in the order they are met. Beside a reference nothing else counts, and
the type decides which parts are looked at. -/
def mentions : Schema → Except Failure (List String)
  | ⟨keywords, items, properties, additional, anyOf, _, allOf⟩ =>
      if keywords.isReference then do
        pure [← referencedName (← keywords.reference.asText)]
      else
        match keywords.typeName with
        | .array =>
            match items with
            | none => pure []
            | some items => items.mentions
        | .object => do
            let inProperties ←
              match properties with
              | none => pure []
              | some properties => mentionsInProperties properties
            let inAdditional ←
              match additional with
              | .typed value => value.mentions
              | _ => pure []
            pure (inProperties ++ inAdditional)
        | _ =>
            match anyOf with
            | some members => mentionsInAll members
            | none =>
                match allOf with
                | some members => mentionsInAll members
                | none => pure []

def mentionsInProperties : List (Value × Schema) → Except Failure (List String)
  | [] => pure []
  | (_, schema) :: rest => do
      let first ← schema.mentions
      pure (first ++ (← mentionsInProperties rest))

def mentionsInAll : List Schema → Except Failure (List String)
  | [] => pure []
  | schema :: rest => do
      let first ← schema.mentions
      pure (first ++ (← mentionsInAll rest))

end

def references (schema : Schema) : Except Failure (List String) :=
  sortedNames <$> schema.mentions

def referencesOfAll (schemas : List (Option Schema)) : Except Failure (List String) :=
  sortedNames <$> mentionsInAll (schemas.filterMap id)

end Schema

namespace Registry

def imports (registry : Registry) (names : List String) (except : Option String) :
    Except Failure (List NamedSchema) :=
  ((sortedNames names).filter fun name => except != some name).mapM registry.get

/-- The aliases that a named schema refers to. Its module needs them when it is loaded; structs are needed
only when types are checked. -/
def aliasTargets (registry : Registry) (name : String) : Except Failure (List String) := do
  let named ← registry.get name
  let targets ← named.schema.references
  targets.filterM fun target => do pure !(← registry.get target).schema.isStruct

/-- Adds what the pending names lead to. Every step takes one pending name, and only names that are seen
for the first time become pending, so one step more than there are entries is enough. -/
def explore (registry : Registry) : Nat → List String → List String → Except Failure (List String)
  | 0, _, seen => pure seen
  | _, [], seen => pure seen
  | fuel + 1, name :: pending, seen => do
      let targets ← registry.aliasTargets name
      let fresh := targets.filter fun target => !seen.contains target
      registry.explore fuel (fresh.reverse ++ pending) (seen ++ fresh)

def reachable (registry : Registry) (name : String) : Except Failure (List String) :=
  registry.explore (registry.entries.length + 1) [name] []

/-- The aliases that are reached from a name and that reach it, sorted. The name itself is among them when
it lies on a cycle. -/
def aliasCycle (registry : Registry) (name : String) : Except Failure (List String) := do
  let reached ← registry.reachable name
  sortedNames <$> reached.filterM fun other => do pure ((← registry.reachable other).contains name)

end Registry
end OpenApiClient
