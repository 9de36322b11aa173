import OpenApiClient.Log

/-! Naming scopes: the class names taken at one level of nesting. A computation on a scope keeps what it has
changed even when it fails. -/

namespace OpenApiClient

structure NamingScope where
  /-- The qualified name of the class whose body this is; none at the level of a module. -/
  owner : Option String := none
  names : List String := []
  reserved : List String := []
  deriving DecidableEq, Repr, Inhabited

namespace NamingScope

def contains (scope : NamingScope) (name : String) : Bool := scope.names.contains name

def insert (name : String) (names : List String) : List String :=
  if names.contains name then names else names ++ [name]

def add (name : String) (scope : NamingScope) : NamingScope :=
  { scope with names := insert name scope.names }

def reserve (names : List String) (scope : NamingScope) : NamingScope :=
  { scope with reserved := names.foldl (fun reserved name => insert name reserved) scope.reserved }

def qualify (scope : NamingScope) (name : String) : String :=
  match scope.owner with
  | none | some "" => name
  | some owner => owner ++ "." ++ name

/-- The name of a class to be declared in this scope: one that is reserved gets an underscore. -/
def ownName (scope : NamingScope) (name : String) : String :=
  if scope.reserved.contains name then name ++ "_" else name

/-- The qualified name of the class whose body this is, for which the name stands in at the level of a
module. -/
def ownerOr (scope : NamingScope) (name : String) : String :=
  match scope.owner with
  | none | some "" => name
  | some owner => owner

def child (scope : NamingScope) (name : String) : NamingScope := { owner := some (scope.qualify name) }

end NamingScope

structure Scoped (α : Type) where
  result : Except Failure α
  scope : NamingScope
  log : List LogRecord

def InScope (α : Type) : Type := NamingScope → Scoped α

namespace InScope

variable {α β : Type}

protected def bind (computation : InScope α) (next : α → InScope β) : InScope β := fun scope =>
  let first := computation scope
  match first.result with
  | .ok value =>
      let second := next value first.scope
      ⟨second.result, second.scope, first.log ++ second.log⟩
  | .error failure => ⟨.error failure, first.scope, first.log⟩

instance : Monad InScope where
  pure value := fun scope => ⟨.ok value, scope, []⟩
  bind := InScope.bind

def ofTraced (computation : Traced α) : InScope α := fun scope =>
  ⟨computation.result, scope, computation.log⟩

instance : MonadLift Traced InScope := ⟨ofTraced⟩

instance : MonadLift (Except Failure) InScope where
  monadLift outcome := ofTraced (.ofResult outcome)

instance : MonadLift (Except Malformed) InScope where
  monadLift outcome := ofTraced (.ofResult (outcome.mapError .malformed))

def read : InScope NamingScope := fun scope => ⟨.ok scope, scope, []⟩

def update (change : NamingScope → NamingScope) : InScope Unit := fun scope => ⟨.ok (), change scope, []⟩

def mapFailure (change : Failure → Failure) (computation : InScope α) : InScope α := fun scope =>
  let done := computation scope
  ⟨done.result.mapError change, done.scope, done.log⟩

/-- Runs a computation in a scope of its own, which is given up afterwards. -/
def inside (own : NamingScope) (computation : InScope α) : Traced α :=
  let done := computation own
  ⟨done.result, done.log⟩

end InScope
end OpenApiClient
