import OpenApiClient.Document.Reader
import OpenApiClient.Package.Group
import OpenApiClient.Package.Operation
import OpenApiClient.Package.Security
import OpenApiClient.Package.Servers

/-! The plan of a generated package: what every module of it declares and imports. All named schemas are
registered before anything is planned. A generation error names the unit in which it arose. -/

namespace OpenApiClient

structure ModelModule where
  schemaName : String
  moduleName : String
  className : String
  descriptionLines : List String
  classes : List ClassDeclaration
  aliased : Option String
  imports : List NamedSchema
  deriving Repr, Inhabited

structure ServiceModule where
  pathRoot : String
  moduleName : String
  className : String
  operations : List OperationMethod
  imports : List NamedSchema
  usesSecurity : Bool
  deriving Repr, Inhabited

structure PackagePlan where
  package : String
  title : Value
  version : String
  titleLines : List String
  models : List ModelModule
  services : List ServiceModule
  security : List SecurityConfigurator
  server : ServerChoice
  deriving Repr, Inhabited

namespace Registry

/-- The names that a model imports: those it refers to, without itself and without the aliases that refer
back to it, which are also the second part. -/
def modelImports (registry : Registry) (named : NamedSchema) :
    Except Failure (List NamedSchema × List String) := do
  let names ← named.schema.references
  let cycle ← if named.schema.isStruct then pure [] else registry.aliasCycle named.name
  let imports ← registry.imports (names.filter fun name => !cycle.contains name) (some named.name)
  pure (imports, cycle)

def aliasText (registry : Registry) (named : NamedSchema) (type : TypeExpression) (cycle : List String) :
    Traced (Option String) := do
  if named.schema.isStruct then pure none
  else
    if !cycle.isEmpty then
      Traced.write .info "clientgen.context_builder"
        ("Alias " ++ named.name ++ " is part of a reference cycle with " ++
          (Value.array (cycle.map .string)).literal)
    let hidden ← (cycle.mapM registry.get : Except Failure (List NamedSchema))
    pure (some (type.render (hidden.map NamedSchema.className)))

def model (registry : Registry) (named : NamedSchema) : Traced ModelModule := do
  let ((classes, type), imports, cycle) ← Traced.mapFailure (Failure.within named.name) do
    let emitted ← registry.emitNamed named
    let (imports, cycle) ← registry.modelImports named
    pure (emitted, imports, cycle)
  let aliased ← registry.aliasText named type cycle
  let descriptionLines ← named.schema.keywords.description.wrapped 80
  pure ⟨named.name, named.moduleName, named.className, descriptionLines, classes, aliased, imports⟩

end Registry

def leadingTexts : List Value → List String
  | .string text :: rest => text :: leadingTexts rest
  | _ => []

/-- The names of the operations of a service, made unique. Names that are no texts stay as they are; no
operation after such a one is compiled. -/
def operationNames (operations : List Operation) : Except Malformed (List Value) := do
  let names ← operations.mapM Operation.nameOrDerived
  let names ← names.mapM Value.asKey
  let texts := leadingTexts names
  pure ((Naming.unique texts).map Value.string ++ names.drop texts.length)

namespace OperationContext

def compileAll (context : OperationContext) :
    List (Operation × Value) → InScope (List OperationMethod)
  | [] => pure []
  | (operation, name) :: rest => do
      let method ← InScope.mapFailure (Failure.within operation.slot)
        (context.compile operation (some name))
      pure (method :: (← context.compileAll rest))

def serviceScope (group : ServiceGroup) (imports : List NamedSchema) : NamingScope :=
  NamingScope.reserve
    (Naming.reservedClassNames ++ group.className :: imports.map NamedSchema.className) {}

def service (context : OperationContext) (group : ServiceGroup) : Traced ServiceModule := do
  let imports ← Traced.mapFailure (Failure.within group.moduleName) do
    let names ← Schema.referencesOfAll (group.operations.flatMap Operation.schemas)
    (context.registry.imports names none : Except Failure _)
  let names ← operationNames group.operations
  let operations ← InScope.inside (serviceScope group imports)
    (context.compileAll (group.operations.zip names))
  pure {
    pathRoot := if group.pathRoot.isEmpty then "/" else group.pathRoot
    moduleName := group.moduleName
    className := group.className
    operations
    imports
    usesSecurity := operations.any OperationMethod.appliesSecurity
  }

end OperationContext

def separateModules (services : List ServiceModule) : List ServiceModule :=
  (services.zip (Naming.unique (services.map ServiceModule.moduleName))).map fun (service, module) =>
    { service with moduleName := module }

namespace PackagePlan

def ofDocument (document : ApiDocument) (package : String) : Traced PackagePlan := do
  let registry ← Registry.ofSchemas (some package) document.schemas
  let context : OperationContext := ⟨registry, !document.security.isEmpty⟩
  let models ← registry.entries.mapM registry.model
  let groups ← groupOperations document.operations
  let services ← groups.mapM context.service
  let security ← Traced.mapFailure (Failure.within "securitySchemes")
    (configurators (document.securitySchemes.map Prod.snd))
  Traced.write .debug "clientgen.context_builder"
    ("Built " ++ toString models.length ++ " model and " ++ toString services.length ++
      " service contexts")
  let titleLines ← document.title.wrapped 80
  let server ← chooseServer document.servers
  pure ⟨package, document.title, document.version, titleLines, models, separateModules services, security,
    server⟩

end PackagePlan
end OpenApiClient
