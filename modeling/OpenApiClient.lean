import OpenApiClient.Proofs.WrittenValues
import OpenApiClient.Proofs.JsonTexts
import OpenApiClient.Proofs.ReadOperations
import OpenApiClient.Proofs.MergedParameters
import OpenApiClient.Proofs.KeySameness
import OpenApiClient.Proofs.BoundParameters
import OpenApiClient.Proofs.ShadowedNames
import OpenApiClient.Proofs.Rendering
import OpenApiClient.Proofs.ModuleNames
import OpenApiClient.Proofs.ModelClasses
import OpenApiClient.Proofs.DeclaredClasses
import OpenApiClient.Proofs.FreshNames
import OpenApiClient.Proofs.ContentClasses
import OpenApiClient.Proofs.ClaimedNames
import OpenApiClient.Proofs.ScopeGrowth
import OpenApiClient.Proofs.LocalNames
import OpenApiClient.Proofs.Naming
import OpenApiClient.Proofs.Operations
import OpenApiClient.Proofs.MethodNames
import OpenApiClient.Proofs.ImportGraph
import OpenApiClient.Proofs.Plan
import OpenApiClient.Proofs.AliasCycle
import OpenApiClient.Proofs.References
import OpenApiClient.Proofs.Emission
import OpenApiClient.Proofs.Outcome
import OpenApiClient.Client.Authorization
import OpenApiClient.Client.Credential
import OpenApiClient.Client.Exchange
import OpenApiClient.Client.Reply
import OpenApiClient.Client.ServerAddress
import OpenApiClient.Main
import OpenApiClient.Proofs.Records
import OpenApiClient.Proofs.RoundTrip
import OpenApiClient.Proofs.NormalForm
import OpenApiClient.Proofs.Dispatch
import OpenApiClient.Proofs.UrlTemplates
import OpenApiClient.Proofs.PathValues
import OpenApiClient.Proofs.EmittedTypes
import OpenApiClient.Proofs.SchemaOrder
import OpenApiClient.Proofs.ServerUrls
import OpenApiClient.Proofs.WalkedReferences
import OpenApiClient.Proofs.SharedScope
import OpenApiClient.Proofs.FormFields
import OpenApiClient.Proofs.RequestQueries
import OpenApiClient.Proofs.PathSegments
import OpenApiClient.Proofs.ClassBodies
import OpenApiClient.Proofs.PlannedBodies
import OpenApiClient.Proofs.ServiceGroups
import OpenApiClient.Proofs.Identifiers
import OpenApiClient.Proofs.AliasClasses
import OpenApiClient.Proofs.ClassNames
import OpenApiClient.Proofs.FieldReferences
import OpenApiClient.Proofs.AliasFields
import OpenApiClient.Proofs.RegistryRuns
import OpenApiClient.Proofs.ServiceModules
import OpenApiClient.Proofs.FileTrees
import OpenApiClient.Proofs.Paths
import OpenApiClient.Proofs.PackageFiles
import OpenApiClient.Proofs.FailedRuns
import OpenApiClient.Proofs.Pointers
import OpenApiClient.Proofs.GeneratedMethods
import OpenApiClient.Proofs.GenerationErrors
import OpenApiClient.Proofs.EmissionErrors
import OpenApiClient.Proofs.OperationErrors
import OpenApiClient.Proofs.PlanErrors
import OpenApiClient.Proofs.UniqueNames
import OpenApiClient.Proofs.MutualAliases
import OpenApiClient.Proofs.Docstrings
import OpenApiClient.Proofs.FieldNames
import OpenApiClient.Proofs.ReferenceChains
import OpenApiClient.Proofs.LeafPaths
import OpenApiClient.Proofs.ResponseCases
import OpenApiClient.Proofs.RequestCookies
import OpenApiClient.Proofs.JoinedLists
import OpenApiClient.Proofs.WrappedLines
import OpenApiClient.Proofs.StableNames
import OpenApiClient.Proofs.OperationNames
import OpenApiClient.Proofs.PackageNames
