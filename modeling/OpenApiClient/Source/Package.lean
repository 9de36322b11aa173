import OpenApiClient.Source.Access
import OpenApiClient.Source.Service

/-! The modules of a generated package, by dotted name and in order. A module that has the name of an earlier
one takes its place. -/

namespace OpenApiClient

namespace Source

def packageText (package title version : String) : String :=
  block [fileComment,
    "\"\"\"Client for " ++ docstringSafe title ++
      (if version.isEmpty then "" else " (version " ++ docstringSafe version ++ ")") ++ ".", "",
    "Models are re-exported here so that type aliases used by the service modules",
    "resolve at runtime.", tripleQuote, "",
    "from " ++ package ++ ".model import *  # noqa: F401,F403", "",
    "__version__ = " ++ Text.quotedText version]

def modelPackageText (title : String) (models : List ModelModule) : String :=
  block ([fileComment, "\"\"\"Data models of " ++ docstringSafe title ++ ".", "",
    "Every model is imported here so that forward references between model",
    "modules resolve at runtime.", tripleQuote, ""] ++
    (models.map fun model => "from " ++ model.moduleName ++ " import " ++ model.className) ++
    ["", "__all__ = ["] ++
    indented 4 (models.map fun model => Text.quotedText model.className ++ ",") ++ ["]"])

end Source

namespace PackagePlan

def modules (plan : PackagePlan) : Except Malformed (List (String × String)) := do
  let title ← plan.title.asText
  let shared := [
    (plan.package, Source.packageText plan.package title plan.version),
    (plan.package ++ ".security", Source.securityText title plan.security),
    (plan.package ++ ".servers", Source.serversText title plan.server),
    (plan.package ++ ".model", Source.modelPackageText title plan.models)]
  let models ← plan.models.mapM fun model => do pure (model.moduleName, ← Source.modelText model)
  let services ← plan.services.mapM fun service => do
    pure (plan.package ++ "." ++ service.moduleName, ← Source.serviceText plan.package service)
  pure (Entries.ofPairs (· == ·) (shared ++ models ++ services))

end PackagePlan
end OpenApiClient
