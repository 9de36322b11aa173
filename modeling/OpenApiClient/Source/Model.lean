import OpenApiClient.Package.Plan
import OpenApiClient.Source.Class

/-! Source text of the modules for named schemas. A class refers to other models only while types are
checked; an alias needs them when it is run. -/

namespace OpenApiClient.Source

def importLine (named : NamedSchema) : String :=
  "from " ++ named.moduleName ++ " import " ++ named.className

def modelHeading (model : ModelModule) : List String :=
  if model.descriptionLines.isEmpty then [shortDocstring model.schemaName]
  else docstringLines (model.schemaName :: "" :: model.descriptionLines)

def modelImports (model : ModelModule) : List String :=
  if model.imports.isEmpty then []
  else if model.aliased.isSome then "" :: model.imports.map importLine
  else ["", "if TYPE_CHECKING:"] ++ indented 4 (model.imports.map importLine)

def aliasLines (model : ModelModule) : List String :=
  match model.aliased with
  | none => []
  | some aliased => ["", "", model.className ++ ": TypeAlias = " ++ aliased]

def modelText (model : ModelModule) : Except Malformed String := do
  let classes ← moduleClasses model.classes
  pure (block ([fileComment] ++ modelHeading model ++
    ["", "from __future__ import annotations", "",
      "from dataclasses import dataclass, field",
      "from typing import TYPE_CHECKING, Any, Optional, TypeAlias", "",
      "from clientgen.runtime.scalars import Float32, Float64, Int32, Int64"] ++ modelImports model) ++
    classes ++ block (aliasLines model))

end OpenApiClient.Source
