import OpenApiClient.Naming.Reserved
import OpenApiClient.Naming.Words

/-! Names of classes, modules, fields and methods of the generated package. -/

namespace OpenApiClient.Naming

open Text

def className (schemaName : String) : String :=
  let name := toIdentifierCamel (String.ofList (schemaName.toList.map fun c => if c = '.' then '_' else c))
  if isReservedClassName name then name ++ "_" else name

def sanitizeOr (fallback name : String) : String :=
  let sanitized := sanitizeSegment name
  if sanitized.isEmpty then fallback else sanitized

def startsWithDigit (name : String) : Bool := (name.toList.head?.map isDigit).getD false

def modelModule (schemaName : String) : String :=
  let module := sanitizeOr "schema"
    (String.ofList (schemaName.toList.map fun c => if c = '.' then '_' else c))
  if startsWithDigit module || isKeyword module then "_" ++ module else module

def modelModuleIn (package : Option String) (schemaName : String) : String :=
  match package with
  | none | some "" => modelModule schemaName
  | some package => package ++ ".model." ++ modelModule schemaName

def fieldName (propertyName : String) : String :=
  match propertyName.toList.map fun c => if isWordCharacter c then c else '_' with
  | [] => "field_"
  | c :: rest =>
      let name := if isDigit c then '_' :: c :: rest else c :: rest
      let name :=
        match name with
        | '_' :: '_' :: rest => '_' :: rest.dropWhile (· == '_')
        | other => other
      let name := String.ofList name
      if isKeyword name || reservedFieldNames.contains name then name ++ "_" else name

def methodName (operationName : String) : String :=
  let name := sanitizeOr "operation" operationName
  let name := if startsWithDigit name then "op_" ++ name else name
  if isKeyword name then name ++ "_" else name

def rootServiceModule : String := "root_service"

def serviceModule (root : String) : String :=
  let stem := sanitizeSegment (String.ofList (root.toList.map fun c => if c = '/' then '_' else c))
  if stem.isEmpty then rootServiceModule
  else
    let name := stem ++ "_service"
    if startsWithDigit name || isKeyword name then "_" ++ name else name

end OpenApiClient.Naming
