import OpenApiClient.FileTree.Basic
import OpenApiClient.Log
import OpenApiClient.Source.Package
import OpenApiClient.Text.Utf8

/-! Writing a generated package. Modules replace what was there; the packages around it get an empty file
each, unless they have one. -/

namespace OpenApiClient

structure WriteStep where
  path : Path
  text : String
  onlyIfAbsent : Bool := false
  deriving DecidableEq, Repr, Inhabited

inductive OutputFault where
  | malformed (fault : Malformed)
  | nameless (path : Path)
  deriving DecidableEq, Repr, Inhabited

def OutputFault.namelessMessage (path : Path) : String :=
  "PosixPath(" ++ Text.quotedText path.text ++ ") has an empty name"

namespace PackagePlan

def initName : String := "__init__.py"

def nameParts (name : String) : List String := (Text.splitAt '.' name.toList).map String.ofList

/-- The file of a module. The package and its models are directories with a file of their own. -/
def modulePath (plan : PackagePlan) (output : Path) (name : String) : Except OutputFault Path := do
  let below := output.joinAll (nameParts name)
  match below.withSuffix? ".py" with
  | none => throw (.nameless below)
  | some path =>
      if name = plan.package ∨ name = plan.package ++ ".model" then
        match path.withSuffix? "" with
        | none => throw (.nameless path)
        | some directory => pure (directory.join initName)
      else pure path

def parentInits (plan : PackagePlan) (output : Path) : List Path :=
  let parts := nameParts plan.package
  (List.range (parts.length - 1)).map fun depth =>
    (output.joinAll (parts.take (depth + 1))).join initName

def writeSteps (plan : PackagePlan) (output : Path) : Except OutputFault (List WriteStep) := do
  let modules ← plan.modules.mapError .malformed
  let steps ← modules.mapM fun (name, text) => do pure { path := ← plan.modulePath output name, text }
  pure (steps ++ (plan.parentInits output).map fun path => { path, text := "", onlyIfAbsent := true })

def summary (plan : PackagePlan) (output : Path) : String :=
  "Generated " ++ (output.joinAll (nameParts plan.package)).text ++
    s!" ({plan.models.length} models, {plan.services.length} services)\n"

end PackagePlan

namespace FileTree

def writeStep (tree : FileTree) (step : WriteStep) : Except FileFault FileTree := do
  (← tree.ensureDirectory step.path.parent).writeFile step.path (Text.encodeUtf8 step.text.toList)

/-- What is left when the steps are done, or the first of them that fails. -/
structure Written where
  tree : FileTree
  paths : List Path
  fault : Option FileFault
  deriving Repr, Inhabited

def writtenLog (paths : List Path) : List LogRecord :=
  paths.map fun path => ⟨.debug, "clientgen.codegen", "Wrote " ++ path.text⟩

def writeAll (tree : FileTree) : List WriteStep → Written
  | [] => ⟨tree, [], none⟩
  | step :: rest =>
      if step.onlyIfAbsent && tree.exists? step.path then tree.writeAll rest
      else
        match tree.writeStep step with
        | .error fault => ⟨tree, [], some fault⟩
        | .ok done =>
            let written := done.writeAll rest
            { written with paths := step.path :: written.paths }

end FileTree
end OpenApiClient
