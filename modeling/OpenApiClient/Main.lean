import OpenApiClient.CommandLine.Run
import OpenApiClient.Yaml.Reader

/-! The command itself: it takes its arguments and environment from the process and its files from the file
system, and leaves the decisions to the library. -/

namespace OpenApiClient.CommandLine

def usage : String :=
  "usage: clientgen [-h] [--spec SPEC] [--output OUTPUT] [--package PACKAGE] [--log-level LOG_LEVEL]"

def settingNames : List String :=
  ["CLIENTGEN_SPEC", "CLIENTGEN_OUTPUT", "CLIENTGEN_PACKAGE", "CLIENTGEN_LOG_LEVEL"]

def readEnvironment : IO (List (String × String)) :=
  settingNames.filterMapM fun name => do pure ((← IO.getEnv name).map fun value => (name, value))

def fileFault (path : Path) : IO.Error → Option FileFault
  | .noFileOrDirectory _ _ _ => some ⟨.absent, path⟩
  | .alreadyExists _ _ _ => some ⟨.present, path⟩
  | .inappropriateType _ code _ => some ⟨if code = 21 then .isDirectory else .notDirectory, path⟩
  | _ => none

def onFile {α : Type} (path : Path) (action : IO α) : IO (Except FileFault α) := do
  try return .ok (← action)
  catch error =>
    match fileFault path error with
    | some fault => return .error fault
    | none => throw error

def writeStep (step : WriteStep) : IO Unit := do
  IO.FS.createDirAll step.path.parent.text
  IO.FS.writeFile step.path.text step.text

def isPresent (path : Path) : IO Bool := do
  try
    discard (IO.FS.readBinFile path.text)
    return true
  catch _ => return false

def writeSteps (steps : List WriteStep) : IO (List Path × Option FileFault) := do
  let mut written := []
  for step in steps do
    if step.onlyIfAbsent then
      if ← isPresent step.path then continue
    match ← onFile step.path (writeStep step) with
    | .ok () => written := written ++ [step.path]
    | .error fault => return (written, some fault)
  return (written, none)

def conclude : Ending → IO UInt32
  | .help => do
      IO.println usage
      return 0
  | .misused => do
      IO.eprintln usage
      return 2
  | .finished status output errors => do
      IO.print output
      IO.eprint errors
      return status.toUInt32
  | .brokenOff fault => do
      IO.eprintln (repr fault).pretty
      return 1

def generate (settings : Settings) (grade : Nat) : IO Ending := do
  match ← onFile settings.spec (IO.FS.readBinFile settings.spec.text) with
  | .error fault => return failed grade [] (.file fault)
  | .ok octets =>
      match planFile Yaml.reader settings octets.toList with
      | (.error fault, log) => return failed grade log fault
      | (.ok plan, log) =>
          match plan.writeSteps settings.output with
          | .error fault => return failed grade log (.output fault)
          | .ok steps =>
              let (paths, fault) ← writeSteps steps
              let log := log ++ FileTree.writtenLog paths
              match fault with
              | some fault => return failed grade log (.file fault)
              | none => return .finished 0 (plan.summary settings.output) (logText grade log)

def start (arguments : List String) : IO Ending := do
  match Request.ofArguments arguments with
  | .help => return .help
  | .misused => return .misused
  | .run given =>
      match Settings.ofSources given (← readEnvironment) with
      | .error fault => return .finished 2 "" ("clientgen: " ++ fault.message ++ "\n")
      | .ok settings =>
          match levelGrades.lookup settings.logLevel with
          | none => return .brokenOff (.unknownLevel settings.logLevel)
          | some grade => generate settings grade

end OpenApiClient.CommandLine

def main (arguments : List String) : IO UInt32 := do
  OpenApiClient.CommandLine.conclude (← OpenApiClient.CommandLine.start arguments)
