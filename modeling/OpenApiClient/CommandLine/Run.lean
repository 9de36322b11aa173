import OpenApiClient.CommandLine.Arguments
import OpenApiClient.Document.File
import OpenApiClient.FileTree.Output

/-! A run of the command: it reads the document, plans the package and writes it. Problems of the document
and of files are logged; anything else breaks the run off. -/

namespace OpenApiClient.CommandLine

def levelGrades : List (String × Nat) :=
  [("CRITICAL", 50), ("FATAL", 50), ("ERROR", 40), ("WARN", 30), ("WARNING", 30), ("INFO", 20),
    ("DEBUG", 10), ("NOTSET", 0)]

inductive RunFault where
  | unknownLevel (name : String)
  | read (fault : ReadFault)
  | plan (failure : Failure)
  | output (fault : OutputFault)
  | file (fault : FileFault)
  deriving DecidableEq, Repr, Inhabited

def RunFault.reported? : RunFault → Option String
  | .read (.generation error) | .plan (.generation error) => some error.message
  | .file fault => some fault.message
  | _ => none

def unknownLevelMessage (name : String) : String := "Unknown level: " ++ Text.quotedText name

inductive Ending where
  | help
  | misused
  | finished (status : Nat) (output errors : String)
  | brokenOff (fault : RunFault)
  deriving DecidableEq, Repr, Inhabited

structure Run where
  ending : Ending
  tree : FileTree
  deriving Repr, Inhabited

def planFile (yaml : Yaml.Reader) (settings : Settings) (octets : List UInt8) :
    Except RunFault PackagePlan × List LogRecord :=
  match readDocument yaml settings.spec octets with
  | .error fault => (.error (.read fault), [])
  | .ok document =>
      let planned := ApiDocument.ofValue document >>= fun document =>
        PackagePlan.ofDocument document settings.package
      (planned.result.mapError .plan, planned.log)

def logText (grade : Nat) (log : List LogRecord) : String :=
  String.join ((log.filter fun record => grade ≤ record.severity.grade).map (·.line ++ "\n"))

def failed (grade : Nat) (log : List LogRecord) (fault : RunFault) : Ending :=
  match fault.reported? with
  | some text =>
      .finished 1 "" (logText grade (log ++ [⟨.error, "clientgen", "Generation failed: " ++ text⟩]))
  | none => .brokenOff fault

def finish (grade : Nat) (log : List LogRecord) (settings : Settings) (plan : PackagePlan)
    (tree : FileTree) : Run :=
  match plan.writeSteps settings.output with
  | .error fault => ⟨failed grade log (.output fault), tree⟩
  | .ok steps =>
      let written := tree.writeAll steps
      let log := log ++ FileTree.writtenLog written.paths
      match written.fault with
      | some fault => ⟨failed grade log (.file fault), written.tree⟩
      | none => ⟨.finished 0 (plan.summary settings.output) (logText grade log), written.tree⟩

def runWith (yaml : Yaml.Reader) (settings : Settings) (tree : FileTree) : Run :=
  match levelGrades.lookup settings.logLevel with
  | none => ⟨.brokenOff (.unknownLevel settings.logLevel), tree⟩
  | some grade =>
      match tree.readFile settings.spec with
      | .error fault => ⟨failed grade [] (.file fault), tree⟩
      | .ok octets =>
          match planFile yaml settings octets with
          | (.error fault, log) => ⟨failed grade log fault, tree⟩
          | (.ok plan, log) => finish grade log settings plan tree

def run (yaml : Yaml.Reader) (arguments : List String) (environment : List (String × String)) (tree : FileTree) :
    Run :=
  match Request.ofArguments arguments with
  | .help => ⟨.help, tree⟩
  | .misused => ⟨.misused, tree⟩
  | .run given =>
      match Settings.ofSources given environment with
      | .error fault => ⟨.finished 2 "" ("clientgen: " ++ fault.message ++ "\n"), tree⟩
      | .ok settings => runWith yaml settings tree

end OpenApiClient.CommandLine
