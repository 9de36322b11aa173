import OpenApiClient.CommandLine.Run
import OpenApiClient.Proofs.PackageFiles
import OpenApiClient.Yaml.Reader

/-! Runs that fail. A run reads its document, takes it apart, plans the package and renders it before the first file
is written. Whatever one of these stages meets, at any depth of the document, the file tree stays as it was. This
holds with every reader of YAML, whatever it makes of a text. -/

namespace OpenApiClient.CommandLine

variable {yaml : Yaml.Reader} {arguments : List String} {environment : List (String × String)} {settings : Settings}
  {grade : Nat} {tree : FileTree} {octets : List UInt8} {fault : RunFault} {plan : PackagePlan}

/-! The stages before anything is written. -/

def Configures (arguments : List String) (environment : List (String × String)) (settings : Settings) : Prop :=
  ∃ given, Request.ofArguments arguments = .run given ∧ Settings.ofSources given environment = .ok settings

def Opens (settings : Settings) (tree : FileTree) (octets : List UInt8) : Prop :=
  ∃ grade, levelGrades.lookup settings.logLevel = some grade ∧ tree.readFile settings.spec = .ok octets

def Loads (yaml : Yaml.Reader) (settings : Settings) (tree : FileTree) (value : Value) : Prop :=
  ∃ octets, Opens settings tree octets ∧ readDocument yaml settings.spec octets = .ok value

def Parses (yaml : Yaml.Reader) (settings : Settings) (tree : FileTree) (document : ApiDocument) : Prop :=
  ∃ value, Loads yaml settings tree value ∧ (ApiDocument.ofValue value).result = .ok document

def Plans (yaml : Yaml.Reader) (settings : Settings) (tree : FileTree) (plan : PackagePlan) : Prop :=
  ∃ document, Parses yaml settings tree document ∧
    (PackagePlan.ofDocument document settings.package).result = .ok plan

def Renders (yaml : Yaml.Reader) (settings : Settings) (tree : FileTree) (plan : PackagePlan)
    (modules : List (String × String)) : Prop :=
  Plans yaml settings tree plan ∧ plan.modules = .ok modules

/-- The stage at which a run stops, with its fault: there is no such level of the log, the file is not to be read,
it holds no document, the document describes no interface, there is no package for it, or a module has no text. -/
inductive Stops (yaml : Yaml.Reader) (settings : Settings) (tree : FileTree) : RunFault → Prop
  | level : levelGrades.lookup settings.logLevel = none → Stops yaml settings tree (.unknownLevel settings.logLevel)
  | file {grade : Nat} {fault : FileFault} : levelGrades.lookup settings.logLevel = some grade →
      tree.readFile settings.spec = .error fault → Stops yaml settings tree (.file fault)
  | load {octets : List UInt8} {fault : ReadFault} : Opens settings tree octets →
      readDocument yaml settings.spec octets = .error fault → Stops yaml settings tree (.read fault)
  | parse {value : Value} {failure : Failure} : Loads yaml settings tree value →
      (ApiDocument.ofValue value).result = .error failure → Stops yaml settings tree (.plan failure)
  | plan {document : ApiDocument} {failure : Failure} : Parses yaml settings tree document →
      (PackagePlan.ofDocument document settings.package).result = .error failure →
      Stops yaml settings tree (.plan failure)
  | render {plan : PackagePlan} {fault : Malformed} : Plans yaml settings tree plan → plan.modules = .error fault →
      Stops yaml settings tree (.output (.malformed fault))

/-- A run stops at a stage or passes all of them. -/
theorem stops_or_renders (yaml : Yaml.Reader) (settings : Settings) (tree : FileTree) :
    (∃ fault, Stops yaml settings tree fault) ∨ ∃ plan modules, Renders yaml settings tree plan modules := by
  cases known : levelGrades.lookup settings.logLevel with
  | none => exact .inl ⟨_, .level known⟩
  | some grade =>
  cases opened : tree.readFile settings.spec with
  | error fault => exact .inl ⟨_, .file known opened⟩
  | ok octets =>
  have opens : Opens settings tree octets := ⟨grade, known, opened⟩
  cases loaded : readDocument yaml settings.spec octets with
  | error fault => exact .inl ⟨_, .load opens loaded⟩
  | ok value =>
  have loads : Loads yaml settings tree value := ⟨octets, opens, loaded⟩
  cases parsed : (ApiDocument.ofValue value).result with
  | error failure => exact .inl ⟨_, .parse loads parsed⟩
  | ok document =>
  have parses : Parses yaml settings tree document := ⟨value, loads, parsed⟩
  cases planned : (PackagePlan.ofDocument document settings.package).result with
  | error failure => exact .inl ⟨_, .plan parses planned⟩
  | ok plan =>
  have plans : Plans yaml settings tree plan := ⟨document, parses, planned⟩
  cases rendered : plan.modules with
  | error fault => exact .inl ⟨_, .render plans rendered⟩
  | ok modules => exact .inr ⟨plan, modules, plans, rendered⟩

/-! What a run does after a failure. -/

inductive RunFault.Reported : RunFault → Prop
  | read (error : GenerationError) : Reported (.read (.generation error))
  | plan (error : GenerationError) : Reported (.plan (.generation error))
  | file (fault : FileFault) : Reported (.file fault)

structure EndsWith (fault : RunFault) (ending : Ending) : Prop where
  reported : fault.Reported → ∃ errors, ending = .finished 1 "" errors
  raised : ¬fault.Reported → ending = .brokenOff fault

theorem failed_endsWith (grade : Nat) (log : List LogRecord) (fault : RunFault) :
    EndsWith fault (failed grade log fault) := by
  constructor
  · intro reported
    cases reported <;> exact ⟨_, rfl⟩
  · intro raised
    unfold failed
    split
    · rename_i text told
      unfold RunFault.reported? at told
      split at told
      · exact absurd (.read _) raised
      · exact absurd (.plan _) raised
      · exact absurd (.file _) raised
      · cases told
    · rfl

theorem EndsWith.ne_finished {ending : Ending} (ends : EndsWith fault ending) (output errors : String) :
    ending ≠ .finished 0 output errors := by
  by_cases reported : fault.Reported
  · obtain ⟨told, rfl⟩ := ends.reported reported
    simp
  · rw [ends.raised reported]
    simp

theorem finish_generates {log : List LogRecord} {output errors : String}
    (finished : (finish grade log settings plan tree).ending = .finished 0 output errors) :
    plan.Generates settings.output tree (finish grade log settings plan tree).tree := by
  have unfailed : ∀ log fault, failed grade log fault ≠ .finished 0 output errors :=
    fun log fault => (failed_endsWith grade log fault).ne_finished output errors
  unfold finish at finished ⊢
  cases written : plan.writeSteps settings.output with
  | error fault =>
      simp only [written] at finished
      exact absurd finished (unfailed _ _)
  | ok steps =>
      simp only [written] at finished ⊢
      cases done : (tree.writeAll steps).fault with
      | some fault =>
          simp only [done] at finished
          exact absurd finished (unfailed _ _)
      | none => exact ⟨steps, written, done, rfl⟩

theorem runWith_level (unknown : levelGrades.lookup settings.logLevel = none) :
    runWith yaml settings tree = ⟨.brokenOff (.unknownLevel settings.logLevel), tree⟩ := by
  rw [runWith, unknown]

theorem runWith_file {failure : FileFault} (known : levelGrades.lookup settings.logLevel = some grade)
    (unopened : tree.readFile settings.spec = .error failure) :
    runWith yaml settings tree = ⟨failed grade [] (.file failure), tree⟩ := by
  rw [runWith, known]
  simp only [unopened]

theorem runWith_opens (opens : Opens settings tree octets) : ∃ grade,
    (∀ fault, (planFile yaml settings octets).1 = .error fault →
      runWith yaml settings tree = ⟨failed grade (planFile yaml settings octets).2 fault, tree⟩) ∧
    ∀ plan, (planFile yaml settings octets).1 = .ok plan →
      runWith yaml settings tree = finish grade (planFile yaml settings octets).2 settings plan tree := by
  obtain ⟨grade, known, opened⟩ := opens
  simp only [runWith, known, opened]
  generalize planFile yaml settings octets = planned
  obtain ⟨outcome, log⟩ := planned
  refine ⟨grade, fun fault failed => ?_, fun plan passed => ?_⟩
  · obtain rfl : outcome = .error fault := failed
    rfl
  · obtain rfl : outcome = .ok plan := passed
    rfl

theorem planFile_loaded {value : Value} (loaded : readDocument yaml settings.spec octets = .ok value) :
    (planFile yaml settings octets).1 = ((ApiDocument.ofValue value).result >>= fun document =>
      (PackagePlan.ofDocument document settings.package).result).mapError .plan := by
  simp only [planFile, loaded, Traced.result_bind]

theorem runWith_plans (plans : Plans yaml settings tree plan) :
    ∃ grade log, runWith yaml settings tree = finish grade log settings plan tree := by
  obtain ⟨document, ⟨value, ⟨octets, opens, loaded⟩, parsed⟩, planned⟩ := plans
  obtain ⟨grade, -, passed⟩ := runWith_opens opens
  refine ⟨grade, _, passed plan ?_⟩
  rw [planFile_loaded loaded, except_mapError_ok, except_bind_ok]
  exact ⟨document, parsed, planned⟩

theorem stopped_endsWith (opens : Opens settings tree octets)
    (stopped : (planFile yaml settings octets).1 = .error fault) :
    (runWith yaml settings tree).tree = tree ∧ EndsWith fault (runWith yaml settings tree).ending := by
  obtain ⟨grade, failing, -⟩ := runWith_opens opens
  rw [failing fault stopped]
  exact ⟨rfl, failed_endsWith _ _ _⟩

theorem runWith_stops (stops : Stops yaml settings tree fault) :
    (runWith yaml settings tree).tree = tree ∧ EndsWith fault (runWith yaml settings tree).ending := by
  cases stops with
  | level unknown =>
      rw [runWith_level unknown]
      refine ⟨rfl, ⟨fun reported => ?_, fun _ => rfl⟩⟩
      cases reported
  | file known failed =>
      rw [runWith_file known failed]
      exact ⟨rfl, failed_endsWith _ _ _⟩
  | @load octets own opens failed =>
      have stopped : (planFile yaml settings octets).1 = .error (.read own) := by simp only [planFile, failed]
      exact stopped_endsWith opens stopped
  | @parse value failure loads failed =>
      obtain ⟨octets, opens, loaded⟩ := loads
      have stopped : (planFile yaml settings octets).1 = .error (.plan failure) := by
        rw [planFile_loaded loaded, except_mapError_error]
        exact ⟨failure, except_bind_error.mpr (.inl failed), rfl⟩
      exact stopped_endsWith opens stopped
  | @plan document failure parses failed =>
      obtain ⟨value, ⟨octets, opens, loaded⟩, parsed⟩ := parses
      have stopped : (planFile yaml settings octets).1 = .error (.plan failure) := by
        rw [planFile_loaded loaded, except_mapError_error]
        exact ⟨failure, except_bind_error.mpr (.inr ⟨document, parsed, failed⟩), rfl⟩
      exact stopped_endsWith opens stopped
  | @render plan own plans failed =>
      obtain ⟨grade, log, same⟩ := runWith_plans plans
      have unwritten : plan.writeSteps settings.output = .error (.malformed own) := by
        rw [PackagePlan.writeSteps, failed]
        rfl
      rw [same, finish, unwritten]
      exact ⟨rfl, failed_endsWith grade log _⟩

theorem run_configured (configures : Configures arguments environment settings) (tree : FileTree) :
    run yaml arguments environment tree = runWith yaml settings tree := by
  obtain ⟨given, requested, configured⟩ := configures
  rw [run, requested]
  simp only [configured]

theorem run_stops (configures : Configures arguments environment settings) (stops : Stops yaml settings tree fault) :
    (run yaml arguments environment tree).tree = tree ∧
      EndsWith fault (run yaml arguments environment tree).ending := by
  rw [run_configured configures]
  exact runWith_stops stops

/-- Without settings nothing is done. -/
theorem configures_or_idle (yaml : Yaml.Reader) (arguments : List String) (environment : List (String × String))
    (tree : FileTree) :
    (∃ settings, Configures arguments environment settings) ∨ (run yaml arguments environment tree).tree = tree ∧
      ∀ output errors, (run yaml arguments environment tree).ending ≠ .finished 0 output errors := by
  unfold run
  cases requested : Request.ofArguments arguments with
  | help => exact .inr ⟨rfl, by simp⟩
  | misused => exact .inr ⟨rfl, by simp⟩
  | run given =>
      cases configured : Settings.ofSources given environment with
      | error fault => simp [configured]
      | ok settings => exact .inl ⟨settings, given, requested, configured⟩

theorem run_generates {output errors : String}
    (finished : (run yaml arguments environment tree).ending = .finished 0 output errors) :
    ∃ settings plan, Configures arguments environment settings ∧ Plans yaml settings tree plan ∧
      plan.Generates settings.output tree (run yaml arguments environment tree).tree := by
  obtain ⟨settings, configures⟩ := (configures_or_idle yaml arguments environment tree).resolve_right
    fun idle => idle.2 output errors finished
  rw [run_configured configures] at finished ⊢
  rcases stops_or_renders yaml settings tree with ⟨fault, stops⟩ | ⟨plan, modules, plans, -⟩
  · exact absurd finished ((runWith_stops stops).2.ne_finished output errors)
  · obtain ⟨grade, log, same⟩ := runWith_plans plans
    rw [same] at finished ⊢
    exact ⟨settings, plan, configures, plans, finish_generates finished⟩

/-- Nothing is written by a run that stops before all modules are rendered. With settings that are not valid it
ends at once. A fault of a later stage is reported if it is one of the document or of files, and breaks the run off
if it is not. -/
theorem run_writes_rendered (yaml : Yaml.Reader) (arguments : List String) (environment : List (String × String))
    (tree : FileTree) :
    (∀ given fault, Request.ofArguments arguments = .run given →
      Settings.ofSources given environment = .error fault →
      run yaml arguments environment tree = ⟨.finished 2 "" ("clientgen: " ++ fault.message ++ "\n"), tree⟩) ∧
    (∀ settings fault, Configures arguments environment settings → Stops yaml settings tree fault →
      (run yaml arguments environment tree).tree = tree ∧ EndsWith fault (run yaml arguments environment tree).ending) ∧
    ((run yaml arguments environment tree).tree = tree ∨ ∃ settings plan modules,
      Configures arguments environment settings ∧ Renders yaml settings tree plan modules) := by
  refine ⟨fun given fault requested invalid => ?_, fun settings fault => run_stops, ?_⟩
  · rw [run, requested]
    simp only [invalid]
  · rcases configures_or_idle yaml arguments environment tree with ⟨settings, configures⟩ | ⟨idle, -⟩
    · rcases stops_or_renders yaml settings tree with ⟨fault, stops⟩ | ⟨plan, modules, renders⟩
      · exact .inl (run_stops configures stops).1
      · exact .inr ⟨settings, plan, modules, configures, renders⟩
    · exact .inl idle

/-- A document in which a schema refers to another one that is not there. -/
def strayText : String :=
  "components:\n  schemas:\n    Pet:\n      $ref: '#/components/schemas/Owner'\n"

def strayOctets : List UInt8 := Text.encodeUtf8 strayText.toList

def strayTree : FileTree where
  workingDirectory := ["work"]
  entries := [(["work"], .directory), (["work", "api.yaml"], .file strayOctets)]

def plansInVain (file : Path) (octets : List UInt8) (package : String) : Bool :=
  match readDocument Yaml.reader file octets with
  | .error _ => false
  | .ok value =>
      match (ApiDocument.ofValue value).result with
      | .error _ => false
      | .ok document =>
          match (PackagePlan.ofDocument document package).result with
          | .error (.generation _) => true
          | _ => false

theorem strayTree_untouched :
    run Yaml.reader ["--spec", "api.yaml", "--package", "a..b"] [] strayTree =
        ⟨.finished 2 "" "clientgen: Invalid package name: 'a..b'\n", strayTree⟩ ∧
      (run Yaml.reader ["--spec", "api.yaml"] [] strayTree).tree = strayTree ∧
      ∃ errors, (run Yaml.reader ["--spec", "api.yaml"] [] strayTree).ending = .finished 1 "" errors := by
  constructor
  · obtain ⟨invalid, -⟩ := run_writes_rendered Yaml.reader ["--spec", "api.yaml", "--package", "a..b"] [] strayTree
    exact invalid ⟨some "api.yaml", none, some "a..b", none⟩ (.invalidPackage "a..b") rfl rfl
  · have configures : Configures ["--spec", "api.yaml"] []
        ⟨.ofText "api.yaml", .ofText "generated", "client", "WARNING"⟩ :=
      ⟨⟨some "api.yaml", none, none, none⟩, rfl, rfl⟩
    have planned : plansInVain (.ofText "api.yaml") strayOctets "client" = true := by decide +kernel
    obtain ⟨value, document, error, loaded, parsed, failed⟩ : ∃ value document error,
        readDocument Yaml.reader (.ofText "api.yaml") strayOctets = .ok value ∧
          (ApiDocument.ofValue value).result = .ok document ∧
          (PackagePlan.ofDocument document "client").result = .error (.generation error) := by
      unfold plansInVain at planned
      split at planned
      · cases planned
      · rename_i value loaded
        split at planned
        · cases planned
        · rename_i document parsed
          split at planned
          · rename_i error failed
            exact ⟨value, document, error, loaded, parsed, failed⟩
          · cases planned
    obtain ⟨-, stopped, -⟩ := run_writes_rendered Yaml.reader ["--spec", "api.yaml"] [] strayTree
    obtain ⟨untouched, ends⟩ := stopped _ _ configures
      (.plan ⟨value, ⟨strayOctets, ⟨30, rfl, rfl⟩, loaded⟩, parsed⟩ failed)
    exact ⟨untouched, ends.reported (.plan error)⟩

end OpenApiClient.CommandLine
