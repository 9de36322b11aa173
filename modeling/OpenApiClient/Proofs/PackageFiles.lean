import OpenApiClient.Proofs.FileTrees
import OpenApiClient.Proofs.ServiceModules

/-! The files of a package. Its modules have files right in the directory of the package or in the one of its
models, whatever the names in the document are. Nothing else in the file tree is written but the empty files of the
packages around it, and those only where there are none. -/

namespace OpenApiClient.PackagePlan

open Naming (IsSnakeName)
open OpenApiClient.Path (IsName)

/-! The parts of dotted names. -/

def IsDottedName (name : String) : Prop := ∀ part ∈ nameParts name, part ≠ "" ∧ '/' ∉ part.toList

variable {package name part stem : String} {names : List String}

theorem exists_last_part (name : String) : ∃ front last, nameParts name = front ++ [last] := by
  have parted : nameParts name ≠ [] := by simpa [nameParts] using Text.splitAt_ne_nil '.' name.toList
  exact ⟨_, _, (List.dropLast_append_getLast parted).symm⟩

theorem nameParts_dotless (member : part ∈ nameParts name) : '.' ∉ part.toList := by
  obtain ⟨letters, among, rfl⟩ := List.mem_map.mp member
  simpa using Text.splitAt_absent among

theorem nameParts_whole (dotless : '.' ∉ name.toList) : nameParts name = [name] := by
  simp [nameParts, Text.splitAt_whole dotless]

theorem nameParts_joined {rest : String} (joined : name.toList = package.toList ++ '.' :: rest.toList) :
    nameParts name = nameParts package ++ nameParts rest := by
  simp [nameParts, joined, Text.splitAt_joined]

theorem isName_of_dotless (filled : name ≠ "") (slashless : '/' ∉ name.toList) (dotless : '.' ∉ name.toList) :
    IsName name := by
  refine ⟨filled, ?_, ?_, slashless⟩
  · rintro rfl
    exact dotless (by decide)
  · rintro rfl
    exact dotless (by decide)

theorem IsDottedName.isName (dotted : IsDottedName package) : ∀ part ∈ nameParts package, IsName part := by
  intro part member
  obtain ⟨filled, slashless⟩ := dotted part member
  exact isName_of_dotless filled slashless (nameParts_dotless member)

theorem isDottedName_of_parts (own : ∀ part ∈ nameParts name, IsName part) : IsDottedName name :=
  fun part member => ⟨(own part member).filled, (own part member).slashless⟩

theorem isDottedName_of_identifiers
    (identifiers : ∀ part ∈ nameParts name, Settings.isAsciiIdentifier part.toList = true) :
    IsDottedName name := by
  intro part member
  have identifier := identifiers part member
  cases letters : part.toList with
  | nil => simp [letters, Settings.isAsciiIdentifier] at identifier
  | cons c rest =>
      rw [letters, Naming.isAsciiIdentifier_cons] at identifier
      refine ⟨fun empty => by simp [empty] at letters, fun slash => ?_⟩
      exact absurd (identifier.2 '/' slash) (by decide)

theorem initName_isName : IsName initName := ⟨by decide, by decide, by decide, by decide⟩

theorem snakeName_without {c : Char} (own : IsSnakeName stem) (other : Naming.isSnakeCharacter c = false) :
    c ∉ stem.toList := by
  intro member
  rw [own.snake c member] at other
  contradiction

theorem snakeName_isName (own : IsSnakeName stem) : IsName stem :=
  isName_of_dotless own.filled (snakeName_without own (by decide)) (snakeName_without own (by decide))

theorem sourceName_isName (own : IsSnakeName stem) : IsName (stem ++ ".py") := by
  have suffixed : ∀ name, name.length < 3 → stem ++ ".py" ≠ name := by
    rintro _ short rfl
    have three : ".py".length = 3 := by decide
    rw [String.length_append] at short
    omega
  refine ⟨suffixed _ (by decide), suffixed _ (by decide), suffixed _ (by decide), ?_⟩
  simp [(snakeName_isName own).slashless]

/-- The stem of a module does not end in an underscore, as that of the file of a directory does. -/
theorem sourceName_ne_initName (own : IsSnakeName stem) : stem ++ ".py" ≠ initName := by
  intro same
  obtain rfl : stem = "__init__" := String.append_left_inj ".py" |>.mp same
  exact own.closed (by simp [Naming.EndsOpen])

/-! The files of modules. -/

def folders : List (String × List String) := [("", []), (".model", ["model"])]

inductive HasFile (package : String) : String → List String → Prop
  | directory {ending : String} {folder : List String} : (ending, folder) ∈ folders →
      HasFile package (package ++ ending) (folder ++ [initName])
  | source {ending stem : String} {folder : List String} : (ending, folder) ∈ folders → IsSnakeName stem →
      ending ++ "." ++ stem ≠ ".model" →
      HasFile package (package ++ ending ++ "." ++ stem) (folder ++ [stem ++ ".py"])

section

variable {ending : String} {folder : List String}

theorem mem_folders :
    (ending, folder) ∈ folders ↔ (ending = "" ∧ folder = []) ∨ (ending = ".model" ∧ folder = ["model"]) := by
  simp [folders]

theorem folders_ending {other : String} (known : (ending, folder) ∈ folders) (also : (other, folder) ∈ folders) :
    ending = other := by
  have endings : ∀ entry ∈ folders, ∀ other ∈ folders, entry.2 = other.2 → entry.1 = other.1 := by decide
  exact endings _ known _ also rfl

theorem folders_isName : ∀ entry ∈ folders, ∀ part ∈ entry.2, IsName part := by
  have model : IsName "model" := ⟨by decide, by decide, by decide, by decide⟩
  simpa [folders] using model

theorem nameParts_folder (known : (ending, folder) ∈ folders) (package : String) :
    nameParts (package ++ ending) = nameParts package ++ folder := by
  obtain ⟨rfl, rfl⟩ | ⟨rfl, rfl⟩ := mem_folders.mp known
  · simp
  · have joined : (package ++ ".model").toList = package.toList ++ '.' :: "model".toList := by simp
    have last : nameParts "model" = ["model"] := nameParts_whole (by decide)
    rw [nameParts_joined joined, last]

theorem nameParts_source (known : (ending, folder) ∈ folders) (own : IsSnakeName stem) (package : String) :
    nameParts (package ++ ending ++ "." ++ stem) = nameParts package ++ folder ++ [stem] := by
  have joined : (package ++ ending ++ "." ++ stem).toList = (package ++ ending).toList ++ '.' :: stem.toList := by
    simp
  have last : nameParts stem = [stem] := nameParts_whole (snakeName_without own (by decide))
  rw [nameParts_joined joined, nameParts_folder known, last]

theorem IsDottedName.directoryName (dotted : IsDottedName package) (known : (ending, folder) ∈ folders) :
    IsDottedName (package ++ ending) := by
  refine isDottedName_of_parts ?_
  rw [nameParts_folder known]
  exact List.forall_mem_append.mpr ⟨dotted.isName, folders_isName _ known⟩

theorem IsDottedName.moduleName (dotted : IsDottedName package) (known : (ending, folder) ∈ folders)
    (own : IsSnakeName stem) : IsDottedName (package ++ ending ++ "." ++ stem) := by
  refine isDottedName_of_parts ?_
  rw [nameParts_source known own, ← nameParts_folder known]
  exact List.forall_mem_append.mpr ⟨(dotted.directoryName known).isName, by simpa using snakeName_isName own⟩

end

namespace HasFile

theorem isName (own : HasFile package name names) : ∀ part ∈ names, IsName part := by
  cases own with
  | directory known =>
      exact List.forall_mem_append.mpr ⟨folders_isName _ known, by simpa using initName_isName⟩
  | source known own _ =>
      exact List.forall_mem_append.mpr ⟨folders_isName _ known, by simpa using sourceName_isName own⟩

theorem ne_nil (own : HasFile package name names) : names ≠ [] := by
  cases own <;> simp

theorem unique {other : String} (first : HasFile package name names) (second : HasFile package other names) :
    name = other := by
  generalize same : names = others at second
  cases first with
  | directory known =>
      cases second with
      | directory also =>
          obtain ⟨rfl, -⟩ := List.append_inj' same rfl
          rw [folders_ending known also]
      | source also own _ =>
          obtain ⟨-, file⟩ := List.append_inj' same rfl
          exact absurd (List.singleton_inj.mp file).symm (sourceName_ne_initName own)
  | source known own _ =>
      cases second with
      | directory also =>
          obtain ⟨-, file⟩ := List.append_inj' same rfl
          exact absurd (List.singleton_inj.mp file) (sourceName_ne_initName own)
      | source also others _ =>
          obtain ⟨rfl, file⟩ := List.append_inj' same rfl
          rw [folders_ending known also, String.append_left_inj ".py" |>.mp (List.singleton_inj.mp file)]

theorem beside (own : IsSnakeName stem) (different : stem ≠ "model") :
    HasFile package (package ++ "." ++ stem) [stem ++ ".py"] := by
  have apart : "" ++ "." ++ stem ≠ ".model" := fun same =>
    different (String.append_right_inj "." |>.mp (by simpa using same))
  have file : HasFile package (package ++ "" ++ "." ++ stem) ([] ++ [stem ++ ".py"]) :=
    .source (by simp [folders]) own apart
  simpa using file

theorem model (own : IsSnakeName stem) :
    HasFile package (package ++ ".model." ++ stem) ["model", stem ++ ".py"] := by
  have apart : ".model" ++ "." ++ stem ≠ ".model" := by
    intro same
    have letters := congrArg String.toList same
    simp at letters
  have file : HasFile package (package ++ ".model" ++ "." ++ stem) (["model"] ++ [stem ++ ".py"]) :=
    .source (by simp [folders]) own apart
  simpa [String.append_assoc] using file

theorem shared {ending : String} (known : ending ∈ Naming.sharedEndings) (package : String) :
    ∃ names, HasFile package (package ++ ending) names := by
  have security : IsSnakeName "security" :=
    ⟨by decide, List.all_eq_true.mp (by decide), by simp [Naming.EndsOpen], by decide⟩
  have servers : IsSnakeName "servers" :=
    ⟨by decide, List.all_eq_true.mp (by decide), by simp [Naming.EndsOpen], by decide⟩
  have directory : ∀ entry ∈ folders, HasFile package (package ++ entry.1) (entry.2 ++ [initName]) :=
    fun _ among => .directory among
  simp only [Naming.sharedEndings, List.mem_cons, List.not_mem_nil, or_false] at known
  rcases known with rfl | rfl | rfl | rfl
  · exact ⟨_, directory ("", []) (by decide)⟩
  · have file : HasFile package (package ++ "." ++ "security") _ := beside security (by decide)
    rw [String.append_assoc] at file
    exact ⟨_, file⟩
  · have file : HasFile package (package ++ "." ++ "servers") _ := beside servers (by decide)
    rw [String.append_assoc] at file
    exact ⟨_, file⟩
  · exact ⟨_, directory (".model", ["model"]) (by decide)⟩

end HasFile

variable {document : ApiDocument} {plan : PackagePlan} {output : Path} {tree after : FileTree}

theorem joinAll_source (dotted : IsDottedName name) {front : List String} {last : String}
    (split : nameParts name = front ++ [last]) (output : Path) :
    (output.joinAll (nameParts name)).withSuffix? ".py" = some (output.below (front ++ [last ++ ".py"])) := by
  have member : last ∈ nameParts name := by simp [split]
  rw [Path.joinAll_names dotted.isName, split,
    Path.withSuffix?_source (dotted.isName last member).filled (nameParts_dotless member)]

theorem modulePath_file (dotted : IsDottedName plan.package) (own : HasFile plan.package name names)
    (output : Path) : plan.modulePath output name = .ok (output.below (nameParts plan.package ++ names)) := by
  cases own with
  | @directory ending folder known =>
      obtain ⟨front, last, split⟩ := exists_last_part (plan.package ++ ending)
      have whole := dotted.directoryName known
      have filled : last ≠ "" := (whole last (by simp [split])).1
      have special : plan.package ++ ending = plan.package ∨
          plan.package ++ ending = plan.package ++ ".model" := by
        obtain ⟨rfl, -⟩ | ⟨rfl, -⟩ := mem_folders.mp known
        · exact .inl (String.append_empty)
        · exact .inr rfl
      simp only [modulePath, joinAll_source whole split, if_pos special, Path.withSuffix?_none filled]
      rw [← List.append_assoc, ← nameParts_folder known, split, Path.join_name initName_isName, Path.below_below]
      rfl
  | @source ending stem folder known own apart =>
      have whole := dotted.moduleName known own
      have plain : ¬(plan.package ++ ending ++ "." ++ stem = plan.package ∨
          plan.package ++ ending ++ "." ++ stem = plan.package ++ ".model") := by
        rintro (same | same)
        · have letters := congrArg String.toList same
          simp at letters
        · rw [String.append_assoc, String.append_assoc, String.append_right_inj, ← String.append_assoc] at same
          exact apart same
      simp only [modulePath, joinAll_source whole (nameParts_source known own plan.package), if_neg plain]
      rw [← List.append_assoc]
      rfl

theorem modules_files (planned : (ofDocument document package).result = .ok plan) (filled : package ≠ "")
    {modules : List (String × String)} (rendered : plan.modules = .ok modules) :
    ∀ name ∈ modules.map Prod.fst, ∃ names, HasFile package name names := by
  obtain ⟨registry, _, _, made, modelled, -⟩ := ofDocument_ok planned
  obtain ⟨title, models, services, ofModels, ofServices, rfl⟩ := modules_parts rendered
  have packaged := ofDocument_package planned
  intro name member
  rw [Entries.mem_keys_ofPairs, List.map_append, List.map_append, List.mem_append, List.mem_append] at member
  rcases member with (shared | model) | service
  · have endings : (plan.sharedModules title).map Prod.fst = Naming.sharedEndings.map (package ++ ·) := by
      simp [sharedModules, packaged, Naming.sharedEndings]
    rw [endings] at shared
    obtain ⟨ending, known, rfl⟩ := List.mem_map.mp shared
    exact HasFile.shared known package
  · rw [← map_eq_of_forall₂ (ofModels.imp fun _ _ both => both.1), models_moduleName made modelled] at model
    obtain ⟨schemaName, -, rfl⟩ := List.mem_map.mp model
    rw [Naming.modelEnding, if_neg filled, ← String.append_assoc]
    exact ⟨_, .model (Naming.modelModule_isSnakeName schemaName)⟩
  · rw [← map_eq_of_forall₂ (ofServices.imp fun _ _ both => both.1), packaged] at service
    obtain ⟨own, among, rfl⟩ := List.mem_map.mp service
    have named : own.moduleName ∈ plan.services.map ServiceModule.moduleName := List.mem_map_of_mem among
    refine ⟨_, .beside (services_snakeNames planned _ named) fun same => ?_⟩
    have underscore := ((services_joinedWords planned).2 _ named).1
    exact absurd underscore (by rw [same]; decide)

/-! The steps of writing a package. -/

structure Stores (plan : PackagePlan) (output : Path) (module : String × String) (step : WriteStep) : Prop where
  path : plan.modulePath output module.1 = .ok step.path
  file : ∃ names, HasFile plan.package module.1 names
  always : step.onlyIfAbsent = false

def initStep (path : Path) : WriteStep := { path, text := "", onlyIfAbsent := true }

def allSteps (plan : PackagePlan) (output : Path) (files : List WriteStep) : List WriteStep :=
  files ++ (plan.parentInits output).map initStep

theorem IsDottedName.filled (dotted : IsDottedName package) : package ≠ "" := by
  rintro rfl
  exact (dotted "" (by decide)).1 rfl

theorem writeSteps_ok (planned : (ofDocument document package).result = .ok plan) (filled : package ≠ "")
    {steps : List WriteStep} (written : plan.writeSteps output = .ok steps) :
    ∃ modules files, plan.modules = .ok modules ∧ List.Forall₂ (plan.Stores output) modules files ∧
      steps = plan.allSteps output files := by
  have packaged := ofDocument_package planned
  obtain ⟨modules, rendered, written⟩ := except_bind_ok.mp written
  obtain ⟨files, stored, same⟩ := except_bind_ok.mp written
  rw [except_mapError_ok] at rendered
  refine ⟨modules, files, rendered, ?_, (except_pure_ok.mp same).symm⟩
  refine forall₂_imp_of_mem ((mapM_ok_iff _ _ _).mp stored) fun module member step done => ?_
  obtain ⟨path, placed, same⟩ := except_bind_ok.mp done
  obtain rfl := except_pure_ok.mp same
  have file := modules_files planned filled rendered module.1 (List.mem_map_of_mem member)
  exact ⟨placed, packaged ▸ file, rfl⟩

theorem Stores.path_eq {module : String × String} {step : WriteStep} (stored : plan.Stores output module step)
    (dotted : IsDottedName plan.package) (own : HasFile plan.package module.1 names) :
    step.path = output.below (nameParts plan.package ++ names) := by
  have path := stored.path
  rw [modulePath_file dotted own] at path
  exact (Except.ok.inj path).symm

theorem parentInits_dotted (dotted : IsDottedName plan.package) (output : Path) :
    plan.parentInits output = (List.range ((nameParts plan.package).length - 1)).map fun depth =>
      output.below ((nameParts plan.package).take (depth + 1) ++ [initName]) := by
  refine List.map_congr_left fun depth _ => ?_
  have within : ∀ part ∈ (nameParts plan.package).take (depth + 1), IsName part :=
    fun part member => dotted.isName part (List.mem_of_mem_take member)
  rw [Path.joinAll_names within, Path.join_name initName_isName, Path.below_below]

/-! Where the steps write to. -/

section

variable (dotted : IsDottedName plan.package)
include dotted

theorem target_file (tree : FileTree) (output : Path) (own : HasFile plan.package name names) :
    tree.target (output.below (nameParts plan.package ++ names)) =
      tree.target output ++ nameParts plan.package ++ names := by
  rw [FileTree.target_below (List.forall_mem_append.mpr ⟨dotted.isName, own.isName⟩), List.append_assoc]

theorem target_init (tree : FileTree) (output : Path) (depth : Nat) :
    tree.target (output.below ((nameParts plan.package).take depth ++ [initName])) =
      tree.target output ++ (nameParts plan.package).take depth ++ [initName] := by
  have within : ∀ part ∈ (nameParts plan.package).take depth ++ [initName], IsName part := by
    refine List.forall_mem_append.mpr ⟨fun part member => dotted.isName part (List.mem_of_mem_take member), ?_⟩
    simpa using initName_isName
  rw [FileTree.target_below within, List.append_assoc]

theorem files_apart {modules : List (String × String)} {files : List WriteStep}
    (distinct : (modules.map Prod.fst).Nodup) (stored : List.Forall₂ (plan.Stores output) modules files)
    (tree : FileTree) : (files.map fun step => tree.target step.path).Nodup := by
  refine nodup_of_forall₂ stored distinct fun first second step other ofFirst ofSecond same => ?_
  obtain ⟨names, own⟩ := ofFirst.file
  obtain ⟨others, also⟩ := ofSecond.file
  rw [ofFirst.path_eq dotted own, ofSecond.path_eq dotted also, target_file dotted tree output own,
    target_file dotted tree output also, List.append_cancel_left_eq] at same
  exact own.unique (same ▸ also)

theorem inits_apart (tree : FileTree) (output : Path) :
    (((plan.parentInits output).map initStep).map fun step => tree.target step.path).Nodup := by
  rw [parentInits_dotted dotted, List.map_map, List.map_map]
  refine List.Nodup.map_on (fun depth within other also same => ?_) List.nodup_range
  rw [List.mem_range] at within also
  have lengths := congrArg List.length same
  simp only [Function.comp_apply, initStep, target_init dotted, List.length_append, List.length_take] at lengths
  omega

theorem init_shallow {path : Path} (around : path ∈ plan.parentInits output) (tree : FileTree) :
    (tree.target path).length ≤ (tree.target output ++ nameParts plan.package).length := by
  rw [parentInits_dotted dotted] at around
  obtain ⟨depth, within, rfl⟩ := List.mem_map.mp around
  rw [List.mem_range] at within
  rw [target_init dotted]
  simp only [List.length_append, List.length_take, List.length_singleton]
  omega

theorem inits_apart_files {modules : List (String × String)} {files : List WriteStep}
    (stored : List.Forall₂ (plan.Stores output) modules files) {path : Path}
    (around : path ∈ plan.parentInits output) {step : WriteStep} (member : step ∈ files) (tree : FileTree) :
    tree.target step.path ≠ tree.target path := by
  intro same
  obtain ⟨module, -, stores⟩ := forall₂_of_mem_right stored member
  obtain ⟨names, own⟩ := stores.file
  have filled : 0 < names.length := List.length_pos_of_ne_nil own.ne_nil
  have shallow := init_shallow dotted around tree
  rw [← same, stores.path_eq dotted own, target_file dotted tree output own, List.length_append] at shallow
  omega

/-- The file of a package around is missing before it is written: all directories down to that of the package
are there by then. -/
theorem init_absent (directory : tree.isDirectory (output.below (nameParts plan.package)) = true) {path : Path}
    (around : path ∈ plan.parentInits output) (held : after.Holds (initStep path))
    (unfound : tree.exists? path = false) : tree.entry? (tree.target path) = none := by
  rw [parentInits_dotted dotted] at around
  obtain ⟨depth, -, rfl⟩ := List.mem_map.mp around
  rw [← List.take_append_drop (depth + 1) (nameParts plan.package)] at directory
  by_contra present
  have found := FileTree.exists?_iff.mpr ⟨FileTree.locate_beside directory held.located, present⟩
  rw [unfound] at found
  contradiction

theorem package_stored {modules : List (String × String)} (rendered : plan.modules = .ok modules)
    {files : List WriteStep} (stored : List.Forall₂ (plan.Stores output) modules files) :
    ∃ step ∈ files, step.onlyIfAbsent = false ∧
      step.path = output.below (nameParts plan.package ++ [initName]) := by
  have key : plan.package ∈ modules.map Prod.fst := by
    obtain ⟨_, _, _, -, -, rfl⟩ := modules_parts rendered
    rw [Entries.mem_keys_ofPairs]
    simp [sharedModules]
  obtain ⟨module, member, same⟩ := List.mem_map.mp key
  obtain ⟨step, among, stores⟩ := forall₂_of_mem_left stored member
  have own : HasFile plan.package module.1 [initName] := by
    have file : HasFile plan.package (plan.package ++ "") ([] ++ [initName]) := .directory (by simp [folders])
    rw [same]
    rwa [String.append_empty] at file
  exact ⟨step, among, stores.always, stores.path_eq dotted own⟩

theorem directory_made {modules : List (String × String)} (rendered : plan.modules = .ok modules)
    {files : List WriteStep} (stored : List.Forall₂ (plan.Stores output) modules files)
    (settled : ∀ step ∈ files, tree.Settled step) :
    tree.isDirectory (output.below (nameParts plan.package)) = true := by
  obtain ⟨step, member, always, path⟩ := package_stored dotted rendered stored
  have held := settled step member
  rw [FileTree.Settled, if_neg (by simp [always])] at held
  have above := held.above
  rwa [path, Path.parent_below] at above

end

/-! What a whole run changes. -/

def Generates (plan : PackagePlan) (output : Path) (tree after : FileTree) : Prop :=
  ∃ steps, plan.writeSteps output = .ok steps ∧ (tree.writeAll steps).fault = none ∧
    (tree.writeAll steps).tree = after

def IsSourceName (file : String) : Prop :=
  ∃ stem, stem ≠ "" ∧ (∀ c ∈ stem.toList, Naming.isIdentifierCharacter c = true) ∧ file = stem ++ ".py"

/-- What may come of a place when a package is written: nothing, a directory where there was nothing, a file of
the package in its directory or in that of its models, or the empty file of a package around it that had none. -/
inductive Effect (plan : PackagePlan) (output : Path) (tree after : FileTree) (directory location : Location) :
    Prop
  | same : after.entry? location = tree.entry? location → Effect plan output tree after directory location
  | directory : tree.entry? location = none → after.entry? location = some .directory →
      Effect plan output tree after directory location
  | module {file : String} {octets : List UInt8} : IsSourceName file →
      location ∈ [directory ++ [file], directory ++ ["model", file]] →
      after.entry? location = some (.file octets) → Effect plan output tree after directory location
  | parent {path : Path} : path ∈ plan.parentInits output → after.locate path = .ok location →
      tree.entry? location = none → after.entry? location = some (.file []) →
      Effect plan output tree after directory location

theorem HasFile.spelled (own : HasFile package name names) :
    ∃ file, IsSourceName file ∧ names ∈ [[file], ["model", file]] := by
  have places : ∀ entry ∈ folders, ∀ file, entry.2 ++ [file] ∈ [[file], ["model", file]] := by simp [folders]
  cases own with
  | directory known =>
      have letters := List.all_eq_true.mp (show "__init__".toList.all Naming.isIdentifierCharacter = true by decide)
      exact ⟨initName, ⟨"__init__", by decide, letters, by decide⟩, places _ known initName⟩
  | @source _ stem _ known own _ =>
      have letters := fun c member => Naming.snake_identifier (own.snake c member)
      exact ⟨stem ++ ".py", ⟨stem, own.filled, letters, rfl⟩, places _ known (stem ++ ".py")⟩

theorem Stores.location (dotted : IsDottedName plan.package) {module : String × String} {step : WriteStep}
    (stored : plan.Stores output module step) (tree : FileTree) :
    ∃ file, IsSourceName file ∧ tree.target step.path ∈
      [tree.target output ++ nameParts plan.package ++ [file],
        tree.target output ++ nameParts plan.package ++ ["model", file]] := by
  obtain ⟨names, own⟩ := stored.file
  obtain ⟨file, spelled, places⟩ := own.spelled
  refine ⟨file, spelled, ?_⟩
  rw [stored.path_eq dotted own, target_file dotted tree output own]
  simpa using places

section

variable {modules : List (String × String)} {files : List WriteStep}
  (dotted : IsDottedName plan.package) (rendered : plan.modules = .ok modules)
  (stored : List.Forall₂ (plan.Stores output) modules files)
include dotted rendered stored

theorem steps_apart (tree : FileTree) :
    ((plan.allSteps output files).map fun step => tree.target step.path).Nodup := by
  have distinct : (modules.map Prod.fst).Nodup := by
    obtain ⟨_, _, _, -, -, rfl⟩ := modules_parts rendered
    exact Entries.keys_ofPairs_nodup _
  rw [allSteps, List.map_append, List.nodup_append]
  refine ⟨files_apart dotted distinct stored tree, inits_apart dotted tree output, ?_⟩
  intro location ofFile other ofInit same
  obtain ⟨step, member, rfl⟩ := List.mem_map.mp ofFile
  obtain ⟨_, init, rfl⟩ := List.mem_map.mp ofInit
  obtain ⟨path, around, rfl⟩ := List.mem_map.mp init
  exact inits_apart_files dotted stored around member tree same

theorem steps_effect (done : (tree.writeAll (plan.allSteps output files)).fault = none) (location : Location) :
    plan.Effect output tree (tree.writeAll (plan.allSteps output files)).tree
      (tree.target output ++ nameParts plan.package) location := by
  obtain ⟨faults, trees⟩ := tree.writeAll_append files ((plan.parentInits output).map initStep)
  rw [allSteps, faults, Option.or_eq_none_iff] at done
  obtain ⟨ofFiles, ofInits⟩ := done
  rw [allSteps, trees ofFiles]
  have kept : tree.Extends (tree.writeAll files).tree := FileTree.writeAll_extends ofFiles
  have apart := steps_apart dotted rendered stored tree
  rw [allSteps, List.map_append] at apart
  have settled := FileTree.writeAll_settles ofFiles apart.of_append_left
  -- What the steps for the packages around leave alone was made by those for the modules.
  cases FileTree.writeAll_changes ofInits location with
  | directory none made => exact .directory (kept.absent none) made
  | file step member place held only =>
      obtain ⟨path, around, rfl⟩ := List.mem_map.mp member
      have absent := init_absent dotted (directory_made dotted rendered stored settled) around held (only rfl)
      have located := held.located
      have text := held.text
      rw [(FileTree.writeAll_extends ofInits).target] at located text
      exact .parent around (place ▸ located) (kept.absent (place ▸ absent)) (place ▸ text)
  | same unchanged =>
      cases FileTree.writeAll_changes ofFiles location with
      | same before => exact .same (unchanged.trans before)
      | directory none made => exact .directory none (unchanged.trans made)
      | file step member place held _ =>
          obtain ⟨module, -, stores⟩ := forall₂_of_mem_right stored member
          obtain ⟨file, spelled, places⟩ := stores.location dotted tree
          have text := held.text
          rw [kept.target, ← place] at text
          exact .module spelled (place ▸ places) (unchanged.trans text)

theorem directory_located (done : (tree.writeAll (plan.allSteps output files)).fault = none) :
    (tree.writeAll (plan.allSteps output files)).tree.locate (output.joinAll (nameParts plan.package)) =
      .ok (tree.target output ++ nameParts plan.package) := by
  have settled := FileTree.writeAll_settles done (steps_apart dotted rendered stored tree)
  have directory := directory_made dotted rendered stored fun step member =>
    settled step (List.mem_append_left _ member)
  obtain ⟨located, -⟩ := FileTree.isDirectory_iff.mp directory
  rwa [(FileTree.writeAll_extends done).target, FileTree.target_below dotted.isName,
    ← Path.joinAll_names dotted.isName] at located

theorem init_kept (done : (tree.writeAll (plan.allSteps output files)).fault = none) {path : Path}
    (around : path ∈ plan.parentInits output) (present : tree.entry? (tree.target path) ≠ none) :
    FileTree.entry? (tree.writeAll (plan.allSteps output files)).tree (tree.target path) =
      tree.entry? (tree.target path) := by
  cases steps_effect dotted rendered stored done (tree.target path) with
  | same unchanged => exact unchanged
  | directory none _ => exact absurd none present
  | parent _ _ none _ => exact absurd none present
  | module _ places _ =>
      have shallow := init_shallow dotted around tree
      rcases List.mem_pair.mp places with same | same
      · simp [same] at shallow
      · simp [same] at shallow

end

/-- Writing a package touches nothing but its own files and the missing files of the packages around it, and
writing it again touches nothing. -/
theorem generates_confined (planned : (ofDocument document package).result = .ok plan)
    (dotted : IsDottedName package) (generated : plan.Generates output tree after) :
    (∃ directory, after.locate (output.joinAll (nameParts package)) = .ok directory ∧
      ∀ location, plan.Effect output tree after directory location) ∧
    (∀ path ∈ plan.parentInits output, ∀ location, tree.locate path = .ok location → tree.entry? location ≠ none →
      after.entry? location = tree.entry? location) ∧
    ∀ again, plan.Generates output after again ↔ again = after := by
  obtain ⟨steps, written, done, rfl⟩ := generated
  obtain ⟨modules, files, rendered, stored, rfl⟩ := writeSteps_ok planned dotted.filled written
  obtain rfl := ofDocument_package planned
  refine ⟨⟨_, directory_located dotted rendered stored done, steps_effect dotted rendered stored done⟩, ?_, ?_⟩
  · intro path around location located present
    obtain rfl := FileTree.locate_ok located
    exact init_kept dotted rendered stored done around present
  · intro again
    have settled := FileTree.writeAll_settles done (steps_apart dotted rendered stored tree)
    obtain ⟨same, finished⟩ := FileTree.writeAll_idle settled
    constructor
    · rintro ⟨others, rewritten, -, rfl⟩
      rw [written] at rewritten
      rw [← Except.ok.inj rewritten, same]
    · rintro rfl
      exact ⟨_, written, finished, same⟩

/-- A document with names that look like paths out of a directory. -/
def trailDocument : ApiDocument where
  title := .string "Trails"
  version := "1"
  schemas := [(.string "../../trail", { keywords := { type := .string "integer" } })]
  distinctSchemas := by decide +kernel
  operations := [{ method := "GET", path := .string "/../__init__/trails" }]

def acmeTree : FileTree where
  workingDirectory := ["work"]
  entries := [(["work"], .directory), (["work", "out"], .directory), (["work", "out", "acme"], .directory),
    (["work", "out", "acme", "__init__.py"], .file [35])]

theorem trailDocument_confined :
    ∃ plan after, (ofDocument trailDocument "acme.trails").result = .ok plan ∧ IsDottedName "acme.trails" ∧
      plan.Generates (.ofText "out") acmeTree after ∧
      after.entry? ["work", "out", "acme", "__init__.py"] = some (.file [35]) ∧
      (∃ directory, after.locate (.ofText "out/acme/trails") = .ok directory ∧
        ∀ location, plan.Effect (.ofText "out") acmeTree after directory location) ∧
      ∀ again, plan.Generates (.ofText "out") after again ↔ again = after := by
  have dotted : IsDottedName "acme.trails" := isDottedName_of_identifiers (by decide +kernel)
  obtain ⟨plan, steps, planned, written, done⟩ : ∃ plan steps,
      (ofDocument trailDocument "acme.trails").result = .ok plan ∧ plan.writeSteps (.ofText "out") = .ok steps ∧
        (acmeTree.writeAll steps).fault = none := ⟨_, _, rfl, rfl, rfl⟩
  have generated : plan.Generates (.ofText "out") acmeTree (acmeTree.writeAll steps).tree :=
    ⟨steps, written, done, rfl⟩
  obtain ⟨confined, kept, idle⟩ := generates_confined planned dotted generated
  refine ⟨plan, _, planned, dotted, generated, ?_, confined, idle⟩
  have around : .ofText "out/acme/__init__.py" ∈ plan.parentInits (.ofText "out") := by
    rw [parentInits, ofDocument_package planned]
    decide +kernel
  exact kept _ around ["work", "out", "acme", "__init__.py"] rfl (by decide)

end OpenApiClient.PackagePlan
