import OpenApiClient.FileTree.Output
import OpenApiClient.Proofs.Outcome
import OpenApiClient.Proofs.Paths

/-! What writing does to a file tree. Nothing is removed: directories are added where there was nothing, and a file
is put where there is no directory. So what a path leads to stays found, and a step that was done once changes
nothing when it is done again. -/

namespace OpenApiClient

def WriteStep.octets (step : WriteStep) : List UInt8 := Text.encodeUtf8 step.text.toList

namespace FileTree

variable {tree after : FileTree} {location : Location} {path : Path}

theorem entry?_put_self {entry : FileEntry} (below : location ≠ []) :
    entry? (tree.put location entry) location = some entry := by
  simp [ entry?, put, below, Entries.get?_put_self]

theorem entry?_put_other {other : Location} {entry : FileEntry} (different : other ≠ location) :
    entry? (tree.put location entry) other = tree.entry? other := by
  simp [ entry?, put, Entries.get?_put_other different]

theorem ne_root_of_not_directory (free : tree.entry? location ≠ some .directory) : location ≠ [] := by
  rintro rfl
  exact free rfl

theorem put_present {entry : FileEntry} (below : location ≠ []) (present : tree.entry? location = some entry) :
    tree.put location entry = tree := by
  have listed : Entries.get? (· == ·) location tree.entries = some entry := by simpa [ entry?, below] using present
  rw [put, Entries.put_of_get? listed]

/-! The location of a path is settled by its parts alone. -/

def descend (location : Location) (part : String) : Location :=
  if part = ".." then location.dropLast else location ++ [part]

def target (tree : FileTree) (path : Path) : Location :=
  path.parts.foldl descend (if path.root.isEmpty then tree.workingDirectory else [])

theorem target_below {names : List String} (own : ∀ name ∈ names, Path.IsName name) (path : Path) :
    tree.target (path.below names) = tree.target path ++ names := by
  rw [target, target, Path.below, List.foldl_append]
  generalize path.parts.foldl descend (if path.root.isEmpty then tree.workingDirectory else []) = reached
  induction names generalizing reached with
  | nil => simp
  | cons name rest ih =>
      obtain ⟨first, others⟩ := List.forall_mem_cons.mp own
      rw [List.foldl_cons, ih others, descend, if_neg first.notAbove]
      simp

theorem walk_append_ok {first second : List String} {reached : Location} :
    tree.walk location (first ++ second) = .ok reached ↔
      ∃ middle, tree.walk location first = .ok middle ∧ tree.walk middle second = .ok reached := by
  induction first generalizing location with
  | nil => simp [walk]
  | cons part rest ih =>
      rw [List.cons_append, walk, walk]
      split
      · simp
      · simp
      · split
        · exact ih
        · split
          · simp
          · exact ih

theorem walk_ok {parts : List String} {reached : Location} (walked : tree.walk location parts = .ok reached) :
    reached = parts.foldl descend location := by
  induction parts generalizing location with
  | nil => exact (Except.ok.inj walked).symm
  | cons part rest ih =>
      rw [walk] at walked
      rw [List.foldl_cons, descend]
      split at walked
      · cases walked
      · cases walked
      · split at walked
        case isTrue up =>
          rw [if_pos up]
          exact ih walked
        case isFalse down =>
          rw [if_neg down]
          split at walked
          · cases walked
          · exact ih walked

theorem locate_ok (located : tree.locate path = .ok location) : location = tree.target path := by
  unfold locate at located
  split at located
  · cases located
  · exact walk_ok located

theorem look_ok {entry : FileEntry} : tree.look path = .ok entry ↔
    tree.locate path = .ok (tree.target path) ∧ tree.entry? (tree.target path) = some entry := by
  rw [look, except_bind_ok]
  constructor
  · rintro ⟨location, located, found⟩
    obtain rfl := locate_ok located
    split at found
    · rename_i present
      exact ⟨located, present.trans (congrArg some (except_pure_ok.mp found))⟩
    · cases found
  · rintro ⟨located, present⟩
    exact ⟨_, located, by simp [present, pure, Except.pure]⟩

theorem isDirectory_iff : tree.isDirectory path = true ↔
    tree.locate path = .ok (tree.target path) ∧ tree.entry? (tree.target path) = some .directory := by
  rw [← look_ok, isDirectory]
  split
  · rename_i found
    simp [found]
  · rename_i other
    simpa using other

theorem exists?_iff : tree.exists? path = true ↔
    tree.locate path = .ok (tree.target path) ∧ tree.entry? (tree.target path) ≠ none := by
  rw [Option.ne_none_iff_exists', exists?]
  cases found : tree.look path with
  | ok entry => simp [look_ok.mp found]
  | error problem =>
      simp only [Bool.false_eq_true, false_iff, not_and, not_exists]
      intro located entry present
      simp [look_ok.mpr ⟨located, present⟩] at found

theorem locate_ok_iff : tree.locate path = .ok location ↔ path.text.utf8ByteSize < pathLimit ∧
    tree.walk (if path.root.isEmpty then tree.workingDirectory else []) path.parts = .ok location := by
  unfold locate
  split
  · rename_i long
    simp [Nat.not_lt.mpr long]
  · rename_i short
    simp [Nat.not_le.mp short]

theorem walk_name {name : String} {reached : Location} : tree.walk location [name] = .ok reached ↔
    tree.entry? location = some .directory ∧ (name ≠ ".." → name.utf8ByteSize ≤ nameLimit) ∧
      descend location name = reached := by
  rw [walk, descend]
  split
  · simp_all
  · simp_all
  · rename_i directory
    by_cases up : name = ".."
    · simp [up, walk, directory]
    · by_cases short : name.utf8ByteSize ≤ nameLimit
      · simp [up, walk, directory, short, Nat.not_lt.mpr short]
      · simp [up, short, Nat.not_le.mp short]

theorem entry?_of_walk {parts : List String} {reached : Location} (walked : tree.walk location parts = .ok reached)
    (found : tree.entry? reached = some .directory) : tree.entry? location = some .directory := by
  cases parts with
  | nil =>
      obtain rfl := Except.ok.inj walked
      exact found
  | cons part rest =>
      rw [walk] at walked
      split at walked
      · cases walked
      · cases walked
      · assumption

/-- What was found right in a directory, or in one above it, is found in every tree that has the directory. -/
theorem locate_beside {names deeper : List String} {name : String} {reached : Location}
    (directory : tree.isDirectory (path.below (names ++ deeper)) = true)
    (found : after.locate (path.below (names ++ [name])) = .ok reached) :
    tree.locate (path.below (names ++ [name])) = .ok (tree.target (path.below (names ++ [name]))) := by
  obtain ⟨located, present⟩ := isDirectory_iff.mp directory
  obtain ⟨-, walked⟩ := locate_ok_iff.mp located
  obtain ⟨bounded, named⟩ := locate_ok_iff.mp found
  rw [Path.below, ← List.append_assoc] at present walked named
  obtain ⟨middle, above, rest⟩ := walk_append_ok.mp walked
  obtain ⟨_, _, last⟩ := walk_append_ok.mp named
  obtain ⟨-, short, -⟩ := walk_name.mp last
  have walked : tree.walk (if path.root.isEmpty then tree.workingDirectory else [])
      (path.parts ++ (names ++ [name])) = .ok (descend middle name) := by
    rw [← List.append_assoc]
    exact walk_append_ok.mpr ⟨middle, above, walk_name.mpr ⟨entry?_of_walk rest present, short, rfl⟩⟩
  have whole := locate_ok_iff.mpr ⟨bounded, walked⟩
  rwa [← locate_ok whole]

/-! Everything that is there stays, and directories stay directories. -/

structure Extends (tree after : FileTree) : Prop where
  workingDirectory : after.workingDirectory = tree.workingDirectory
  directories : ∀ location, tree.entry? location = some .directory → after.entry? location = some .directory
  present : ∀ location, tree.entry? location ≠ none → after.entry? location ≠ none

namespace Extends

theorem refl (tree : FileTree) : Extends tree tree := ⟨rfl, fun _ => id, fun _ => id⟩

theorem trans {last : FileTree} (first : Extends tree after) (second : Extends after last) : Extends tree last :=
  ⟨second.workingDirectory.trans first.workingDirectory,
    fun location found => second.directories location (first.directories location found),
    fun location found => second.present location (first.present location found)⟩

theorem put {entry : FileEntry} (free : tree.entry? location ≠ some .directory) :
    Extends tree (tree.put location entry) := by
  refine ⟨rfl, fun other found => ?_, fun other found => ?_⟩
  · have different : other ≠ location := by
      rintro rfl
      exact free found
    rwa [entry?_put_other different]
  · by_cases same : other = location
    · subst same
      simp [entry?_put_self (ne_root_of_not_directory free)]
    · rwa [entry?_put_other same]

theorem absent (kept : Extends tree after) (missing : after.entry? location = none) :
    tree.entry? location = none := by
  by_contra present
  exact kept.present location present missing

theorem target (kept : Extends tree after) (path : Path) : after.target path = tree.target path := by
  rw [FileTree.target, FileTree.target, kept.workingDirectory]

theorem walk (kept : Extends tree after) {parts : List String} {reached : Location}
    (walked : tree.walk location parts = .ok reached) : after.walk location parts = .ok reached := by
  induction parts generalizing location with
  | nil => exact walked
  | cons part rest ih =>
      rw [FileTree.walk] at walked ⊢
      split at walked
      · cases walked
      · cases walked
      · rename_i directory
        rw [kept.directories location directory]
        dsimp only
        split at walked
        case isTrue up =>
          rw [if_pos up]
          exact ih walked
        case isFalse down =>
          rw [if_neg down]
          split at walked
          · cases walked
          · rename_i short
            rw [if_neg short]
            exact ih walked

theorem locate (kept : Extends tree after) (located : tree.locate path = .ok location) :
    after.locate path = .ok location := by
  unfold FileTree.locate at located ⊢
  split at located
  · cases located
  · rename_i short
    rw [if_neg short, kept.workingDirectory]
    exact kept.walk located

theorem isDirectory (kept : Extends tree after) (found : tree.isDirectory path = true) :
    after.isDirectory path = true := by
  rw [isDirectory_iff] at found ⊢
  rw [kept.target]
  exact ⟨kept.locate found.1, kept.directories _ found.2⟩

theorem exists? (kept : Extends tree after) (found : tree.exists? path = true) : after.exists? path = true := by
  rw [exists?_iff] at found ⊢
  rw [kept.target]
  exact ⟨kept.locate found.1, kept.present _ found.2⟩

end Extends

/-! Directories are made where nothing is. -/

structure Prepares (tree after : FileTree) : Prop where
  kept : Extends tree after
  added : ∀ location, after.entry? location = tree.entry? location ∨
    tree.entry? location = none ∧ after.entry? location = some .directory

theorem Prepares.refl (tree : FileTree) : Prepares tree tree := ⟨.refl tree, fun _ => .inl rfl⟩

theorem Prepares.trans {last : FileTree} (first : Prepares tree after) (second : Prepares after last) :
    Prepares tree last := by
  refine ⟨first.kept.trans second.kept, fun location => ?_⟩
  rcases second.added location with same | ⟨absent, made⟩
  · rw [same]
    exact first.added location
  · rcases first.added location with before | ⟨_, made⟩
    · exact .inr ⟨before ▸ absent, made⟩
    · rw [absent] at made
      cases made

theorem makeDirectory_ok (made : tree.makeDirectory path = .ok after) :
    Prepares tree after ∧ after.isDirectory path = true := by
  obtain ⟨location, located, made⟩ := except_bind_ok.mp made
  obtain rfl := locate_ok located
  split at made
  · cases made
  · rename_i absent
    obtain rfl := except_pure_ok.mp made
    have free : tree.entry? (tree.target path) ≠ some .directory := by simp [absent]
    have kept : Extends tree (tree.put (tree.target path) .directory) := .put free
    have present : entry? (tree.put (tree.target path) .directory) (tree.target path) = some .directory :=
      entry?_put_self (ne_root_of_not_directory free)
    refine ⟨⟨kept, fun other => ?_⟩, isDirectory_iff.mpr ⟨kept.target path ▸ kept.locate located, ?_⟩⟩
    · by_cases same : other = tree.target path
      · subst same
        exact .inr ⟨absent, present⟩
      · exact .inl (entry?_put_other same)
    · rwa [kept.target]

theorem ensureOne_ok (made : tree.ensureOne path = .ok after) :
    Prepares tree after ∧ after.isDirectory path = true := by
  unfold ensureOne at made
  split at made
  · rename_i done
    obtain rfl := Except.ok.inj made
    exact makeDirectory_ok done
  · split at made
    · rename_i directory
      obtain rfl := Except.ok.inj made
      exact ⟨.refl tree, directory⟩
    · cases made

theorem ensureAbove_ok {levels : Nat} (made : tree.ensureAbove path levels = .ok after) :
    Prepares tree after ∧ after.isDirectory path = true := by
  induction levels generalizing tree path after with
  | zero => exact ensureOne_ok made
  | succ levels ih =>
      unfold ensureAbove at made
      split at made
      · split at made
        · cases made
        · split at made
          · rename_i above
            obtain ⟨last, directory⟩ := ensureOne_ok made
            exact ⟨(ih above).1.trans last, directory⟩
          · cases made
      · split at made
        · rename_i directory
          obtain rfl := Except.ok.inj made
          exact ⟨.refl tree, directory⟩
        · cases made
      · rename_i done
        obtain rfl := Except.ok.inj made
        exact makeDirectory_ok done

theorem ensureDirectory_ok (made : tree.ensureDirectory path = .ok after) :
    Prepares tree after ∧ after.isDirectory path = true :=
  ensureAbove_ok made

theorem ensureDirectory_idle (directory : tree.isDirectory path = true) : tree.ensureDirectory path = .ok tree := by
  have present : tree.makeDirectory path = .error .present := by
    obtain ⟨located, found⟩ := isDirectory_iff.mp directory
    rw [makeDirectory, located]
    simp only [bind, Except.bind, found]
    rfl
  unfold ensureDirectory
  cases path.parts.length with
  | zero => simp [ensureAbove, ensureOne, present, directory]
  | succ levels => simp [ensureAbove, present, directory]

/-! A step writes the file of its path and the directories above it. -/

structure Holds (tree : FileTree) (step : WriteStep) : Prop where
  above : tree.isDirectory step.path.parent = true
  located : tree.locate step.path = .ok (tree.target step.path)
  text : tree.entry? (tree.target step.path) = some (.file step.octets)

variable {step : WriteStep} {steps : List WriteStep}

theorem Holds.kept (held : tree.Holds step) (kept : Extends tree after)
    (same : after.entry? (tree.target step.path) = tree.entry? (tree.target step.path)) : after.Holds step := by
  refine ⟨kept.isDirectory held.above, ?_, ?_⟩
  · rw [kept.target]
    exact kept.locate held.located
  · rw [kept.target, same]
    exact held.text

/-- What a step does: its file holds its text, and all else that is new are directories. -/
theorem writeStep_ok (written : tree.writeStep step = .ok after) :
    Extends tree after ∧ after.Holds step ∧ ∀ location, location ≠ tree.target step.path →
      after.entry? location = tree.entry? location ∨
        tree.entry? location = none ∧ after.entry? location = some .directory := by
  obtain ⟨between, ensured, written⟩ := except_bind_ok.mp written
  obtain ⟨prepared, above⟩ := ensureDirectory_ok ensured
  obtain ⟨location, located, written⟩ := except_bind_ok.mp written
  rw [except_mapError_ok] at located
  obtain rfl := locate_ok located
  -- The step fails on a directory, so that none is lost.
  obtain ⟨free, rfl⟩ : between.entry? (between.target step.path) ≠ some .directory ∧
      between.put (between.target step.path) (.file step.octets) = after := by
    split at written
    · cases written
    · rename_i free
      exact ⟨free, except_pure_ok.mp written⟩
  have kept : Extends between (between.put (between.target step.path) (.file step.octets)) := .put free
  refine ⟨prepared.kept.trans kept, ⟨kept.isDirectory above, ?_, ?_⟩, fun other different => ?_⟩
  · rw [kept.target]
    exact kept.locate located
  · rw [kept.target]
    exact entry?_put_self (ne_root_of_not_directory free)
  · rw [← prepared.kept.target] at different
    rw [entry?_put_other different]
    exact prepared.added other

/-- Done again, a step changes nothing. -/
theorem Holds.idle (held : tree.Holds step) : tree.writeStep step = .ok tree := by
  have below : tree.target step.path ≠ [] := by
    intro root
    have text := held.text
    simp [root, entry?] at text
  rw [writeStep, ensureDirectory_idle held.above]
  simp only [bind, Except.bind, writeFile, held.located, Except.mapError, held.text]
  exact congrArg Except.ok (put_present below held.text)

/-- What the steps have made of a place: it is as it was, or there is a directory where there was nothing, or the
text of a step. A step that is to be done only if its file is absent was done only then. -/
inductive Change (tree after : FileTree) (steps : List WriteStep) (location : Location) : Prop
  | same : after.entry? location = tree.entry? location → Change tree after steps location
  | directory : tree.entry? location = none → after.entry? location = some .directory →
      Change tree after steps location
  | file (step : WriteStep) : step ∈ steps → location = tree.target step.path → after.Holds step →
      (step.onlyIfAbsent = true → tree.exists? step.path = false) → Change tree after steps location

theorem writeAll_cons (done : (tree.writeAll (step :: steps)).fault = none) :
    (step.onlyIfAbsent = true ∧ tree.exists? step.path = true ∧
        tree.writeAll (step :: steps) = tree.writeAll steps) ∨
      ∃ between, (step.onlyIfAbsent = true → tree.exists? step.path = false) ∧
        tree.writeStep step = .ok between ∧ (between.writeAll steps).fault = none ∧
        (tree.writeAll (step :: steps)).tree = (between.writeAll steps).tree := by
  rw [writeAll] at done ⊢
  split at done
  case isTrue passed =>
    rw [if_pos passed]
    rw [Bool.and_eq_true] at passed
    exact .inl ⟨passed.1, passed.2, rfl⟩
  case isFalse needed =>
    rw [if_neg needed]
    split at done
    · cases done
    · rename_i between written
      rw [written]
      refine .inr ⟨between, fun only => ?_, rfl, done, rfl⟩
      simpa [only] using needed

theorem writeAll_append (tree : FileTree) (first second : List WriteStep) :
    (tree.writeAll (first ++ second)).fault =
        (tree.writeAll first).fault.or ((tree.writeAll first).tree.writeAll second).fault ∧
      ((tree.writeAll first).fault = none →
        (tree.writeAll (first ++ second)).tree = ((tree.writeAll first).tree.writeAll second).tree) := by
  induction first generalizing tree with
  | nil => simp [writeAll]
  | cons step rest ih =>
      rw [List.cons_append, writeAll, writeAll]
      split
      · exact ih _
      · split
        · simp
        · exact ih _

theorem writeAll_extends (done : (tree.writeAll steps).fault = none) :
    Extends tree (tree.writeAll steps).tree := by
  induction steps generalizing tree with
  | nil => exact .refl tree
  | cons step rest ih =>
      rcases writeAll_cons done with ⟨-, -, same⟩ | ⟨between, -, written, finished, same⟩
      · rw [same] at done ⊢
        exact ih done
      · rw [same]
        exact (writeStep_ok written).1.trans (ih finished)

theorem writeAll_changes (done : (tree.writeAll steps).fault = none) (location : Location) :
    Change tree (tree.writeAll steps).tree steps location := by
  induction steps generalizing tree with
  | nil => exact .same rfl
  | cons step rest ih =>
      rcases writeAll_cons done with ⟨-, -, same⟩ | ⟨between, absent, written, finished, same⟩
      · rw [same] at done ⊢
        cases ih done with
        | same kept => exact .same kept
        | directory none made => exact .directory none made
        | file later member own held only => exact .file later (List.mem_cons_of_mem _ member) own held only
      · obtain ⟨kept, held, added⟩ := writeStep_ok written
        rw [same]
        cases ih finished with
        | file later member own last only =>
            refine .file later (List.mem_cons_of_mem _ member) (own.trans (kept.target _)) last fun given => ?_
            by_contra present
            rw [Bool.not_eq_false] at present
            exact absurd (kept.exists? present) (by simp [only given])
        | same unchanged =>
            by_cases own : location = tree.target step.path
            · rw [own, ← kept.target] at unchanged
              exact .file step List.mem_cons_self own (held.kept (writeAll_extends finished) unchanged) absent
            · rcases added location own with before | ⟨none, made⟩
              · exact .same (unchanged.trans before)
              · exact .directory none (unchanged.trans made)
        | directory none made => exact .directory (kept.absent none) made

def Settled (tree : FileTree) (step : WriteStep) : Prop :=
  if step.onlyIfAbsent then tree.exists? step.path = true else tree.Holds step

theorem Holds.settled (held : tree.Holds step) : tree.Settled step := by
  unfold Settled
  split
  · rw [exists?_iff]
    exact ⟨held.located, by simp [held.text]⟩
  · exact held

/-- Steps for different places are settled when all of them are done. -/
theorem writeAll_settles (done : (tree.writeAll steps).fault = none)
    (apart : (steps.map fun step => tree.target step.path).Nodup) :
    ∀ step ∈ steps, (tree.writeAll steps).tree.Settled step := by
  induction steps generalizing tree with
  | nil => simp
  | cons step rest ih =>
      obtain ⟨own, others⟩ := List.nodup_cons.mp apart
      rcases writeAll_cons done with ⟨only, present, same⟩ | ⟨between, -, written, finished, same⟩
      · rw [same] at done ⊢
        refine List.forall_mem_cons.mpr ⟨?_, ih done others⟩
        rw [Settled, if_pos only]
        exact (writeAll_extends done).exists? present
      · obtain ⟨kept, held, -⟩ := writeStep_ok written
        have targets : (rest.map fun step => between.target step.path) =
            rest.map fun step => tree.target step.path :=
          List.map_congr_left fun step _ => kept.target step.path
        rw [same]
        refine List.forall_mem_cons.mpr ⟨?_, ih finished (targets ▸ others)⟩
        -- None of the other steps writes to this place, where there is a file now.
        refine (held.kept (writeAll_extends finished) ?_).settled
        cases writeAll_changes finished (between.target step.path) with
        | same unchanged => exact unchanged
        | directory none _ => simp [held.text] at none
        | file later member place _ _ =>
            refine absurd ?_ own
            show tree.target step.path ∈ _
            rw [← kept.target, place, ← targets]
            exact List.mem_map_of_mem member

/-- When every step is settled, doing all of them again changes nothing. -/
theorem writeAll_idle (settled : ∀ step ∈ steps, tree.Settled step) :
    (tree.writeAll steps).tree = tree ∧ (tree.writeAll steps).fault = none := by
  induction steps with
  | nil => exact ⟨rfl, rfl⟩
  | cons step rest ih =>
      obtain ⟨own, others⟩ := List.forall_mem_cons.mp settled
      unfold Settled at own
      by_cases only : step.onlyIfAbsent = true
      · rw [if_pos only] at own
        rw [writeAll, only, own]
        exact ih others
      · rw [if_neg only] at own
        rw [writeAll, if_neg (by simp [only]), own.idle]
        exact ih others

end FileTree
end OpenApiClient
