import OpenApiClient.Entries
import OpenApiClient.Path
import OpenApiClient.Text.Quoted

/-! File trees: what stands at which location. A location is the list of names on the way from the root;
relative paths begin at the working directory. A tree holds directories and regular files, and no links. A file
holds octets; what is written to one as text is written in UTF-8. -/

namespace OpenApiClient

abbrev Location : Type := List String

inductive FileEntry where
  | directory
  | file (octets : List UInt8)
  deriving DecidableEq, Repr, Inhabited

inductive FileProblem where
  | absent
  | present
  | notDirectory
  | isDirectory
  | nameTooLong
  deriving DecidableEq, Repr, Inhabited

namespace FileProblem

def number : FileProblem → Nat
  | .absent => 2
  | .present => 17
  | .notDirectory => 20
  | .isDirectory => 21
  | .nameTooLong => 36

def wording : FileProblem → String
  | .absent => "No such file or directory"
  | .present => "File exists"
  | .notDirectory => "Not a directory"
  | .isDirectory => "Is a directory"
  | .nameTooLong => "File name too long"

end FileProblem

structure FileFault where
  problem : FileProblem
  path : Path
  deriving DecidableEq, Repr, Inhabited

def FileFault.message (fault : FileFault) : String :=
  s!"[Errno {fault.problem.number}] {fault.problem.wording}: " ++ Text.quotedText fault.path.text

structure FileTree where
  workingDirectory : Location
  entries : List (Location × FileEntry)
  deriving Repr, Inhabited

namespace FileTree

def nameLimit : Nat := 255

def pathLimit : Nat := 4096

/-- The root is always a directory. -/
def entry? (tree : FileTree) (location : Location) : Option FileEntry :=
  if location.isEmpty then some .directory
  else Entries.get? (· == ·) location tree.entries

def put (tree : FileTree) (location : Location) (entry : FileEntry) : FileTree :=
  { tree with entries := Entries.put (· == ·) location entry tree.entries }

/-- Goes from a location through the parts of a path. All but the last have to be directories; the last may
be absent. -/
def walk (tree : FileTree) (location : Location) : List String → Except FileProblem Location
  | [] => .ok location
  | part :: rest =>
      match tree.entry? location with
      | none => .error .absent
      | some (.file _) => .error .notDirectory
      | some .directory =>
          if part = ".." then walk tree location.dropLast rest
          else if nameLimit < part.utf8ByteSize then .error .nameTooLong
          else walk tree (location ++ [part]) rest

def locate (tree : FileTree) (path : Path) : Except FileProblem Location :=
  if pathLimit ≤ path.text.utf8ByteSize then .error .nameTooLong
  else tree.walk (if path.root.isEmpty then tree.workingDirectory else []) path.parts

def look (tree : FileTree) (path : Path) : Except FileProblem FileEntry := do
  match tree.entry? (← tree.locate path) with
  | some entry => pure entry
  | none => throw .absent

def isDirectory (tree : FileTree) (path : Path) : Bool :=
  match tree.look path with
  | .ok .directory => true
  | _ => false

def exists? (tree : FileTree) (path : Path) : Bool :=
  match tree.look path with
  | .ok _ => true
  | .error _ => false

def readFile (tree : FileTree) (path : Path) : Except FileFault (List UInt8) :=
  match tree.look path with
  | .ok (.file octets) => .ok octets
  | .ok .directory => .error ⟨.isDirectory, path⟩
  | .error problem => .error ⟨problem, path⟩

def makeDirectory (tree : FileTree) (path : Path) : Except FileProblem FileTree := do
  let location ← tree.locate path
  match tree.entry? location with
  | some _ => throw .present
  | none => pure (tree.put location .directory)

def ensureOne (tree : FileTree) (path : Path) : Except FileFault FileTree :=
  match tree.makeDirectory path with
  | .ok tree => .ok tree
  | .error problem => if tree.isDirectory path then .ok tree else .error ⟨problem, path⟩

def ensureAbove (tree : FileTree) (path : Path) : Nat → Except FileFault FileTree
  | 0 => tree.ensureOne path
  | levels + 1 =>
      match tree.makeDirectory path with
      | .error .absent =>
          if path.parent = path then .error ⟨.absent, path⟩
          else
            match tree.ensureAbove path.parent levels with
            | .ok tree => tree.ensureOne path
            | .error fault => .error fault
      | .error problem => if tree.isDirectory path then .ok tree else .error ⟨problem, path⟩
      | .ok tree => .ok tree

def ensureDirectory (tree : FileTree) (path : Path) : Except FileFault FileTree :=
  tree.ensureAbove path path.parts.length

def writeFile (tree : FileTree) (path : Path) (octets : List UInt8) : Except FileFault FileTree := do
  let location ← (tree.locate path).mapError (⟨·, path⟩)
  match tree.entry? location with
  | some .directory => throw ⟨.isDirectory, path⟩
  | _ => pure (tree.put location (.file octets))

def files (tree : FileTree) : List (List String × List UInt8) :=
  tree.entries.filterMap fun (location, entry) =>
    match entry with
    | .directory => none
    | .file octets =>
        if tree.workingDirectory.isPrefixOf location then
          some (location.drop tree.workingDirectory.length, octets)
        else none

def listing (tree : FileTree) : List (String × Nat) :=
  let rows := tree.files.map fun (name, octets) => ("/".intercalate name, octets.length)
  rows.mergeSort fun left right => decide (left.1 ≤ right.1)

def empty : FileTree := ⟨["work"], [(["work"], .directory)]⟩

end FileTree
end OpenApiClient
