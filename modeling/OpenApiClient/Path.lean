import OpenApiClient.Text.Character

/-! Paths of files: a root, which is empty for a relative path, and the parts below it. Empty parts and
single dots are left out; double dots stay, since what they mean depends on the file system. -/

namespace OpenApiClient

structure Path where
  root : String
  parts : List String
  deriving DecidableEq, Repr, Inhabited

namespace Path

/-- Exactly two leading slashes are a root of their own. -/
def rootOf : List Char → String
  | '/' :: '/' :: '/' :: _ => "/"
  | '/' :: '/' :: _ => "//"
  | '/' :: _ => "/"
  | _ => ""

def partsOf (text : String) : List String :=
  ((Text.splitAt '/' text.toList).map String.ofList).filter fun part => part != "" && part != "."

def ofText (text : String) : Path := ⟨rootOf text.toList, partsOf text⟩

def text (path : Path) : String :=
  if path.root.isEmpty && path.parts.isEmpty then "."
  else path.root ++ "/".intercalate path.parts

def join (path : Path) (below : String) : Path :=
  let other := ofText below
  if other.root.isEmpty then { path with parts := path.parts ++ other.parts } else other

def joinAll (path : Path) (below : List String) : Path := below.foldl join path

def name (path : Path) : String := path.parts.getLast?.getD ""

def parent (path : Path) : Path := { path with parts := path.parts.dropLast }

/-- Splits a name before its last dot, which is neither its first nor its last character. -/
def splitSuffix (name : String) : String × String :=
  let reversed := name.toList.reverse
  let extension := reversed.takeWhile (· != '.')
  match reversed.drop extension.length with
  | '.' :: stem =>
      if extension.isEmpty || stem.isEmpty then (name, "")
      else (String.ofList stem.reverse, String.ofList ('.' :: extension.reverse))
  | _ => (name, "")

def suffix (path : Path) : String := (splitSuffix path.name).2

/-- Puts another suffix in place of the one of the name. There is none where there is no name. -/
def withSuffix? (path : Path) (suffix : String) : Option Path :=
  if path.name.isEmpty then none
  else some { path with parts := path.parts.dropLast ++ [(splitSuffix path.name).1 ++ suffix] }

end Path
end OpenApiClient
