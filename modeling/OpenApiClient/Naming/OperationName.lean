import OpenApiClient.Naming.Identifier
import OpenApiClient.Naming.Plural

/-! Names derived from paths: of operations that have no name of their own, and of the services that
collect the operations of one path root. -/

namespace OpenApiClient.Naming

open Text

def segments (path : String) : List (List Char) :=
  (splitAt '/' path.toList).filter fun segment => !segment.isEmpty

/-- A version segment is a v, digits, and small letters or digits up to the end or a final line feed. -/
def isVersion : List Char → Bool
  | 'v' :: rest =>
      let after := (rest.dropWhile isDecimalDigit).dropWhile fun c => isAsciiLower c || isAsciiDigit c
      (rest.head?.map isDecimalDigit).getD false && (after == [] || after == ['\n'])
  | _ => false

def isPlaceholder (segment : List Char) : Bool := segment.head? == some '{'

def dropFirst (drop : List Char → Bool) : List (List Char) → List (List Char)
  | [] => []
  | segment :: rest => if drop segment then rest else segment :: rest

/-- The segments that name a resource: neither a leading api or version segment nor a placeholder. -/
def resourceSegments (path : String) : List (List Char) :=
  (dropFirst isVersion (dropFirst (· == "api".toList) (segments path))).filter fun segment =>
    !isPlaceholder segment

def hasPlaceholder (path : String) : Bool := (segments path).any isPlaceholder

def verb (method : String) (identified : Bool) : String :=
  match lowerText method with
  | "get" => if identified then "get" else "list"
  | "post" => "create"
  | "put" => "update"
  | "delete" => "delete"
  | "patch" => "update"
  | other => other

def operationName (method path : String) : String :=
  let identified := hasPlaceholder path
  let verb := verb method identified
  let parts := ((resourceSegments path).map fun segment => String.ofList (sanitize segment)).filter
    fun part => !part.isEmpty
  match parts with
  | [] => verb ++ "_root"
  | [resource] =>
      let resource :=
        if verb == "list" then pluralize resource
        else if identified || verb == "create" then singularize resource
        else resource
      verb ++ "_" ++ resource
  | parts => verb ++ "_" ++ "_".intercalate parts

def placeholderLength? : List Char → Option Nat
  | '{' :: rest =>
      let name := rest.takeWhile fun c => c != '{' && c != '}'
      match rest.drop name.length with
      | '}' :: _ => some (name.length + 2)
      | _ => none
  | _ => none

/-- Drops a placeholder segment with the rest of its line, and a slash at the end. The next `skipped`
characters are dropped already. -/
def rootAfter (skipped : Nat) : List Char → List Char
  | [] => []
  | c :: rest =>
      match skipped with
      | left + 1 => rootAfter left rest
      | 0 =>
          if c = '/' then
            match placeholderLength? rest with
            | some length =>
                rootAfter (length + ((rest.drop length).takeWhile (· != '\n')).length) rest
            | none =>
                if rest == [] || rest == ['\n'] then rootAfter 0 rest else c :: rootAfter 0 rest
          else c :: rootAfter 0 rest

/-- The part of a path before its first placeholder segment or final slash. -/
def pathRoot (path : String) : String := String.ofList (rootAfter 0 path.toList)

end OpenApiClient.Naming
