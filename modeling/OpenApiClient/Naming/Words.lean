import OpenApiClient.Text.Casing

/-! Words of a name: from camel case to words joined by underscores and back. -/

namespace OpenApiClient.Naming

open Text

/-- Does a word begin at the second of two neighbouring characters, given what follows it? A capital
begins a word after a small letter or a digit; the last of several capitals does so before a small letter. -/
def beginsWord (before c : Char) (rest : List Char) : Bool :=
  isAsciiUpper c &&
    (isAsciiLower before || isDecimalDigit before ||
      (isAsciiUpper before && (rest.head?.map isAsciiLower).getD false))

def markWords : List Char → List Char
  | before :: c :: rest =>
      if beginsWord before c rest then before :: '_' :: markWords (c :: rest)
      else before :: markWords (c :: rest)
  | short => short

def snakeCase (name : List Char) : List Char := lower (markWords name)

def collapse : List Char → List Char
  | c :: d :: rest => if c = '_' ∧ d = '_' then collapse (d :: rest) else c :: collapse (d :: rest)
  | short => short

def isSnakeCharacter (c : Char) : Bool := isAsciiLower c || isAsciiDigit c || c == '_'

def sanitize (name : List Char) : List Char :=
  strip (· == '_') (collapse ((snakeCase name).map fun c => if isSnakeCharacter c then c else '_'))

/-- Words with a capital each. An underscore ends a word and is dropped; any other character that is no
letter ends a word and is kept. -/
def upperCamelFrom (newWord : Bool) : List Char → List Char
  | [] => []
  | c :: rest =>
      if c = '_' then upperCamelFrom true rest
      else if !isLetter c then c :: upperCamelFrom true rest
      else if newWord || isUppercase c then upperCharacter c ++ upperCamelFrom false rest
      else lower [c] ++ upperCamelFrom false rest

def upperCamel (name : List Char) : List Char := upperCamelFrom true name

def isIdentifierCharacter (c : Char) : Bool := isAsciiLetter c || isAsciiDigit c || c == '_'

def identifierCamel (name : List Char) : List Char :=
  match upperCamel (name.map fun c => if isIdentifierCharacter c then c else '_') with
  | [] => "Anonymous".toList
  | c :: rest => if isDigit c then '_' :: c :: rest else c :: rest

def camelToSnake (name : String) : String := String.ofList (snakeCase name.toList)

def sanitizeSegment (segment : String) : String := String.ofList (sanitize segment.toList)

def toUpperCamel (name : String) : String := String.ofList (upperCamel name.toList)

def toIdentifierCamel (name : String) : String := String.ofList (identifierCamel name.toList)

end OpenApiClient.Naming
