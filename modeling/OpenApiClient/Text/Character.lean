import OpenApiClient.Unicode.Case
import OpenApiClient.Unicode.Letter
import OpenApiClient.Unicode.Numeral
import OpenApiClient.Unicode.Printable

/-! Character classes. ASCII is decided by rule, the rest by table, so that a fact about an ASCII
character needs no table. -/

namespace OpenApiClient.Text

/-- Is the code point in one of the ranges? They are listed in ascending order. -/
def within (ranges : List (Nat × Nat)) (point : Nat) : Bool :=
  match ranges with
  | [] => false
  | (first, last) :: rest => if point ≤ last then first ≤ point else within rest point

def withinRuns (runs : List (Nat × Nat × Nat)) (point : Nat) : Bool :=
  match runs with
  | [] => false
  | (first, last, step) :: rest =>
      if point ≤ last then decide (first ≤ point) && (point - first) % step == 0
      else withinRuns rest point

def isAscii (c : Char) : Bool := c.toNat < 128

def isAsciiLower (c : Char) : Bool := 'a' ≤ c && c ≤ 'z'

def isAsciiUpper (c : Char) : Bool := 'A' ≤ c && c ≤ 'Z'

def isAsciiLetter (c : Char) : Bool := isAsciiLower c || isAsciiUpper c

def isAsciiDigit (c : Char) : Bool := '0' ≤ c && c ≤ '9'

def isLetter (c : Char) : Bool :=
  if isAscii c then isAsciiLetter c else within Unicode.letterRanges c.toNat

def isDecimalDigit (c : Char) : Bool :=
  if isAscii c then isAsciiDigit c else within Unicode.decimalRanges c.toNat

def isDigit (c : Char) : Bool :=
  if isAscii c then isAsciiDigit c else within Unicode.digitRanges c.toNat

def isNumeral (c : Char) : Bool :=
  if isAscii c then isAsciiDigit c else within Unicode.numeralRanges c.toNat

def isWordCharacter (c : Char) : Bool := isLetter c || isNumeral c || c == '_'

def isUppercase (c : Char) : Bool :=
  if isAscii c then isAsciiUpper c else withinRuns Unicode.uppercaseRuns c.toNat

def isCaseIgnorable (c : Char) : Bool :=
  if isAscii c then ['\'', '.', ':', '^', '\x60'].contains c
  else within Unicode.ignorableRanges c.toNat

def isCased (c : Char) : Bool :=
  if isAscii c then isAsciiLetter c else within Unicode.casedRanges c.toNat

def isPrintable (c : Char) : Bool :=
  if isAscii c then ' ' ≤ c && c ≤ '~' else within Unicode.printableRanges c.toNat

/-- White space in the broad sense: the separators of Unicode and the controls that move the position. -/
def isSpace (c : Char) : Bool :=
  within [(9, 13), (28, 32), (133, 133), (160, 160), (5760, 5760), (8192, 8202), (8232, 8233),
    (8239, 8239), (8287, 8287), (12288, 12288)] c.toNat

def isBlank (c : Char) : Bool :=
  ['\t', '\n', '\x0b', '\x0c', '\r', ' '].contains c

def strip (drop : Char → Bool) (text : List Char) : List Char :=
  ((text.dropWhile drop).reverse.dropWhile drop).reverse

def isAllSpace (text : List Char) : Bool := text.all isSpace

/-- Splits at every separator. There is always one part more than there are separators. -/
def splitAt (separator : Char) : List Char → List (List Char)
  | [] => [[]]
  | c :: rest =>
      if c = separator then [] :: splitAt separator rest
      else match splitAt separator rest with
        | [] => [[c]]
        | part :: parts => (c :: part) :: parts

def joinWith (separator : List Char) : List (List Char) → List Char
  | [] => []
  | [part] => part
  | part :: rest => part ++ separator ++ joinWith separator rest

/-- Is the second text at the start of the first? The rest of the first, if so. -/
def after? : List Char → List Char → Option (List Char)
  | text, [] => some text
  | [], _ :: _ => none
  | c :: rest, d :: start => if c = d then after? rest start else none

end OpenApiClient.Text
