import OpenApiClient.Text.Character

/-! Characters of YAML: blanks, line breaks, and what they become when lines are folded. -/

namespace OpenApiClient.Yaml

def isBreak (c : Char) : Bool := ['\n', '\r', '\u0085', '\u2028', '\u2029'].contains c

def isBlank (c : Char) : Bool := c == ' ' || c == '\t'

def isPrintable (c : Char) : Bool :=
  Text.within [(9, 10), (13, 13), (0x20, 0x7e), (0x85, 0x85), (0xa0, 0xd7ff), (0xe000, 0xfffd),
    (0x10000, 0x10ffff)] c.toNat

def endsWord : List Char → Bool
  | [] => true
  | c :: _ => isBlank c || isBreak c

/-- Three times the same mark, and nothing more in the word. -/
def isMarker (mark : Char) : List Char → Bool
  | a :: b :: c :: rest => a == mark && b == mark && c == mark && endsWord rest
  | _ => false

def startsDocument (line : List Char) : Bool := isMarker '-' line || isMarker '.' line

def breakText (c : Char) : Char := if c == '\u2028' || c == '\u2029' then c else '\n'

/-- What a line break and the breaks of the empty lines after it become: a single line feed turns into a
space, and of several the first is dropped. -/
def folded (first : Char) (others : List Char) : List Char :=
  if breakText first ≠ '\n' then breakText first :: others
  else if others.isEmpty then [' '] else others

structure Scanned where
  text : List Char
  length : Nat
  deriving Repr, Inhabited

namespace Scanned

def after (text : List Char) (length : Nat) (scanned : Scanned) : Scanned :=
  ⟨text ++ scanned.text, length + scanned.length⟩

end Scanned
end OpenApiClient.Yaml
