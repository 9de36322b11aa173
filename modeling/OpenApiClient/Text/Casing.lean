import OpenApiClient.Text.Character
import OpenApiClient.Unicode.CaseMap

/-! Lowercase and uppercase forms. A form may have more characters than its source, and the lowercase of
the capital sigma depends on whether it ends a word. -/

namespace OpenApiClient.Text

def counterpart? (runs : List (Nat × Nat × Nat × Int)) (point : Nat) : Option Nat :=
  match runs with
  | [] => none
  | (first, last, step, distance) :: rest =>
      if first ≤ point ∧ point ≤ last ∧ (point - first) % step = 0 then some (point + distance).toNat
      else counterpart? rest point

def mapBeyondAscii (expansions : List (Nat × List Nat)) (runs : List (Nat × Nat × Nat × Int))
    (c : Char) : List Char :=
  match expansions.lookup c.toNat with
  | some points => points.map Char.ofNat
  | none =>
      match counterpart? runs c.toNat with
      | some point => [Char.ofNat point]
      | none => [c]

def lowerCharacter (c : Char) : List Char :=
  if isAscii c then [if isAsciiUpper c then Char.ofNat (c.toNat + 32) else c]
  else mapBeyondAscii Unicode.lowerExpansions Unicode.lowerRuns c

def upperCharacter (c : Char) : List Char :=
  if isAscii c then [if isAsciiLower c then Char.ofNat (c.toNat - 32) else c]
  else mapBeyondAscii Unicode.upperExpansions Unicode.upperRuns c

/-- Is the nearest character that is not looked through a cased one? -/
def meetsCased (text : List Char) : Bool :=
  ((text.dropWhile isCaseIgnorable).head?.map isCased).getD false

/-- The lowercase form of a text that follows `before`, which is in reverse order. -/
def lowerAfter (before : List Char) : List Char → List Char
  | [] => []
  | c :: rest =>
      (if c = 'Σ' then [if meetsCased before && !meetsCased rest then 'ς' else 'σ']
        else lowerCharacter c) ++ lowerAfter (c :: before) rest

def lower (text : List Char) : List Char := lowerAfter [] text

def upper (text : List Char) : List Char := text.flatMap upperCharacter

def lowerText (text : String) : String := String.ofList (lower text.toList)

def upperText (text : String) : String := String.ofList (upper text.toList)

end OpenApiClient.Text
