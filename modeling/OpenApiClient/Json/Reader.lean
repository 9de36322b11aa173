import OpenApiClient.Entries
import OpenApiClient.Json.Fault
import OpenApiClient.Number.Binary64
import OpenApiClient.Text.Character
import OpenApiClient.Text.Surrogate
import OpenApiClient.Value.Basic

/-! Reading JSON. Beyond the standard, the numbers NaN, Infinity and -Infinity are read. Of members with
one name the last value stands at the first place. -/

namespace OpenApiClient.Json

structure Cursor where
  position : Nat
  rest : List Char

def Cursor.advance (cursor : Cursor) (count : Nat) : Cursor :=
  ⟨cursor.position + count, cursor.rest.drop count⟩

def Cursor.skipBlanks (cursor : Cursor) : Cursor :=
  cursor.advance (cursor.rest.takeWhile fun c => [' ', '\t', '\n', '\r'].contains c).length

def hexValue? (c : Char) : Option Nat :=
  if Text.isAsciiDigit c then some (c.toNat - 48)
  else if 'a' ≤ c && c ≤ 'f' then some (c.toNat - 87)
  else if 'A' ≤ c && c ≤ 'F' then some (c.toNat - 55)
  else none

def hexUnit? (a b c d : Char) : Option Nat := do
  pure (((← hexValue? a) * 16 + (← hexValue? b)) * 256 + (← hexValue? c) * 16 + (← hexValue? d))

def plainEscape? : Char → Option Char
  | '"' => some '"'
  | '\\' => some '\\'
  | '/' => some '/'
  | 'b' => some '\x08'
  | 'f' => some '\x0c'
  | 'n' => some '\n'
  | 'r' => some '\r'
  | 't' => some '\t'
  | _ => none

/-- The character that an escape stands for, and how many characters follow its backslash. An escape by
code needs a character after its last digit; two escapes by the codes of a surrogate pair are one. -/
def escape (start position : Nat) (text : List Char) : Except Fault (Char × Nat) :=
  match text with
  | [] => .error (.grammar .unterminatedString start)
  | 'u' :: a :: b :: c :: d :: e :: rest =>
      match hexUnit? a b c d with
      | none => .error (.grammar .badUnicodeEscape (position + 1))
      | some unit =>
          match Text.isHighSurrogate unit, e, rest with
          | true, '\\', 'u' :: f :: g :: h :: i :: _ :: _ =>
              match hexUnit? f g h i with
              | none => .error (.grammar .badUnicodeEscape (position + 7))
              | some low =>
                  if Text.isLowSurrogate low then .ok (Text.pairCharacter unit low, 11)
                  else .ok (Text.unitCharacter unit, 5)
          | _, _, _ => .ok (Text.unitCharacter unit, 5)
  | 'u' :: _ => .error (.grammar .badUnicodeEscape (position + 1))
  | c :: _ =>
      match plainEscape? c with
      | some escaped => .ok (escaped, 1)
      | none => .error (.grammar .badEscape position)

/-- Reads the rest of a string that was opened at `start`. The next `skipped` characters belong to an
escape that is already read, and `read` is what was read so far, in reverse order. -/
def readString (start position skipped : Nat) (read : List Char) :
    List Char → Except Fault (List Char × Cursor)
  | [] => .error (.grammar .unterminatedString start)
  | c :: rest =>
      match skipped with
      | left + 1 => readString start (position + 1) left read rest
      | 0 =>
          if c = '"' then .ok (read.reverse, ⟨position + 1, rest⟩)
          else if c = '\\' then
            match escape start position rest with
            | .ok (escaped, length) => readString start (position + 1) length (escaped :: read) rest
            | .error fault => .error fault
          else if c.toNat < 0x20 then .error (.grammar .controlCharacter position)
          else readString start (position + 1) 0 (c :: read) rest

def digitsValue (digits : List Char) : Nat :=
  digits.foldl (fun total c => total * 10 + (c.toNat - 48)) 0

structure Numeral where
  negative : Bool
  whole : List Char
  fraction : List Char
  exponent : Option (Bool × List Char)

def fractionOf : List Char → List Char
  | '.' :: rest => rest.takeWhile Text.isAsciiDigit
  | _ => []

def exponentOf? (text : List Char) : Option (Bool × List Char × Nat) :=
  match text with
  | e :: rest =>
      if e = 'e' ∨ e = 'E' then
        let (negative, skipped, rest) :=
          match rest with
          | '-' :: rest => (true, 1, rest)
          | '+' :: rest => (false, 1, rest)
          | rest => (false, 0, rest)
        let digits := rest.takeWhile Text.isAsciiDigit
        if digits.isEmpty then none else some (negative, digits, 1 + skipped + digits.length)
      else none
  | [] => none

def numeral? (text : List Char) : Option (Numeral × Nat) :=
  let (negative, unsigned) :=
    match text with
    | '-' :: rest => (true, rest)
    | rest => (false, rest)
  let whole :=
    match unsigned with
    | '0' :: _ => ['0']
    | rest => rest.takeWhile Text.isAsciiDigit
  if whole.isEmpty then none
  else
    let signLength := if negative then 1 else 0
    let fraction := fractionOf (unsigned.drop whole.length)
    let pointLength := if fraction.isEmpty then 0 else 1
    let before := whole.length + pointLength + fraction.length
    match exponentOf? (unsigned.drop before) with
    | some (sign, digits, length) =>
        some (⟨negative, whole, fraction, some (sign, digits)⟩, signLength + before + length)
    | none => some (⟨negative, whole, fraction, none⟩, signLength + before)

def Numeral.value (numeral : Numeral) : Except Fault Value :=
  match numeral.fraction, numeral.exponent with
  | [], none =>
      if integerDigitLimit < numeral.whole.length then .error (.longInteger numeral.whole.length)
      else
        let size : Int := digitsValue numeral.whole
        .ok (.int (if numeral.negative then -size else size))
  | fraction, exponent =>
      let scale : Int :=
        match exponent with
        | some (true, digits) => -digitsValue digits
        | some (false, digits) => digitsValue digits
        | none => 0
      .ok (.float (Binary64.ofDecimal numeral.negative (digitsValue (numeral.whole ++ fraction))
        (scale - fraction.length)))

def words : List (String × Value) :=
  [("null", .null), ("true", .bool true), ("false", .bool false), ("NaN", .float .nan),
    ("Infinity", .float (.infinite false)), ("-Infinity", .float (.infinite true))]

def word? (text : List Char) : Option (Value × Nat) :=
  (words.find? fun (word, _) => word.toList.isPrefixOf text).map fun (word, value) =>
    (value, word.length)

def objectOf (members : List (String × Value)) : Value :=
  Value.ofMembers (Entries.ofPairs (· == ·) members)

mutual

/-- Reads one value. A value takes a character at least and two units of fuel at most, so twice the length
of the text is fuel enough. -/
def readValue (fuel : Nat) (cursor : Cursor) : Except Fault (Value × Cursor) :=
  match fuel with
  | 0 => .error (.grammar .expectedValue cursor.position)
  | fuel + 1 =>
      match cursor.rest with
      | '"' :: rest => do
          let (text, cursor) ← readString cursor.position (cursor.position + 1) 0 [] rest
          pure (.string (String.ofList text), cursor)
      | '{' :: rest =>
          let cursor := (Cursor.mk (cursor.position + 1) rest).skipBlanks
          match cursor.rest with
          | '}' :: _ => pure (.object [], cursor.advance 1)
          | _ => do
              let (members, cursor) ← readMembers fuel cursor
              pure (objectOf members, cursor)
      | '[' :: rest =>
          let cursor := (Cursor.mk (cursor.position + 1) rest).skipBlanks
          match cursor.rest with
          | ']' :: _ => pure (.array [], cursor.advance 1)
          | _ => do
              let (items, cursor) ← readItems fuel cursor
              pure (.array items, cursor)
      | text =>
          match word? text with
          | some (value, length) => pure (value, cursor.advance length)
          | none =>
              match numeral? text with
              | some (numeral, length) => do pure (← numeral.value, cursor.advance length)
              | none => .error (.grammar .expectedValue cursor.position)

def readItems (fuel : Nat) (cursor : Cursor) : Except Fault (List Value × Cursor) :=
  match fuel with
  | 0 => .error (.grammar .expectedValue cursor.position)
  | fuel + 1 => do
      let (item, cursor) ← readValue fuel cursor
      let cursor := cursor.skipBlanks
      match cursor.rest with
      | ']' :: _ => pure ([item], cursor.advance 1)
      | ',' :: _ =>
          let (items, cursor) ← readItems fuel (cursor.advance 1).skipBlanks
          pure (item :: items, cursor)
      | _ => .error (.grammar .expectedComma cursor.position)

def readMembers (fuel : Nat) (cursor : Cursor) : Except Fault (List (String × Value) × Cursor) :=
  match fuel with
  | 0 => .error (.grammar .expectedName cursor.position)
  | fuel + 1 =>
      match cursor.rest with
      | '"' :: rest => do
          let (name, cursor) ← readString cursor.position (cursor.position + 1) 0 [] rest
          let cursor := cursor.skipBlanks
          match cursor.rest with
          | ':' :: _ =>
              let (value, cursor) ← readValue fuel (cursor.advance 1).skipBlanks
              let cursor := cursor.skipBlanks
              let member := (String.ofList name, value)
              match cursor.rest with
              | '}' :: _ => pure ([member], cursor.advance 1)
              | ',' :: _ =>
                  let (members, cursor) ← readMembers fuel (cursor.advance 1).skipBlanks
                  pure (member :: members, cursor)
              | _ => .error (.grammar .expectedComma cursor.position)
          | _ => .error (.grammar .expectedColon cursor.position)
      | _ => .error (.grammar .expectedName cursor.position)

end

def readText (text : List Char) : Except Fault Value := do
  let (value, cursor) ← readValue (2 * text.length + 2) (Cursor.mk 0 text).skipBlanks
  let cursor := cursor.skipBlanks
  if cursor.rest.isEmpty then pure value else .error (.grammar .extraData cursor.position)

def read (text : List Char) : Except Fault Value :=
  if text.head? = some '\ufeff' then .error (.grammar .byteOrderMark 0) else readText text

end OpenApiClient.Json
