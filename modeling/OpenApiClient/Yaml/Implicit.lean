import OpenApiClient.Json.Reader
import OpenApiClient.Value.Basic
import OpenApiClient.Yaml.Fault

/-! Implicit types: the value of a plain scalar by the form of its text. Underscores between digits count for
nothing; numbers may be written in base 60, with colons. -/

namespace OpenApiClient.Yaml

open Text

inductive Meaning where
  | value (value : Value)
  /-- The key under which members of other mappings are merged into one. -/
  | merge
  /-- The key of a default value, which is an ordinary text where it is a key. -/
  | default
  deriving Repr, Inhabited

def nullWords : List String := ["", "~", "null", "Null", "NULL"]

def trueWords : List String :=
  ["yes", "Yes", "YES", "true", "True", "TRUE", "on", "On", "ON"]

def falseWords : List String :=
  ["no", "No", "NO", "false", "False", "FALSE", "off", "Off", "OFF"]

def splitSign : List Char → Bool × List Char
  | '-' :: rest => (true, rest)
  | '+' :: rest => (false, rest)
  | text => (false, text)

def withoutUnderscores (text : List Char) : List Char := text.filter (· != '_')

def isDigitOrUnderscore (c : Char) : Bool := isAsciiDigit c || c == '_'

def isDigits : List Char → Bool
  | [] => false
  | c :: rest => isAsciiDigit c && rest.all isDigitOrUnderscore

def isSixtieth : List Char → Bool
  | [c] => isAsciiDigit c
  | [c, d] => isAsciiDigit c && c ≤ '5' && isAsciiDigit d
  | _ => false

def digitsIn (base : Nat) (digits : List Char) : Nat :=
  digits.foldl (fun total c => total * base + (Json.hexValue? c).getD 0) 0

def signed (negative : Bool) (size : Nat) : Value := .int (if negative then -(size : Int) else size)

/-- A number after a mark for its base, where every character is a digit of it or an underscore. -/
def marked? (mark : List Char) (base : Nat) (isBaseDigit : Char → Bool) (negative : Bool)
    (text : List Char) : Option (Except Fault Value) :=
  match after? text mark with
  | some (c :: rest) =>
      if (c :: rest).all fun d => isBaseDigit d || d == '_' then
        match withoutUnderscores (c :: rest) with
        | [] => some (.error (.noValue (.noDigits base)))
        | digits => some (.ok (signed negative (digitsIn base digits)))
      else none
  | _ => none

def integer? (text : List Char) : Option (Except Fault Value) :=
  let (negative, size) := splitSign text
  match marked? ['0', 'b'] 2 (fun c => c == '0' || c == '1') negative size with
  | some found => some found
  | none =>
      match marked? ['0', 'x'] 16 (fun c => (Json.hexValue? c).isSome) negative size with
      | some found => some found
      | none =>
          match size with
          | '0' :: rest =>
              if rest.all fun c => ('0' ≤ c && c ≤ '7') || c == '_' then
                some (.ok (signed negative (digitsIn 8 (withoutUnderscores rest))))
              else none
          | _ =>
              match splitAt ':' size with
              | [digits] =>
                  if isDigits digits then
                    let plain := withoutUnderscores digits
                    if integerDigitLimit < plain.length then
                      some (.error (.noValue (.longInteger plain.length integerDigitLimit)))
                    else some (.ok (signed negative (digitsIn 10 plain)))
                  else none
              | first :: parts =>
                  if isDigits first && parts.all isSixtieth then
                    some (.ok (signed negative
                      (parts.foldl (fun total part => total * 60 + digitsIn 10 part)
                        (digitsIn 10 (withoutUnderscores first)))))
                  else none
              | [] => none

def exponent? : List Char → Option Int
  | [] => some 0
  | e :: rest =>
      if e == 'e' || e == 'E' then
        match rest with
        | sign :: c :: digits =>
            if (sign == '-' || sign == '+') && (c :: digits).all isAsciiDigit then
              let size : Int := digitsIn 10 (c :: digits)
              some (if sign == '-' then -size else size)
            else none
        | _ => none
      else none

/-- A number with a point: the digits around it and an exponent. -/
def pointed (negative : Bool) (whole fraction : List Char) (exponent : Int) : Binary64 :=
  let digits := withoutUnderscores (whole ++ fraction)
  .ofDecimal negative (digitsIn 10 digits) (exponent - (withoutUnderscores fraction).length)

def decimal? (text : List Char) : Option Binary64 :=
  let (negative, size) := splitSign text
  let whole := size.takeWhile isDigitOrUnderscore
  match size.drop whole.length with
  | '.' :: rest =>
      let fraction := rest.takeWhile isDigitOrUnderscore
      match exponent? (rest.drop fraction.length) with
      | none => none
      | some exponent =>
          if isDigits whole || (whole.isEmpty && text == size && isDigits fraction) then
            some (pointed negative whole fraction exponent)
          else none
  | _ => none

def sumOfSixtieths (last : Binary64) (parts : List Nat) : Binary64 :=
  let step (sum : Binary64 × Nat) (part : Nat) : Binary64 × Nat :=
    (sum.1.addSizes ((Binary64.ofRatio false part 1).scale sum.2), sum.2 * 60)
  (parts.foldl step (last, 60)).1

def sexagesimal? (text : List Char) : Option Binary64 :=
  let (negative, size) := splitSign text
  let before := size.takeWhile (· != '.')
  match splitAt ':' before, size.drop before.length with
  | first :: part :: parts, '.' :: fraction =>
      if isDigits first && (part :: parts).all isSixtieth && fraction.all isDigitOrUnderscore then
        let wholes := (withoutUnderscores first :: part :: parts).reverse
        let last := pointed false (wholes.headD []) fraction 0
        let sum := sumOfSixtieths last (wholes.tail.map (digitsIn 10))
        some (if negative then sum.negate else sum)
      else none
  | _, _ => none

def namedNumber? (text : List Char) : Option Binary64 :=
  let (negative, size) := splitSign text
  if [".inf", ".Inf", ".INF"].contains (String.ofList size) then some (.infinite negative)
  else if [".nan", ".NaN", ".NAN"].contains (String.ofList text) then some .nan
  else none

def float? (text : List Char) : Option Binary64 :=
  (decimal? text).or ((sexagesimal? text).or (namedNumber? text))

def isLeapYear (year : Nat) : Bool := (year % 4 == 0 && year % 100 != 0) || year % 400 == 0

def daysIn? (year month : Nat) : Option Nat :=
  [31, if isLeapYear year then 29 else 28, 31, 30, 31, 30, 31, 31, 30, 31, 30, 31][month - 1]?

def date? (text : List Char) : Option (Except Fault Value) :=
  match text with
  | [a, b, c, d, '-', e, f, '-', g, h] =>
      if [a, b, c, d, e, f, g, h].all isAsciiDigit then
        let year := digitsIn 10 [a, b, c, d]
        let month := digitsIn 10 [e, f]
        let day := digitsIn 10 [g, h]
        some <|
          if year = 0 then .error (.noValue .yearZero)
          else
            match (if month = 0 then none else daysIn? year month) with
            | none => .error (.noValue .monthRange)
            | some days =>
                if 1 ≤ day ∧ day ≤ days then .ok (.date year month day)
                else .error (.noValue .dayRange)
      else none
  | _ => none

/-- The meaning of a plain scalar: a text unless it has the form of something else. -/
def meaning (text : List Char) : Except Fault Meaning := do
  let written := String.ofList text
  if trueWords.contains written then pure (.value (.bool true))
  else if falseWords.contains written then pure (.value (.bool false))
  else if nullWords.contains written then pure (.value .null)
  else if written = "<<" then pure .merge
  else if written = "=" then pure .default
  else
    match float? text, integer? text, date? text with
    | some number, _, _ => pure (.value (.float number))
    | none, some number, _ => .value <$> number
    | none, none, some date => .value <$> date
    | none, none, none => pure (.value (.string written))

end OpenApiClient.Yaml
