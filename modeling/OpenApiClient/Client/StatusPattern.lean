import OpenApiClient.Text.Casing
import OpenApiClient.Text.Quoted

/-! Patterns of response statuses: three digits, each of which may be an x that stands for any digit, or
the word default, which stands for whatever no other pattern holds. -/

namespace OpenApiClient.Client

def defaultPattern : String := "default"

structure PatternFault where
  pattern : String
  deriving DecidableEq, Repr, Inhabited

def PatternFault.message (fault : PatternFault) : String :=
  "Invalid status code pattern: " ++ Text.quotedText fault.pattern

def isPatternCharacter (c : Char) : Bool := Text.isAsciiDigit c || c == 'x'

def patternDigits? (pattern : String) : Option (List Char) :=
  match Text.lower pattern.toList with
  | [a, b, c] | [a, b, c, '\n'] => if [a, b, c].all isPatternCharacter then some [a, b, c] else none
  | _ => none

def isStatusPattern (pattern : String) : Bool :=
  pattern == defaultPattern || (patternDigits? pattern).isSome

def readDigits (wildcard : Nat) (digits : List Char) : Nat :=
  digits.foldl (fun total c => total * 10 + (if c = 'x' then wildcard else c.toNat - 48)) 0

def statusRange (pattern : String) : Except PatternFault (Nat × Nat) :=
  match patternDigits? pattern with
  | some digits => .ok (readDigits 0 digits, readDigits 9 digits)
  | none => .error ⟨pattern⟩

def matchStatus (patterns : List String) (status : Int) : Except PatternFault (Option String) :=
  match patterns with
  | [] => .ok none
  | pattern :: rest =>
      if pattern = defaultPattern then
        (fun found => some (found.getD defaultPattern)) <$> matchStatus rest status
      else
        match statusRange pattern with
        | .error fault => .error fault
        | .ok (low, high) =>
            if (low : Int) ≤ status ∧ status ≤ high then .ok (some pattern) else matchStatus rest status

end OpenApiClient.Client
