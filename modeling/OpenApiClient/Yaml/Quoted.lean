import OpenApiClient.Json.Reader
import OpenApiClient.Yaml.Character
import OpenApiClient.Yaml.Fault

/-! Quoted scalars. Line breaks in them are folded. In single quotes a quote is written twice; in double
quotes a backslash begins an escape. -/

namespace OpenApiClient.Yaml

inductive QuoteStyle where
  | single
  | double
  deriving DecidableEq, Repr, Inhabited

def QuoteStyle.mark : QuoteStyle → Char
  | .single => '\''
  | .double => '"'

def quotedBreaks (atLineStart : Bool) : List Char → Except Fault Scanned
  | [] => .ok ⟨[], 0⟩
  | c :: rest =>
      if atLineStart && startsDocument (c :: rest) then .error .ungrammatical
      else if isBlank c then Scanned.after [] 1 <$> quotedBreaks false rest
      else if isBreak c then Scanned.after [breakText c] 1 <$> quotedBreaks true rest
      else .ok ⟨[], 0⟩

def quotedGap (text : List Char) : Except Fault Scanned :=
  let blanks := text.takeWhile isBlank
  match text.drop blanks.length with
  | [] => .error .ungrammatical
  | c :: rest =>
      if isBreak c then do
        let breaks ← quotedBreaks true rest
        pure ⟨folded c breaks.text, blanks.length + 1 + breaks.length⟩
      else .ok ⟨blanks, blanks.length⟩

def shortEscapes : List (Char × Char) :=
  [('0', '\x00'), ('a', '\x07'), ('b', '\x08'), ('t', '\t'), ('\t', '\t'), ('n', '\n'), ('v', '\x0b'),
    ('f', '\x0c'), ('r', '\r'), ('e', '\x1b'), (' ', ' '), ('"', '"'), ('\\', '\\'), ('/', '/'),
    ('N', '\u0085'), ('_', '\u00a0'), ('L', '\u2028'), ('P', '\u2029')]

def codeLength? (c : Char) : Option Nat := [('x', 2), ('u', 4), ('U', 8)].lookup c

def codeEscape (digits : List Char) (length : Nat) : Except Fault Char :=
  match digits.mapM Json.hexValue? with
  | some values =>
      let code := values.foldl (fun total digit => total * 16 + digit) 0
      if values.length ≠ length then .error .ungrammatical
      else if code < 0x110000 then .ok (Text.unitCharacter code)
      else .error (.noValue (.codePoint code))
  | none => .error .ungrammatical

def escape (text : List Char) : Except Fault Scanned :=
  match text with
  | [] => .error .ungrammatical
  | c :: rest =>
      match shortEscapes.lookup c, codeLength? c with
      | some escaped, _ => .ok ⟨[escaped], 1⟩
      | none, some length => do
          pure ⟨[← codeEscape (rest.take length) length], length + 1⟩
      | none, none =>
          if isBreak c then Scanned.after [] 1 <$> quotedBreaks true rest else .error .ungrammatical

/-- Reads the rest of a quoted scalar with its closing quote. Every round takes a character, so the length
of the text is fuel enough. -/
def quoted (style : QuoteStyle) : Nat → List Char → Except Fault Scanned
  | 0, _ => .error .ungrammatical
  | _, [] => .error .ungrammatical
  | fuel + 1, c :: rest =>
      let next (part : Scanned) : Except Fault Scanned :=
        Scanned.after part.text part.length <$> quoted style fuel ((c :: rest).drop part.length)
      if isBlank c || isBreak c then quotedGap (c :: rest) >>= next
      else if c = style.mark then
        if style = .single ∧ rest.head? = some c then next ⟨[c], 2⟩ else .ok ⟨[], 1⟩
      else if style = .double ∧ c = '\\' then do
        let escaped ← escape rest
        next { escaped with length := escaped.length + 1 }
      else next ⟨[c], 1⟩

end OpenApiClient.Yaml
