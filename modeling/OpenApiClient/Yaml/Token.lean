import OpenApiClient.Yaml.Block
import OpenApiClient.Yaml.Plain
import OpenApiClient.Yaml.Quoted

/-! Tokens. Blocks are delimited by indentation, so the lexer keeps the margins of the blocks that are open.
A key is known only by the colon after it: the place of everything that may turn out to be a key is
remembered, and the tokens in front of the key are put there when the colon comes. -/

namespace OpenApiClient.Yaml

inductive Token where
  | directive
  | documentStart
  | documentEnd
  | sequenceStart
  | mappingStart
  | blockEnd
  | flowSequenceStart
  | flowSequenceEnd
  | flowMappingStart
  | flowMappingEnd
  | entry
  | flowEntry
  | key
  | value
  | anchor (name : String)
  | alias (name : String)
  | scalar (text : List Char) (isPlain : Bool)
  deriving DecidableEq, Repr, Inhabited

structure PendingKey where
  depth : Nat
  place : Nat
  /-- Has it to be a key, since nothing else can stand there? -/
  required : Bool
  index : Nat
  line : Nat
  column : Nat
  deriving Repr, Inhabited

structure Lexer where
  rest : List Char
  index : Nat := 0
  line : Nat := 0
  column : Nat := 0
  margin : Nat := 0
  outer : List Nat := []
  depth : Nat := 0
  keyAllowed : Bool := true
  pending : List PendingKey := []
  tokens : Array Token := #[]
  deriving Repr, Inhabited

namespace Lexer

def push (token : Token) (lexer : Lexer) : Lexer := { lexer with tokens := lexer.tokens.push token }

def advance (lexer : Lexer) : Nat → Lexer
  | 0 => lexer
  | count + 1 =>
      match lexer.rest with
      | [] => lexer
      | c :: rest =>
          let passed := { lexer with rest, index := lexer.index + 1 }
          if isBreak c then advance { passed with line := lexer.line + 1, column := 0 } count
          else if c = '\ufeff' then advance passed count
          else advance { passed with column := lexer.column + 1 } count

def separation (inComment : Bool) : List Char → Nat × Bool
  | [] => (0, false)
  | c :: rest =>
      if isBreak c then ((separation false rest).1 + 1, true)
      else if inComment || c == '#' then
        let (length, broken) := separation true rest
        (length + 1, broken)
      else if c = ' ' then
        let (length, broken) := separation false rest
        (length + 1, broken)
      else (0, false)

/-- Goes to the next token. In a block, a key may begin on a new line. -/
def skipSeparation (lexer : Lexer) : Lexer :=
  let lexer :=
    if lexer.index = 0 ∧ lexer.rest.head? = some '\ufeff' then lexer.advance 1 else lexer
  let (length, broken) := separation false lexer.rest
  let passed := lexer.advance length
  { passed with keyAllowed := passed.keyAllowed || (broken && lexer.depth == 0) }

def giveUp (stale : PendingKey → Bool) (lexer : Lexer) : Except Fault Lexer :=
  if lexer.pending.any fun key => stale key && key.required then .error .ungrammatical
  else .ok { lexer with pending := lexer.pending.filter fun key => !stale key }

/-- A key is on one line and not longer than 1024 characters. -/
def giveUpStale (lexer : Lexer) : Except Fault Lexer :=
  lexer.giveUp fun key => key.line != lexer.line || decide (key.index + 1024 < lexer.index)

def giveUpOwn (lexer : Lexer) : Except Fault Lexer :=
  lexer.giveUp fun key => key.depth == lexer.depth

def rememberKey (lexer : Lexer) : Except Fault Lexer := do
  if lexer.keyAllowed then
    let required := lexer.depth == 0 && lexer.margin == lexer.column + 1
    let given ← lexer.giveUpOwn
    let key : PendingKey :=
      ⟨lexer.depth, lexer.tokens.size, required, lexer.index, lexer.line, lexer.column⟩
    pure { given with pending := key :: given.pending }
  else pure lexer

def closeTo (target : Nat) (lexer : Lexer) : Lexer :=
  if lexer.depth = 0 then go lexer.margin lexer.outer lexer.tokens else lexer
where
  go (margin : Nat) (outer : List Nat) (tokens : Array Token) : Lexer :=
    if target < margin then
      match outer with
      | [] => { lexer with margin := 0, outer := [], tokens := tokens.push .blockEnd }
      | next :: outer => go next outer (tokens.push .blockEnd)
    else { lexer with margin, outer, tokens }

/-- Opens a block at a column unless one is open there. Its token is put at a place among the others. -/
def openBlock (token : Token) (column place : Nat) (lexer : Lexer) : Lexer :=
  if lexer.depth = 0 ∧ lexer.margin < column + 1 then
    { lexer with
      outer := lexer.margin :: lexer.outer
      margin := column + 1
      tokens := lexer.tokens.insertIdxIfInBounds place token }
  else lexer

def documentMark (token : Token) (lexer : Lexer) : Except Fault Lexer := do
  let lexer ← (lexer.closeTo 0).giveUpOwn
  pure (({ lexer with keyAllowed := false }.advance 3).push token)

def directive (lexer : Lexer) : Except Fault Lexer := do
  let lexer ← (lexer.closeTo 0).giveUpOwn
  let length := (lexer.rest.takeWhile fun c => !isBreak c).length
  pure (({ lexer with keyAllowed := false }.advance length).push .directive)

def openFlow (token : Token) (lexer : Lexer) : Except Fault Lexer := do
  let lexer ← lexer.rememberKey
  pure (({ lexer with depth := lexer.depth + 1, keyAllowed := true }.advance 1).push token)

def closeFlow (token : Token) (lexer : Lexer) : Except Fault Lexer := do
  let lexer ← lexer.giveUpOwn
  pure (({ lexer with depth := lexer.depth - 1, keyAllowed := false }.advance 1).push token)

def flowEntry (lexer : Lexer) : Except Fault Lexer := do
  let lexer ← lexer.giveUpOwn
  pure (({ lexer with keyAllowed := true }.advance 1).push .flowEntry)

def needKeyAllowed (lexer : Lexer) : Except Fault Unit :=
  if lexer.depth = 0 ∧ !lexer.keyAllowed then .error .ungrammatical else .ok ()

def entry (lexer : Lexer) : Except Fault Lexer := do
  lexer.needKeyAllowed
  let lexer ← (lexer.openBlock .sequenceStart lexer.column lexer.tokens.size).giveUpOwn
  pure (({ lexer with keyAllowed := true }.advance 1).push .entry)

def markedKey (lexer : Lexer) : Except Fault Lexer := do
  lexer.needKeyAllowed
  let lexer ← (lexer.openBlock .mappingStart lexer.column lexer.tokens.size).giveUpOwn
  pure (({ lexer with keyAllowed := lexer.depth == 0 }.advance 1).push .key)

/-- A colon: what was remembered last is its key, if anything was. -/
def value (lexer : Lexer) : Except Fault Lexer := do
  match lexer.pending.find? fun key => key.depth == lexer.depth with
  | some key =>
      let confirmed := { lexer with
        pending := lexer.pending.filter fun other => other.depth != lexer.depth
        tokens := lexer.tokens.insertIdxIfInBounds key.place .key
        keyAllowed := false }
      pure (((confirmed.openBlock .mappingStart key.column key.place).advance 1).push .value)
  | none =>
      lexer.needKeyAllowed
      let lexer ← (lexer.openBlock .mappingStart lexer.column lexer.tokens.size).giveUpOwn
      pure (({ lexer with keyAllowed := lexer.depth == 0 }.advance 1).push .value)

def isNameCharacter (c : Char) : Bool :=
  Text.isAsciiLetter c || Text.isAsciiDigit c || c == '-' || c == '_'

def reference (token : String → Token) (lexer : Lexer) : Except Fault Lexer := do
  let lexer ← lexer.rememberKey
  let name := (lexer.rest.drop 1).takeWhile isNameCharacter
  let after := lexer.rest.drop (name.length + 1)
  let ended := endsWord after || after.head?.any ['?', ':', ',', ']', '}', '%', '@', '\x60'].contains
  if name.isEmpty || !ended then throw .ungrammatical
  pure (({ lexer with keyAllowed := false }.advance (name.length + 1)).push (token (String.ofList name)))

def quotedScalar (style : QuoteStyle) (lexer : Lexer) : Except Fault Lexer := do
  let lexer ← lexer.rememberKey
  let text := lexer.rest.drop 1
  let scanned ← quoted style (text.length + 1) text
  pure (({ lexer with keyAllowed := false }.advance (scanned.length + 1)).push
    (.scalar scanned.text false))

def blockScalar (folding : Bool) (lexer : Lexer) : Except Fault Lexer := do
  let lexer ← lexer.giveUpOwn
  let scanned ← block folding lexer.margin (lexer.rest.drop 1)
  pure (({ lexer with keyAllowed := true }.advance (scanned.length + 1)).push
    (.scalar scanned.text false))

def plainScalar (lexer : Lexer) : Except Fault Lexer := do
  let lexer ← lexer.rememberKey
  let scanned := plain (lexer.depth != 0) lexer.margin (lexer.rest.length + 1) lexer.rest
  pure (({ lexer with keyAllowed := scanned.endsLine }.advance scanned.length).push
    (.scalar scanned.text true))

def startsPlain (inFlow : Bool) (c : Char) (rest : List Char) : Bool :=
  if ['-', '?', ':'].contains c then !endsWord rest && (c == '-' || !inFlow)
  else !isBlank c &&
    !([',', '[', ']', '{', '}', '#', '&', '*', '!', '|', '>', '\'', '"', '%', '@', '\x60'].contains c)

def token (c : Char) (rest : List Char) (lexer : Lexer) : Except Fault Lexer :=
  let inFlow := lexer.depth != 0
  if lexer.column = 0 ∧ c = '%' then lexer.directive
  else if lexer.column = 0 ∧ isMarker '-' lexer.rest then lexer.documentMark .documentStart
  else if lexer.column = 0 ∧ isMarker '.' lexer.rest then lexer.documentMark .documentEnd
  else if c = '[' then lexer.openFlow .flowSequenceStart
  else if c = '{' then lexer.openFlow .flowMappingStart
  else if c = ']' then lexer.closeFlow .flowSequenceEnd
  else if c = '}' then lexer.closeFlow .flowMappingEnd
  else if c = ',' then lexer.flowEntry
  else if c = '-' ∧ endsWord rest then lexer.entry
  else if c = '?' ∧ (inFlow || endsWord rest) then lexer.markedKey
  else if c = ':' ∧ (inFlow || endsWord rest) then lexer.value
  else if c = '*' then lexer.reference .alias
  else if c = '&' then lexer.reference .anchor
  else if c = '|' ∧ !inFlow then lexer.blockScalar false
  else if c = '>' ∧ !inFlow then lexer.blockScalar true
  else if c = '\'' then lexer.quotedScalar .single
  else if c = '"' then lexer.quotedScalar .double
  else if startsPlain inFlow c rest then lexer.plainScalar
  else .error .ungrammatical

/-- Reads all tokens. Each takes a character, so one round more than there are characters is enough. -/
def run : Nat → Lexer → Except Fault (List Token)
  | 0, _ => .error .ungrammatical
  | fuel + 1, lexer => do
      let lexer ← lexer.skipSeparation.giveUpStale
      let lexer := lexer.closeTo (lexer.column + 1)
      match lexer.rest with
      | [] => do
          let lexer ← (lexer.closeTo 0).giveUpOwn
          pure lexer.tokens.toList
      | c :: rest => do run fuel (← lexer.token c rest)

end Lexer

def tokens (text : List Char) : Except Fault (List Token) :=
  if text.all isPrintable then Lexer.run (text.length + 1) { rest := text } else .error .ungrammatical

end OpenApiClient.Yaml
