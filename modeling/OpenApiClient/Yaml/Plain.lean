import OpenApiClient.Yaml.Character

/-! Plain scalars: text without quotes. It goes on over line breaks while the lines are indented. -/

namespace OpenApiClient.Yaml

def afterKey (inFlow : Bool) (text : List Char) : Bool :=
  endsWord text || (inFlow && text.head?.any [',', '[', ']', '{', '}'].contains)

def plainRun (inFlow : Bool) : List Char → List Char
  | [] => []
  | c :: rest =>
      if isBlank c || isBreak c || (c == ':' && afterKey inFlow rest) ||
          (inFlow && [',', '?', '[', ']', '{', '}'].contains c) then []
      else c :: plainRun inFlow rest

structure Gap where
  text : List Char
  length : Nat
  column : Option Nat
  deriving Repr, Inhabited

structure LineStart where
  breaks : List Char
  length : Nat
  column : Nat
  marked : Bool
  deriving Repr, Inhabited

def lineStart (column : Nat) : List Char → LineStart
  | [] => ⟨[], 0, column, false⟩
  | c :: rest =>
      if c = ' ' then
        let start := lineStart (column + 1) rest
        { start with length := start.length + 1 }
      else if isBreak c then
        if startsDocument rest then ⟨[breakText c], 1, 0, true⟩
        else
          let start := lineStart 0 rest
          { start with breaks := breakText c :: start.breaks, length := start.length + 1 }
      else ⟨[], 0, column, false⟩

def gap (text : List Char) : Gap :=
  let spaces := text.takeWhile (· == ' ')
  match text.drop spaces.length with
  | [] => ⟨spaces, spaces.length, none⟩
  | c :: rest =>
      if !isBreak c then ⟨spaces, spaces.length, none⟩
      else if startsDocument rest then ⟨[], spaces.length + 1, some 0⟩
      else
        let start := lineStart 0 rest
        ⟨if start.marked then [] else folded c start.breaks, spaces.length + 1 + start.length,
          some start.column⟩

/-- A plain scalar, with the white space after it. -/
structure Plain extends Scanned where
  endsLine : Bool
  deriving Repr, Inhabited

/-- Reads a plain scalar. `margin` is the least column at which a line of it may start. Every round takes a
run, so the length of the text is fuel enough. -/
def plain (inFlow : Bool) (margin : Nat) : Nat → List Char → Plain
  | 0, _ => ⟨⟨[], 0⟩, false⟩
  | fuel + 1, text =>
      let run := plainRun inFlow text
      let gap := gap (text.drop run.length)
      let length := run.length + gap.length
      let next := text.drop length
      let outdented := !inFlow && gap.column.any (· < margin)
      if gap.text.isEmpty || next.head? == some '#' || outdented || (plainRun inFlow next).isEmpty then
        ⟨⟨run, length⟩, gap.column.isSome⟩
      else
        let more := plain inFlow margin fuel next
        { more with toScanned := more.toScanned.after (run ++ gap.text) length }

end OpenApiClient.Yaml
