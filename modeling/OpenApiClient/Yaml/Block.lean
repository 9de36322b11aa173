import OpenApiClient.Yaml.Character
import OpenApiClient.Yaml.Fault

/-! Block scalars: literal ones keep their line breaks, folded ones join lines that are not indented
further. A header may say what becomes of the last line break and how far the lines are indented. -/

namespace OpenApiClient.Yaml

inductive Chomping where
  | clip
  | strip
  | keep
  deriving DecidableEq, Repr, Inhabited

structure BlockHeader where
  chomping : Chomping
  /-- The indentation beyond that of the block around, if it is given. -/
  increment : Option Nat
  length : Nat
  deriving Repr, Inhabited

def chomping? : List Char → Option Chomping
  | '+' :: _ => some .keep
  | '-' :: _ => some .strip
  | _ => none

def increment? : List Char → Option Nat
  | c :: _ => if Text.isAsciiDigit c then some (c.toNat - 48) else none
  | [] => none

def blockHeader (text : List Char) : Except Fault BlockHeader := do
  let (chomping, increment, length) :=
    match chomping? text with
    | some chomping =>
        let increment := increment? (text.drop 1)
        (chomping, increment, if increment.isSome then 2 else 1)
    | none =>
        match increment? text with
        | some increment =>
            match chomping? (text.drop 1) with
            | some chomping => (chomping, some increment, 2)
            | none => (.clip, some increment, 1)
        | none => (.clip, none, 0)
  if increment = some 0 then throw .ungrammatical
  let spaces := (text.drop length).takeWhile (· == ' ')
  let comment :=
    match text.drop (length + spaces.length) with
    | '#' :: rest => '#' :: rest.takeWhile fun c => !isBreak c
    | _ => []
  if spaces.isEmpty && !comment.isEmpty then throw .ungrammatical
  let length := length + spaces.length + comment.length
  match text.drop length with
  | [] => pure ⟨chomping, increment, length⟩
  | c :: _ => if isBreak c then pure ⟨chomping, increment, length + 1⟩ else throw .ungrammatical

structure Leading where
  breaks : List Char
  length : Nat
  column : Nat
  deepest : Nat
  deriving Repr, Inhabited

def leading (limit : Option Nat) (column : Nat) : List Char → Leading
  | [] => ⟨[], 0, column, column⟩
  | c :: rest =>
      if c == ' ' && limit.all (column < ·) then
        let found := leading limit (column + 1) rest
        { found with length := found.length + 1, deepest := max column found.deepest }
      else if isBreak c then
        let found := leading limit 0 rest
        { found with
          breaks := breakText c :: found.breaks
          length := found.length + 1
          deepest := max column found.deepest }
      else ⟨[], 0, column, column⟩

structure BlockLines where
  text : List Char
  last : List Char
  trailing : List Char
  length : Nat
  deriving Repr, Inhabited

/-- What a line break between two lines becomes. -/
def joint (folding : Bool) (line next : List Char) (last breaks : List Char) : List Char :=
  let isText (line : List Char) : Bool := line.head?.any fun c => !isBlank c
  if folding && last == ['\n'] && isText line && isText next then
    if breaks.isEmpty then [' '] else []
  else last

/-- Reads the lines at an indentation. Every line but the last takes a line break, so the length of the
text is fuel enough. -/
def blockLines (folding : Bool) (indentation : Nat) : Nat → List Char → BlockLines
  | 0, _ => ⟨[], [], [], 0⟩
  | fuel + 1, text =>
      let line := text.takeWhile fun c => !isBreak c
      let last := ((text.drop line.length).take 1).map breakText
      let start := leading (some indentation) 0 (text.drop (line.length + last.length))
      let length := line.length + last.length + start.length
      let next := text.drop length
      if start.column = indentation ∧ !next.isEmpty then
        let more := blockLines folding indentation fuel next
        { more with
          text := line ++ joint folding (text.take 1) next last start.breaks ++ start.breaks ++ more.text
          length := length + more.length }
      else ⟨line, last, start.breaks, length⟩

def block (folding : Bool) (margin : Nat) (text : List Char) : Except Fault Scanned := do
  let header ← blockHeader text
  let least := max margin 1
  let body := text.drop header.length
  let (indentation, start) :=
    match header.increment with
    | some increment =>
        let indentation := least + increment - 1
        (indentation, leading (some indentation) 0 body)
    | none =>
        let start := leading none 0 body
        (max least start.deepest, start)
  let content := body.drop start.length
  let lines :=
    if start.column = indentation ∧ !content.isEmpty then
      let lines := blockLines folding indentation (content.length + 1) content
      { lines with text := start.breaks ++ lines.text }
    else ⟨[], [], start.breaks, 0⟩
  let ending :=
    match header.chomping with
    | .clip => lines.last
    | .strip => []
    | .keep => lines.last ++ lines.trailing
  pure ⟨lines.text ++ ending, header.length + start.length + lines.length⟩

end OpenApiClient.Yaml
