import OpenApiClient.Text.Character

/-! Word wrapping. A line of text is cut into chunks, runs of blanks and the words between them, and the
chunks are laid out greedily. A word that is longer than a whole line is cut. -/

namespace OpenApiClient.Text

/-- Replaces every tab by blanks up to the next multiple of eight columns. -/
def expandTabs (column : Nat) : List Char → List Char
  | [] => []
  | c :: rest =>
      if c = '\t' then
        let width := 8 - column % 8
        List.replicate width ' ' ++ expandTabs (column + width) rest
      else if c = '\n' ∨ c = '\r' then c :: expandTabs 0 rest
      else c :: expandTabs (column + 1) rest

def chunks : List Char → List (List Char)
  | [] => []
  | c :: rest =>
      match chunks rest with
      | (d :: chunk) :: more =>
          if (c == ' ') == (d == ' ') then (c :: d :: chunk) :: more else [c] :: (d :: chunk) :: more
      | other => [c] :: other

def takeFitting (room : Nat) : List (List Char) → List (List Char) × List (List Char)
  | [] => ([], [])
  | chunk :: rest =>
      if chunk.length ≤ room then
        let (taken, left) := takeFitting (room - chunk.length) rest
        (chunk :: taken, left)
      else ([], chunk :: rest)

/-- Cuts the first chunk left over, when no line could hold it, so that it fills up this line. -/
def fillUp (width : Nat) (taken left : List (List Char)) : List (List Char) × List (List Char) :=
  match left with
  | [] => (taken, [])
  | chunk :: rest =>
      if width < chunk.length then
        let room := width - taken.flatten.length
        (taken ++ [chunk.take room], chunk.drop room :: rest)
      else (taken, left)

def dropFinalSpace (line : List (List Char)) : List (List Char) :=
  match line.getLast? with
  | some chunk => if isAllSpace chunk then line.dropLast else line
  | none => []

def dropLeadingSpace : List (List Char) → List (List Char)
  | [] => []
  | chunk :: rest => if isAllSpace chunk then rest else chunk :: rest

/-- Lays out chunks in lines of at most `width` characters. `started` tells whether there is a line
before; then a line does not begin with white space. Each line takes at least one character, so the
number of characters is fuel enough. -/
def layOut (width : Nat) (started : Bool) : Nat → List (List Char) → List (List Char)
  | 0, _ => []
  | _, [] => []
  | fuel + 1, all =>
      let (fitting, left) := takeFitting width (if started then dropLeadingSpace all else all)
      let (filled, left) := fillUp width fitting left
      let line := dropFinalSpace filled
      if line.isEmpty then layOut width started fuel left
      else line.flatten :: layOut width true fuel left

def wrapLine (width : Nat) (line : List Char) : List (List Char) :=
  let plain := (expandTabs 0 line).map fun c => if isBlank c then ' ' else c
  layOut width false (plain.length + 1) (chunks plain)

/-- Wraps every line of a text by itself; a line without words stays as an empty line. The empty text
has no lines. -/
def wrap (width : Nat) (text : List Char) : List (List Char) :=
  if text.isEmpty then []
  else (splitAt '\n' text).flatMap fun line =>
    match wrapLine width line with
    | [] => [[]]
    | wrapped => wrapped

def wrapText (width : Nat) (text : String) : List String :=
  (wrap width text.toList).map String.ofList

end OpenApiClient.Text
