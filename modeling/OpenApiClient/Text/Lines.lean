import OpenApiClient.Text.Character

/-! Lines of a text. A line ends at any of the controls and separators that end lines; a carriage return
and the line feed after it are one end. -/

namespace OpenApiClient.Text

def endsLine (c : Char) : Bool :=
  ['\n', '\r', '\x0b', '\x0c', '\x1c', '\x1d', '\x1e', '\u0085', '\u2028', '\u2029'].contains c

/-- The lines without their ends. `line` is the beginning of the current one, in reverse order. Nothing
stands for the empty rest after a final line end. -/
def linesAfter (line : List Char) : List Char → List (List Char)
  | [] => if line.isEmpty then [] else [line.reverse]
  | '\r' :: '\n' :: rest => line.reverse :: linesAfter [] rest
  | c :: rest => if endsLine c then line.reverse :: linesAfter [] rest else linesAfter (c :: line) rest

def lines (text : List Char) : List (List Char) := linesAfter [] text

/-- Indents every line but the first; empty lines stay empty, and every line end becomes a line feed. -/
def indentRest (width : Nat) (text : String) : String :=
  match lines (text.toList ++ ['\n']) with
  | [] => ""
  | first :: rest =>
      String.ofList (first ++ rest.flatMap fun line =>
        '\n' :: (if line.isEmpty then [] else List.replicate width ' ' ++ line))

def universalNewlines : List Char → List Char
  | [] => []
  | '\r' :: '\n' :: rest => '\n' :: universalNewlines rest
  | c :: rest => (if c = '\r' then '\n' else c) :: universalNewlines rest

end OpenApiClient.Text
