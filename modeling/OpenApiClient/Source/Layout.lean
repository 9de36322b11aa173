import OpenApiClient.Text.Lines

/-! Layout of source text: lines, each with a line feed at its end, and docstrings between triple quotes. -/

namespace OpenApiClient.Source

/-- Text that means itself between triple quotes: backslashes are doubled, and every quote of three in a row
gets a backslash in front of it. -/
def escapeDocstring : List Char → List Char
  | '"' :: '"' :: '"' :: rest => '\\' :: '"' :: '\\' :: '"' :: '\\' :: '"' :: escapeDocstring rest
  | c :: rest => if c = '\\' then '\\' :: '\\' :: escapeDocstring rest else c :: escapeDocstring rest
  | [] => []

def docstringSafe (text : String) : String := String.ofList (escapeDocstring text.toList)

def tripleQuote : String := "\"\"\""

def block (lines : List String) : String := String.join (lines.map (· ++ "\n"))

def indented (width : Nat) (lines : List String) : List String :=
  lines.map (String.ofList (List.replicate width ' ') ++ ·)

def shortDocstring (text : String) : String := tripleQuote ++ docstringSafe text ++ tripleQuote

def docstringLines (lines : List String) : List String :=
  tripleQuote :: lines.map docstringSafe ++ [tripleQuote]

def docstring (lines : List String) : String := "\n".intercalate (docstringLines lines)

def fileComment : String := "# File automatically generated from OpenAPI spec."

end OpenApiClient.Source
