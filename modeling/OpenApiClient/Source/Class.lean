import OpenApiClient.Declaration.Basic
import OpenApiClient.Package.Wording
import OpenApiClient.Source.Layout

/-! Source text of declared classes. A class stands at the margin; one that is nested in another is indented
as a whole. -/

namespace OpenApiClient.Source

def commentLines (width : Nat) (description : Value) : Except Malformed (List String) := do
  pure ((← description.wrapped width).map ("# " ++ ·))

def fieldDefault (field : FieldDeclaration) : String :=
  let renamed := "metadata=\x7b\"json\": " ++ Text.quotedText field.jsonName ++ "\x7d)"
  if field.name ≠ field.jsonName then
    " = field(" ++ (if field.hasDefault then "default=None, " else "") ++ renamed
  else if field.hasDefault then " = None"
  else ""

def fieldLines (field : FieldDeclaration) : Except Malformed (List String) := do
  let comment ← commentLines 76 field.description
  pure (indented 4 (comment ++ [field.name ++ ": " ++ field.typeText ++ fieldDefault field]))

def classDocstring (description : Value) : Except Malformed String := do
  if description.truth then
    let lines ← description.wrapped 76
    pure (block ["    " ++ Text.indentRest 4 (docstring lines)])
  else pure ""

mutual

def classText : ClassDeclaration → Except Malformed String
  | ⟨name, _, description, fields, inner, _⟩ => do
      let documented ← classDocstring description
      let nested ← nestedText inner
      let fieldLines ← fields.mapM fieldLines
      let empty := !description.truth && inner.isEmpty && fields.isEmpty
      pure (block ["@dataclass(kw_only=True)", "class " ++ name ++ ":"] ++ documented ++ nested ++
        block fieldLines.flatten ++ (if empty then block ["    pass"] else ""))

def nestedText : List ClassDeclaration → Except Malformed String
  | [] => pure ""
  | declared :: rest => do
      let text ← classText declared
      pure (block ["", "    " ++ Text.indentRest 4 text, ""] ++ (← nestedText rest))

end

def moduleClasses (declarations : List ClassDeclaration) : Except Malformed String := do
  let texts ← declarations.mapM classText
  pure (String.join (texts.map fun text => block ["", "", text]))

end OpenApiClient.Source
