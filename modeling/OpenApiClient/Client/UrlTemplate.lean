import OpenApiClient.Entries

/-! Templates of URLs: text with names in braces, which are replaced by values. Values are inserted as they
are, whatever they hold. -/

namespace OpenApiClient.Client

inductive TemplateFault where
  | unbalanced
  | missingValue (name : String)
  deriving DecidableEq, Repr, Inhabited

def TemplateFault.message (template : String) : TemplateFault → String
  | .unbalanced => "\"" ++ template ++ "\": Unbalanced braces!"
  | .missingValue name => "\"" ++ template ++ "\": Missing value for parameter '" ++ name ++ "'!"

/-- Resolves the rest of a template. `name` is what was read of a name whose brace is open. -/
def resolveRest (values : String → Option String) (name : Option (List Char)) :
    List Char → Except TemplateFault (List Char)
  | [] => if name.isSome then .error .unbalanced else .ok []
  | c :: rest =>
      match name with
      | none =>
          if c = '{' then resolveRest values (some []) rest
          else if c = '}' then .error .unbalanced
          else (c :: ·) <$> resolveRest values none rest
      | some name =>
          if c = '{' then .error .unbalanced
          else if c = '}' then
            match values (String.ofList name) with
            | some value => (value.toList ++ ·) <$> resolveRest values none rest
            | none => .error (.missingValue (String.ofList name))
          else resolveRest values (some (name ++ [c])) rest

def resolveTemplate (template : String) (values : List (String × String)) :
    Except TemplateFault String :=
  String.ofList <$> resolveRest (fun name => Entries.find? name values) none template.toList

end OpenApiClient.Client
