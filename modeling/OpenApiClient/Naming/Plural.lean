/-! Singular and plural of resource names, by endings and a few irregular words. -/

namespace OpenApiClient.Naming

def irregularNouns : List (String × String) :=
  [("child", "children"), ("person", "people"), ("index", "indices"), ("matrix", "matrices"),
    ("vertex", "vertices"), ("analysis", "analyses"), ("criterion", "criteria"), ("datum", "data")]

def irregularPlural? (word : String) : Option String := irregularNouns.lookup word

def irregularSingular? (word : String) : Option String :=
  (irregularNouns.map fun (singular, plural) => (plural, singular)).lookup word

def isVowel (c : Char) : Bool := ['a', 'e', 'i', 'o', 'u'].contains c

def regularPlural (word : List Char) : List Char :=
  match word.reverse with
  | 's' :: _ => word
  | 'y' :: before =>
      if (before.head?.map isVowel).getD false then word ++ ['s'] else before.reverse ++ "ies".toList
  | _ => word ++ ['s']

def regularSingular (word : List Char) : List Char :=
  match word.reverse with
  | 's' :: 'e' :: 'i' :: stem => ('y' :: stem).reverse
  | 's' :: 'e' :: 's' :: 's' :: stem => ('s' :: 's' :: stem).reverse
  | 's' :: 'e' :: 'h' :: 's' :: stem => ('h' :: 's' :: stem).reverse
  | 's' :: 'e' :: 'h' :: 'c' :: stem => ('h' :: 'c' :: stem).reverse
  | 's' :: 'e' :: 'x' :: stem => ('x' :: stem).reverse
  | 's' :: 's' :: _ => word
  | 's' :: stem => stem.reverse
  | _ => word

def pluralize (word : String) : String :=
  match irregularPlural? word with
  | some plural => plural
  | none =>
      if (irregularSingular? word).isSome then word else String.ofList (regularPlural word.toList)

def singularize (word : String) : String :=
  match irregularSingular? word with
  | some singular => singular
  | none =>
      if (irregularPlural? word).isSome then word else String.ofList (regularSingular word.toList)

end OpenApiClient.Naming
