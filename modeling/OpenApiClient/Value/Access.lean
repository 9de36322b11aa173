import OpenApiClient.Entries
import OpenApiClient.Value.Basic

/-! Reading parts of a value whose form is not known. Every access says what kinds of value it is for and
which fault any other kind is. -/

namespace OpenApiClient.Value

def lookup (key : String) (members : List (Value × Value)) : Option Value :=
  Entries.get? same (.string key) members

def members : Value → Except Malformed (List (Value × Value))
  | .object members => .ok members
  | _ => .error .unsupportedAccess

def member? (value : Value) (key : String) : Except Malformed (Option Value) :=
  (lookup key ·) <$> value.members

/-- An optional member of an object, null when it is absent. -/
def member (value : Value) (key : String) : Except Malformed Value :=
  (fun found => found.getD .null) <$> value.member? key

def membersOrNone (value : Value) : Except Malformed (List (Value × Value)) :=
  if value.truth then value.members else .ok []

def memberOrNull (value : Value) (key : String) : Except Malformed Value :=
  if value.truth then value.member key else .ok .null

/-- The items that a value is made of: the items of a sequence, the keys of an object, the characters of
a text. -/
def items : Value → Except Malformed (List Value)
  | .array items | .tuple items => .ok items
  | .string text => .ok (text.toList.map fun c => .string (String.singleton c))
  | .object members => .ok (members.map Prod.fst)
  | .bytes octets => .ok (octets.map fun octet => .int octet.toNat)
  | _ => .error .unsuitableKind

def itemsOrNone (value : Value) : Except Malformed (List Value) :=
  if value.truth then value.items else .ok []

def occursIn (part : List Char) : List Char → Bool
  | [] => part.isEmpty
  | c :: rest => part.isPrefixOf (c :: rest) || occursIn part rest

def has (value : Value) (text : String) : Except Malformed Bool :=
  match value with
  | .object members => .ok (lookup text members).isSome
  | .string whole => .ok (occursIn text.toList whole.toList)
  | .array items | .tuple items => .ok (items.any (same (.string text)))
  | _ => .error .unsuitableKind

def asText (value : Value) : Except Malformed String :=
  match value with
  | .string text => .ok text
  | _ => .error .unsupportedAccess

def asPattern (value : Value) : Except Malformed String :=
  match value with
  | .string text => .ok text
  | _ => .error .unsuitableKind

def asKey (value : Value) : Except Malformed Value :=
  if value.isKey then .ok value else .error .unsuitableKind

end OpenApiClient.Value
