import OpenApiClient.Value.Written

/-! Texts of parameter values, and the deep-object form, which names every leaf of a value by its path in
brackets. -/

namespace OpenApiClient.Client

def formatValue : Value → Except LongInteger String
  | .bool truth => .ok (if truth then "true" else "false")
  | .null => .ok ""
  | other => other.written

def childKey (key : Option String) (part : String) : String :=
  match key with
  | none => part
  | some key => key ++ "[" ++ part ++ "]"

def isBlankLeaf : Value → Bool
  | .null => true
  | .string text => text.isEmpty
  | _ => false

mutual

def leaves (key : String) : Value → Except LongInteger (List (String × String))
  | .object members => memberLeaves (some key) members
  | .array items | .tuple items => itemLeaves (some key) 0 items
  | leaf => if isBlankLeaf leaf then .ok [] else (fun text => [(key, text)]) <$> formatValue leaf

def memberLeaves (key : Option String) : List (Value × Value) → Except LongInteger (List (String × String))
  | [] => .ok []
  | (name, value) :: rest => do
      let name ← name.written
      let found ← leaves (childKey key name) value
      pure (found ++ (← memberLeaves key rest))

def itemLeaves (key : Option String) (index : Nat) : List Value → Except LongInteger (List (String × String))
  | [] => .ok []
  | item :: rest => do
      let found ← leaves (childKey key (toString index)) item
      pure (found ++ (← itemLeaves key (index + 1) rest))

end

inductive DeepObjectFault where
  | bareScalar (value : Value)
  | longInteger (fault : LongInteger)
  deriving Repr, Inhabited

def DeepObjectFault.message : DeepObjectFault → String
  | .bareScalar value => "Cannot encode a bare scalar without a key: " ++ value.literal
  | .longInteger fault => fault.message

/-- A bare scalar is refused with its literal, which it may not have. -/
def refuse (scalar : Value) : DeepObjectFault :=
  if scalar.hasLongInteger then .longInteger ⟨⟩ else .bareScalar scalar

/-- The deep-object form of a value under a key, or at the top when there is none. -/
def deepObject (key : Option String) (value : Value) : Except DeepObjectFault (List (String × String)) :=
  match key with
  | some key => (leaves key value).mapError .longInteger
  | none =>
      match value with
      | .object members => (memberLeaves none members).mapError .longInteger
      | .array items | .tuple items => (itemLeaves none 0 items).mapError .longInteger
      | leaf => if isBlankLeaf leaf then .ok [] else .error (refuse leaf)

end OpenApiClient.Client
