import OpenApiClient.Entries
import OpenApiClient.Yaml.Implicit
import OpenApiClient.Yaml.Node

/-! A reader of plain YAML: block and flow collections, scalars of every style, anchors and merge keys, but no tags, no
keys that are collections, and no timestamps with a time, which are read as texts. Of members with one key the last
value stands at the first place. Members that are merged into a mapping come before its own. -/

namespace OpenApiClient.Yaml

namespace Node

mutual

/-- The members of a mapping as they are read: merged ones first, then its own. -/
def membersOf : List (Node × Node) → Except Fault (List (Value × Value) × List (Value × Value))
  | [] => pure ([], [])
  | (key, value) :: rest => do
      let meaning ← keyMeaning key
      match meaning with
      | .merge => do
          let merged ← mergedFrom value
          let (others, own) ← membersOf rest
          pure (merged ++ others, own)
      | .default => do
          let value ← toValue value
          let (merged, own) ← membersOf rest
          pure (merged, (.string "=", value) :: own)
      | .value key => do
          let value ← toValue value
          let (merged, own) ← membersOf rest
          pure (merged, (key, value) :: own)

def keyMeaning : Node → Except Fault Meaning
  | .scalar text isPlain =>
      if isPlain then meaning text else pure (.value (.string (String.ofList text)))
  | _ => throw .ungrammatical

/-- The members that are merged from a mapping, or from a sequence of mappings of which the first wins. -/
def mergedFrom : Node → Except Fault (List (Value × Value))
  | .mapping members => do
      let (merged, own) ← membersOf members
      pure (merged ++ own)
  | .sequence items => mergedFromAll items
  | .scalar _ _ => throw .ungrammatical

def mergedFromAll : List Node → Except Fault (List (Value × Value))
  | [] => pure []
  | .mapping members :: rest => do
      let (merged, own) ← membersOf members
      pure ((← mergedFromAll rest) ++ (merged ++ own))
  | _ :: _ => throw .ungrammatical

def toValue : Node → Except Fault Value
  | .scalar text isPlain =>
      if isPlain then do
        match ← meaning text with
        | .value value => pure value
        | .merge | .default => throw .ungrammatical
      else pure (.string (String.ofList text))
  | .sequence items => .array <$> toValues items
  | .mapping members => do
      let (merged, own) ← membersOf members
      pure (.object (Entries.ofPairs Value.same (merged ++ own)))

def toValues : List Node → Except Fault (List Value)
  | [] => pure []
  | item :: rest => do
      let value ← toValue item
      pure (value :: (← toValues rest))

end

end Node

def read (text : List Char) : Except Fault Value := do
  match ← Node.ofTokens? (← tokens text) with
  | some node => node.toValue
  | none => pure .null

def reader : Reader := fun text => (read text).mapError Fault.told

end OpenApiClient.Yaml
