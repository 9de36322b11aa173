import OpenApiClient.Yaml.Token

/-! Nodes: the tree that the tokens of a document make. An alias stands for the whole node that has its
anchor, which has to be complete by then. What is left out is an empty plain scalar. -/

namespace OpenApiClient.Yaml

inductive Node where
  | scalar (text : List Char) (isPlain : Bool)
  | sequence (items : List Node)
  | mapping (members : List (Node × Node))
  deriving Repr, Inhabited

namespace Node

def empty : Node := .scalar [] true

structure Source where
  tokens : List Token
  anchors : List (String × Option Node) := []

abbrev Reading (α : Type) : Type := StateT Source (Except Fault) α

inductive Place where
  | flow
  | block
  | member
  deriving DecidableEq, Repr, Inhabited

def peek : Reading (Option Token) := do pure (← get).tokens.head?

def drop : Reading Unit := modify fun source => { source with tokens := source.tokens.tail }

def isNext (tokens : List Token) : Reading Bool := do pure ((← peek).any tokens.contains)

def skip? (token : Token) : Reading Bool := do
  if (← peek) = some token then
    drop
    pure true
  else pure false

def expect (token : Token) : Reading Unit := do
  if !(← skip? token) then throw .ungrammatical

def openAnchor (name : String) : Reading Unit := do
  let source ← get
  if (source.anchors.lookup name).isSome then throw .ungrammatical
  set { source with anchors := (name, none) :: source.anchors }

def closeAnchor (name : String) (node : Node) : Reading Unit :=
  modify fun source => { source with anchors := (name, some node) :: source.anchors }

def anchored (name : String) : Reading Node := do
  match (← get).anchors.lookup name with
  | some (some node) => pure node
  | _ => throw .ungrammatical

mutual

/-- Reads a node. Of four steps down one takes a token, so four times their number is fuel enough. -/
def read (fuel : Nat) (place : Place) : Reading Node :=
  match fuel with
  | 0 => throw .ungrammatical
  | fuel + 1 => do
      match ← peek with
      | some (.alias name) => do
          drop
          anchored name
      | some (.anchor name) => do
          drop
          openAnchor name
          let node := (← content fuel place).getD empty
          closeAnchor name node
          pure node
      | _ =>
          match ← content fuel place with
          | some node => pure node
          | none => throw .ungrammatical

def content (fuel : Nat) (place : Place) : Reading (Option Node) :=
  match fuel with
  | 0 => throw .ungrammatical
  | fuel + 1 => do
      match ← peek, place with
      | some (.scalar text isPlain), _ => do
          drop
          pure (some (.scalar text isPlain))
      | some .flowSequenceStart, _ => do
          drop
          pure (some (.sequence (← flowItems fuel true)))
      | some .flowMappingStart, _ => do
          drop
          pure (some (.mapping (← flowMembers fuel true)))
      | some .sequenceStart, .block | some .sequenceStart, .member => do
          drop
          pure (some (.sequence (← blockItems fuel)))
      | some .mappingStart, .block | some .mappingStart, .member => do
          drop
          pure (some (.mapping (← blockMembers fuel)))
      | some .entry, .member => do pure (some (.sequence (← looseItems fuel)))
      | _, _ => pure none

def optional (fuel : Nat) (place : Place) (ends : List Token) : Reading Node :=
  match fuel with
  | 0 => throw .ungrammatical
  | fuel + 1 => do if ← isNext ends then pure empty else read fuel place

def valueOf (fuel : Nat) (place : Place) (ends : List Token) : Reading Node :=
  match fuel with
  | 0 => throw .ungrammatical
  | fuel + 1 => do if ← skip? .value then optional fuel place ends else pure empty

def flowItems (fuel : Nat) (first : Bool) : Reading (List Node) :=
  match fuel with
  | 0 => throw .ungrammatical
  | fuel + 1 => do
      if ← skip? .flowSequenceEnd then pure []
      else
        if !first then expect .flowEntry
        if ← skip? .key then
          let key ← optional fuel .flow [.value, .flowEntry, .flowSequenceEnd]
          let value ← valueOf fuel .flow [.flowEntry, .flowSequenceEnd]
          pure (.mapping [(key, value)] :: (← flowItems fuel false))
        else if ← skip? .flowSequenceEnd then pure []
        else do
          let item ← read fuel .flow
          pure (item :: (← flowItems fuel false))

def flowMembers (fuel : Nat) (first : Bool) : Reading (List (Node × Node)) :=
  match fuel with
  | 0 => throw .ungrammatical
  | fuel + 1 => do
      if ← skip? .flowMappingEnd then pure []
      else
        if !first then expect .flowEntry
        if ← skip? .key then
          let key ← optional fuel .flow [.value, .flowEntry, .flowMappingEnd]
          let value ← valueOf fuel .flow [.flowEntry, .flowMappingEnd]
          pure ((key, value) :: (← flowMembers fuel false))
        else if ← skip? .flowMappingEnd then pure []
        else do
          let key ← read fuel .flow
          pure ((key, empty) :: (← flowMembers fuel false))

def blockItems (fuel : Nat) : Reading (List Node) :=
  match fuel with
  | 0 => throw .ungrammatical
  | fuel + 1 => do
      if ← skip? .entry then
        let item ← optional fuel .block [.entry, .blockEnd]
        pure (item :: (← blockItems fuel))
      else
        expect .blockEnd
        pure []

def looseItems (fuel : Nat) : Reading (List Node) :=
  match fuel with
  | 0 => throw .ungrammatical
  | fuel + 1 => do
      if ← skip? .entry then
        let item ← optional fuel .block [.entry, .key, .value, .blockEnd]
        pure (item :: (← looseItems fuel))
      else pure []

def blockMembers (fuel : Nat) : Reading (List (Node × Node)) :=
  match fuel with
  | 0 => throw .ungrammatical
  | fuel + 1 => do
      if ← skip? .key then
        let key ← optional fuel .member [.key, .value, .blockEnd]
        let value ← valueOf fuel .member [.key, .value, .blockEnd]
        pure ((key, value) :: (← blockMembers fuel))
      else
        expect .blockEnd
        pure []

end

def dropDocumentEnds : List Token → List Token
  | .documentEnd :: rest => dropDocumentEnds rest
  | tokens => tokens

def document : Reading Node := do
  let tokens := (← get).tokens
  let fuel := 4 * tokens.length + 8
  if ← isNext [.directive, .documentStart] then
    modify fun source => { source with tokens := source.tokens.dropWhile (· == .directive) }
    expect .documentStart
    if (← peek).isNone || (← isNext [.directive, .documentStart, .documentEnd]) then pure empty
    else read fuel .block
  else read fuel .block

/-- The only document of a list of tokens; none when there are no tokens. -/
def ofTokens? (tokens : List Token) : Except Fault (Option Node) := do
  if tokens.isEmpty then pure none
  else
    let (node, source) ← document.run { tokens }
    if (dropDocumentEnds source.tokens).isEmpty then pure (some node) else throw .ungrammatical

end Node
end OpenApiClient.Yaml
