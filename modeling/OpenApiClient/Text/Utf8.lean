import OpenApiClient.Text.Quoted

/-! Reading UTF-8. The first octet of a character says how many follow it and what the second may be; the
first octet that cannot stand where it does gives a fault with its place and reason. -/

namespace OpenApiClient.Text

inductive Utf8Reason where
  | invalidStart
  | invalidContinuation
  | unexpectedEnd
  deriving DecidableEq, Repr, Inhabited

/-- A run of octets, from `first` up to but not including `stop`, that is no character. -/
structure Utf8Fault where
  reason : Utf8Reason
  first : Nat
  stop : Nat
  octet : UInt8
  deriving DecidableEq, Repr, Inhabited

def Utf8Reason.message : Utf8Reason → String
  | .invalidStart => "invalid start byte"
  | .invalidContinuation => "invalid continuation byte"
  | .unexpectedEnd => "unexpected end of data"

def undecodable (encoding : String) (first stop : Nat) (octet : UInt8) (reason : String) : String :=
  let place :=
    if stop = first + 1 then
      "byte 0x" ++ String.ofList (hexDigits 2 octet.toNat) ++ s!" in position {first}: "
    else s!"bytes in position {first}-{stop - 1}: "
  "'" ++ encoding ++ "' codec can't decode " ++ place ++ reason

def Utf8Fault.message (fault : Utf8Fault) : String :=
  undecodable "utf-8" fault.first fault.stop fault.octet fault.reason.message

def following? (octet : Nat) : Option (Nat × Nat × Nat) :=
  if octet < 0x80 then some (0, 0, 0)
  else if octet < 0xc2 then none
  else if octet < 0xe0 then some (1, 0x80, 0xbf)
  else if octet = 0xe0 then some (2, 0xa0, 0xbf)
  else if octet = 0xed then some (2, 0x80, 0x9f)
  else if octet < 0xf0 then some (2, 0x80, 0xbf)
  else if octet = 0xf0 then some (3, 0x90, 0xbf)
  else if octet < 0xf4 then some (3, 0x80, 0xbf)
  else if octet = 0xf4 then some (3, 0x80, 0x8f)
  else none

def firstBits (octet count : Nat) : Nat :=
  if count = 0 then octet else octet % Nat.pow 2 (6 - count)

inductive Utf8Item where
  | character (c : Char)
  | fault (fault : Utf8Fault)
  deriving DecidableEq, Repr, Inhabited

inductive Utf8State where
  | between
  | inside (first : Nat) (lead : UInt8) (bits owed low high : Nat)

/-- Reads octets from `position` on. A faulty run ends before the octet that does not fit, which is then
read as a first octet. -/
def readUtf8 (position : Nat) (state : Utf8State) : List UInt8 → List Utf8Item
  | [] =>
      match state with
      | .between => []
      | .inside first lead _ _ _ _ => [.fault ⟨.unexpectedEnd, first, position, lead⟩]
  | octet :: rest =>
      let begin (items : List Utf8Item) : List Utf8Item :=
        items ++
          match following? octet.toNat with
          | none => .fault ⟨.invalidStart, position, position + 1, octet⟩ ::
              readUtf8 (position + 1) .between rest
          | some (0, _, _) => .character (Char.ofNat octet.toNat) :: readUtf8 (position + 1) .between rest
          | some (count, low, high) =>
              readUtf8 (position + 1)
                (.inside position octet (firstBits octet.toNat count) count low high) rest
      match state with
      | .between => begin []
      | .inside first lead bits owed low high =>
          if low ≤ octet.toNat ∧ octet.toNat ≤ high then
            let bits := bits * 64 + octet.toNat % 64
            if owed = 1 then .character (Char.ofNat bits) :: readUtf8 (position + 1) .between rest
            else readUtf8 (position + 1) (.inside first lead bits (owed - 1) 0x80 0xbf) rest
          else begin [.fault ⟨.invalidContinuation, first, position, lead⟩]

def charactersOf : List Utf8Item → Except Utf8Fault (List Char)
  | [] => .ok []
  | .character c :: rest => (charactersOf rest).map (c :: ·)
  | .fault fault :: _ => .error fault

def decodeUtf8 (octets : List UInt8) : Except Utf8Fault (List Char) :=
  charactersOf (readUtf8 0 .between octets)

def decodeUtf8Lenient (octets : List UInt8) : List Char :=
  (readUtf8 0 .between octets).map fun
    | .character c => c
    | .fault _ => '\ufffd'

def encodeUtf8 (text : List Char) : List UInt8 := text.flatMap String.utf8EncodeChar

end OpenApiClient.Text
