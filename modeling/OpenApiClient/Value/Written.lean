import OpenApiClient.Number.DigitLimit
import OpenApiClient.Value.Display

/-! Texts of values where they can fail. A value is not written if it is an integer beyond the limit or holds one. -/

namespace OpenApiClient.Value

mutual

def hasLongInteger : Value → Bool
  | .int number => isLongInteger number
  | .array items | .tuple items => itemsHaveLongInteger items
  | .object members => membersHaveLongInteger members
  | .record _ fields => fieldsHaveLongInteger fields
  | _ => false

def itemsHaveLongInteger : List Value → Bool
  | [] => false
  | item :: items => item.hasLongInteger || itemsHaveLongInteger items

def membersHaveLongInteger : List (Value × Value) → Bool
  | [] => false
  | (key, value) :: members => key.hasLongInteger || value.hasLongInteger || membersHaveLongInteger members

def fieldsHaveLongInteger : List (String × Value) → Bool
  | [] => false
  | (_, value) :: fields => value.hasLongInteger || fieldsHaveLongInteger fields

end

@[simp] theorem hasLongInteger_string (text : String) : (string text).hasLongInteger = false := rfl

def written (value : Value) : Except LongInteger String :=
  if value.hasLongInteger then .error ⟨⟩ else .ok value.display

theorem written_ok {value : Value} {text : String} (done : value.written = .ok text) : value.display = text := by
  unfold written at done
  split at done
  · cases done
  · exact Except.ok.inj done

mutual

/-- Keys are written where a value is turned into JSON, other parts are not. -/
def hasLongKey : Value → Bool
  | .array items | .tuple items => itemsHaveLongKey items
  | .object members => membersHaveLongKey members
  | .record _ fields => fieldsHaveLongKey fields
  | _ => false

def itemsHaveLongKey : List Value → Bool
  | [] => false
  | item :: items => item.hasLongKey || itemsHaveLongKey items

def membersHaveLongKey : List (Value × Value) → Bool
  | [] => false
  | (key, value) :: members => key.hasLongInteger || value.hasLongKey || membersHaveLongKey members

def fieldsHaveLongKey : List (String × Value) → Bool
  | [] => false
  | (_, value) :: fields => value.hasLongKey || fieldsHaveLongKey fields

end

end OpenApiClient.Value
