import OpenApiClient.Client.Record
import OpenApiClient.Value.Written

/-! The JSON form of values, and reading it back as a type. Only fields of a record that are not null have
a member; data that does not fit a container type is taken as it is. -/

namespace OpenApiClient.Client

namespace Classes

mutual

/-- The JSON form of a value. Keys become texts; of keys with one text the last value stands at the first
place. -/
def toJson (classes : Classes) : Value → Value
  | .array items | .tuple items => .array (itemsToJson classes items)
  | .object members => .object (Entries.ofPairs Value.same (membersToJson classes members))
  | .record className fields =>
      .object (Entries.ofPairs Value.same (fieldsToJson classes (classes.keyOf className) fields))
  | other => other

def itemsToJson (classes : Classes) : List Value → List Value
  | [] => []
  | item :: items => classes.toJson item :: itemsToJson classes items

def membersToJson (classes : Classes) : List (Value × Value) → List (Value × Value)
  | [] => []
  | (key, value) :: members =>
      (.string key.display, classes.toJson value) :: membersToJson classes members

def fieldsToJson (classes : Classes) (keyOf : String → String) :
    List (String × Value) → List (Value × Value)
  | [] => []
  | (name, value) :: fields =>
      if value.isNull then fieldsToJson classes keyOf fields
      else (.string (keyOf name), classes.toJson value) :: fieldsToJson classes keyOf fields

end

/-- The JSON form of a value whose keys all have texts. -/
def jsonForm (classes : Classes) (value : Value) : Except LongInteger Value :=
  if value.hasLongKey then .error ⟨⟩ else .ok (classes.toJson value)

end Classes

abbrev MemberReader := DataType → Except RecordFault Value

def readFields (readers : List (Value × MemberReader)) :
    List (RecordField × DataType) → Except RecordFault (List (String × Value))
  | [] => .ok []
  | (field, type) :: rest =>
      if field.settable then
        match Entries.get? Value.same (.string field.key) readers with
        | none => readFields readers rest
        | some read => do
            let value ← read type
            pure ((field.name, value) :: (← readFields readers rest))
      else readFields readers rest

mutual

/-- The parts of two values that have no order, none if the values are ordered. Numbers are ordered, and
so are texts, octets, and tuples whose first difference is. -/
def unordered? : Value → Value → Option (Value × Value)
  | .string _, .string _ | .bytes _, .bytes _ => none
  | .tuple items, .tuple others => unorderedItems? items others
  | left, right =>
      if left.integral?.isSome || left matches .float _ then
        if right.integral?.isSome || right matches .float _ then none else some (left, right)
      else some (left, right)

def unorderedItems? : List Value → List Value → Option (Value × Value)
  | item :: items, other :: others =>
      if item.equal other then unorderedItems? items others else unordered? item other
  | _, _ => none

end

def checkSortable : List Value → Except RecordFault Unit
  | first :: second :: rest =>
      match unordered? second first with
      | some (left, right) => .error (.unorderedKeys left.kindName right.kindName)
      | none => checkSortable (second :: rest)
  | _ => .ok ()

namespace Classes

/-- A record of the class from the members of an object. Members that no field asks for are left out. -/
def recordOf (classes : Classes) (className : String) (readers : List (Value × MemberReader)) :
    Except RecordFault Value :=
  match classes.find? className with
  | none => .error (.type (.invisible className))
  | some recordClass => do
      let fields ← classes.fieldTypes recordClass
      let given ← readFields readers fields
      let isKnown (key : Value) : Bool :=
        recordClass.fields.any fun field => field.settable && key.same (.string field.key)
      checkSortable ((readers.map Prod.fst).filter fun key => !isKnown key)
      recordClass.make given

mutual

def ofJson (classes : Classes) : Value → DataType → Except RecordFault Value
  | .null, _ => .ok .null
  | .int number, type =>
      match type.essence with
      | .float =>
          match Binary64.ofInt? number with
          | some nearest => .ok (.float nearest)
          | none => .error .tooLarge
      | .record className => .error (.notObject className (Value.int number).kindName)
      | _ => .ok (.int number)
  | .array items, type =>
      match type.essence with
      | .list itemType => .array <$> itemsOfJson classes items itemType
      | .record className => .error (.notObject className (Value.array items).kindName)
      | _ => .ok (.array items)
  | .object members, type =>
      match type.essence with
      | .map itemType => .object <$> membersOfJson classes members itemType
      | .record className => classes.recordOf className (memberReaders classes members)
      | _ => .ok (.object members)
  | other, type =>
      match type.essence with
      | .record className => .error (.notObject className other.kindName)
      | _ => .ok other

def itemsOfJson (classes : Classes) : List Value → DataType → Except RecordFault (List Value)
  | [], _ => .ok []
  | item :: items, type => do
      let item ← classes.ofJson item type
      pure (item :: (← itemsOfJson classes items type))

def membersOfJson (classes : Classes) :
    List (Value × Value) → DataType → Except RecordFault (List (Value × Value))
  | [], _ => .ok []
  | (key, value) :: members, type => do
      let value ← classes.ofJson value type
      pure ((key, value) :: (← membersOfJson classes members type))

def memberReaders (classes : Classes) : List (Value × Value) → List (Value × MemberReader)
  | [] => []
  | (key, value) :: members =>
      (key, fun type => classes.ofJson value type) :: memberReaders classes members

end

end Classes
end OpenApiClient.Client
