import OpenApiClient.Client.WrittenType
import OpenApiClient.Entries
import OpenApiClient.Text.Quoted
import OpenApiClient.Value.Basic

/-! Records and the classes that describe them. A class lists fields; a field has a name, a key in JSON
and a written type, and may have a default. -/

namespace OpenApiClient.Client

structure RecordField where
  name : String
  key : String
  type : WrittenType
  default : Option Value
  settable : Bool
  deriving Repr, Inhabited

/-- What the types of a class can refer to besides the builtin types. -/
inductive Surroundings where
  | package
  | module
  | nothing
  deriving DecidableEq, Repr, Inhabited

structure RecordClass where
  name : String
  fields : List RecordField
  shared : Bool
  surroundings : Surroundings
  deriving Repr, Inhabited

inductive RecordFault where
  | type (fault : TypeFault)
  | notObject (className kind : String)
  | tooLarge
  | unorderedKeys (left right : String)
  | unexpectedField (className field : String)
  | missingFields (className : String) (fields : List String)
  deriving DecidableEq, Repr, Inhabited

def enumerate : List String → String
  | [] => ""
  | [single] => single
  | [first, second] => first ++ " and " ++ second
  | several => ", ".intercalate several.dropLast ++ ", and " ++ several.getLastD ""

def RecordFault.message : RecordFault → String
  | .type fault => fault.message
  | .notObject className kind => s!"Expected an object for {className}, got {kind}"
  | .tooLarge => "int too large to convert to float"
  | .unorderedKeys left right => s!"'<' not supported between instances of '{left}' and '{right}'"
  | .unexpectedField className field =>
      s!"{className}.__init__() got an unexpected keyword argument '{field}'"
  | .missingFields className fields =>
      let number := fields.length
      let plural := if number = 1 then "" else "s"
      s!"{className}.__init__() missing {number} required keyword-only argument{plural}: " ++
        enumerate (fields.map Text.quotedText)

namespace RecordClass

def accepts (recordClass : RecordClass) (name : String) : Bool :=
  recordClass.fields.any fun field => field.settable && field.name == name

def missing (recordClass : RecordClass) (given : List (String × Value)) : List String :=
  (recordClass.fields.filter fun field =>
    field.settable && field.default.isNone && (Entries.find? field.name given).isNone).map (·.name)

def fieldValue (given : List (String × Value)) (field : RecordField) : Option Value :=
  Entries.find? field.name given <|> field.default

def make (recordClass : RecordClass) (given : List (String × Value)) : Except RecordFault Value :=
  match given.find? fun pair => !recordClass.accepts pair.1 with
  | some (name, _) => .error (.unexpectedField recordClass.name name)
  | none =>
      match recordClass.missing given with
      | [] =>
          .ok (.record recordClass.name (recordClass.fields.filterMap fun field =>
            (field.name, ·) <$> fieldValue given field))
      | missing => .error (.missingFields recordClass.name missing)

end RecordClass

structure Classes where
  list : List RecordClass
  deriving Repr, Inhabited

namespace Classes

def find? (classes : Classes) (name : String) : Option RecordClass :=
  classes.list.find? fun recordClass => recordClass.name == name

def sees (classes : Classes) (viewer : RecordClass) (name : String) : Bool :=
  isBuiltin name ||
    match viewer.surroundings with
    | .nothing => false
    | .module => isImported name || viewer.name == name
    | .package =>
        isImported name || viewer.name == name ||
          classes.list.any fun recordClass => recordClass.shared && recordClass.name == name

def fieldTypes (classes : Classes) (recordClass : RecordClass) :
    Except RecordFault (List (RecordField × DataType)) :=
  recordClass.fields.mapM fun field =>
    match field.type.denote (classes.sees recordClass) with
    | .ok type => .ok (field, type)
    | .error fault => .error (.type fault)

def keyOf (classes : Classes) (className field : String) : String :=
  match classes.find? className with
  | none => field
  | some recordClass =>
      match recordClass.fields.find? fun declared => declared.name == field with
      | none => field
      | some declared => declared.key

end Classes
end OpenApiClient.Client
