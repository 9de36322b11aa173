import OpenApiClient.Settings
import OpenApiClient.Text.Character

/-! Arguments of the command. An option may be shortened as long as only one begins like it; its value is the
next word or stands after an equals sign. There are no other arguments. -/

namespace OpenApiClient.CommandLine

inductive Flag where
  | help
  | spec
  | output
  | package
  | logLevel
  deriving DecidableEq, Repr, Inhabited

def flags : List (String × Flag) :=
  [("--help", .help), ("--spec", .spec), ("--output", .output), ("--package", .package),
    ("--log-level", .logLevel)]

inductive Word where
  | plain (text : String)
  | separator
  | unknown
  | flag (flag : Flag) (value : Option String)
  | shortHelp (attached : List Char)
  | ambiguous
  deriving DecidableEq, Repr, Inhabited

def splitValue (word : List Char) : List Char × Option String :=
  let name := word.takeWhile (· != '=')
  match word.drop name.length with
  | [] => (name, none)
  | _ :: value => (name, some (String.ofList value))

def isNegativeNumber : List Char → Bool
  | '-' :: digits =>
      let whole := digits.takeWhile Text.isDecimalDigit
      match Settings.dropFinalLineFeed (digits.drop whole.length) with
      | [] => !whole.isEmpty
      | '.' :: fraction => !fraction.isEmpty && fraction.all Text.isDecimalDigit
      | _ => false
  | _ => false

def longFlag (word : List Char) : Word :=
  let (name, value) := splitValue word
  match flags.lookup (String.ofList name) with
  | some flag => .flag flag value
  | none =>
      match flags.filter fun (flagName, _) => name.isPrefixOf flagName.toList with
      | [] => if word.contains ' ' then .plain (String.ofList word) else .unknown
      | [(_, flag)] => .flag flag value
      | _ => .ambiguous

def classify (word : String) : Word :=
  match word.toList with
  | '-' :: '-' :: rest => longFlag ('-' :: '-' :: rest)
  | '-' :: 'h' :: attached => .shortHelp attached
  | '-' :: c :: rest =>
      if isNegativeNumber ('-' :: c :: rest) || (c :: rest).contains ' ' then .plain word else .unknown
  | _ => .plain word

def classifyAll : List String → List Word
  | [] => []
  | word :: rest =>
      if word = "--" then .separator :: rest.map .plain else classify word :: classifyAll rest

inductive Request where
  | run (given : GivenSettings)
  | help
  | misused
  deriving DecidableEq, Repr, Inhabited

def assign (flag : Flag) (value : String) (given : GivenSettings) : GivenSettings :=
  match flag with
  | .help => given
  | .spec => { given with spec := some value }
  | .output => { given with output := some value }
  | .package => { given with package := some value }
  | .logLevel => { given with logLevel := some value }

/-- What is attached to the short call for help may call for it again; a dash or an equals sign may not
follow it. -/
def attachedHelp : List Char → Request
  | [] => .help
  | c :: rest =>
      if c = '-' ∨ c = '=' then .misused
      else if c = 'h' then attachedHelp rest
      else .help

def interpret (given : GivenSettings) (extra : Bool) : List Word → Request
  | [] => if extra then .misused else .run given
  | .shortHelp attached :: _ => attachedHelp attached
  | .flag .help value :: _ => if value.isSome then .misused else .help
  | .flag flag (some value) :: rest => interpret (assign flag value given) extra rest
  | .flag flag none :: .plain value :: rest => interpret (assign flag value given) extra rest
  | .flag _ none :: _ => .misused
  | _ :: rest => interpret given true rest

def Request.ofArguments (arguments : List String) : Request :=
  let words := classifyAll arguments
  if words.contains .ambiguous then .misused else interpret ⟨none, none, none, none⟩ false words

end OpenApiClient.CommandLine
