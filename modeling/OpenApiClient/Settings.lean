import OpenApiClient.Entries
import OpenApiClient.Path
import OpenApiClient.Text.Casing
import OpenApiClient.Text.Quoted

/-! Settings of a run. A value that is given wins over the environment, and that over the default; empty
values count as not given. -/

namespace OpenApiClient

structure Settings where
  spec : Path
  output : Path
  package : String
  logLevel : String
  deriving DecidableEq, Repr, Inhabited

structure GivenSettings where
  spec : Option String
  output : Option String
  package : Option String
  logLevel : Option String
  deriving DecidableEq, Repr, Inhabited

inductive SettingsFault where
  | noDocument
  | invalidPackage (name : String)
  deriving DecidableEq, Repr, Inhabited

def SettingsFault.message : SettingsFault → String
  | .noDocument => "No OpenAPI document given (--spec or CLIENTGEN_SPEC)"
  | .invalidPackage name => "Invalid package name: " ++ Text.quotedText name

namespace Settings

def isIdentifierStart (c : Char) : Bool := Text.isAsciiLetter c || c == '_'

def isAsciiIdentifier : List Char → Bool
  | [] => false
  | c :: rest => isIdentifierStart c && rest.all fun d => isIdentifierStart d || Text.isAsciiDigit d

/-- A text without one line feed at its end. -/
def dropFinalLineFeed (text : List Char) : List Char :=
  if text.getLast? = some '\n' then text.dropLast else text

def isPackageName (name : String) : Bool :=
  (Text.splitAt '.' (dropFinalLineFeed name.toList)).all isAsciiIdentifier

/-- Settings are refused where what is given for the package is no package name. -/
def make (spec output : Path) (package logLevel : String) : Except SettingsFault Settings :=
  if isPackageName package then .ok { spec, output, package, logLevel } else .error (.invalidPackage package)

def firstGiven : List (Option String) → Option String
  | [] => none
  | some text :: rest => if text.isEmpty then firstGiven rest else some text
  | none :: rest => firstGiven rest

def ofSources (given : GivenSettings) (environment : List (String × String)) :
    Except SettingsFault Settings :=
  let setting (given : Option String) (name : String) : Option String :=
    firstGiven [given, Entries.find? name environment]
  match setting given.spec "CLIENTGEN_SPEC" with
  | none => .error .noDocument
  | some spec =>
      make (Path.ofText spec) (Path.ofText ((setting given.output "CLIENTGEN_OUTPUT").getD "generated"))
        ((setting given.package "CLIENTGEN_PACKAGE").getD "client")
        (Text.upperText ((setting given.logLevel "CLIENTGEN_LOG_LEVEL").getD "WARNING"))

end Settings
end OpenApiClient
