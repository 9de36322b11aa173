import OpenApiClient.Client.Inheritance
import OpenApiClient.Client.Request

/-! The credential that the requests of a class carry. A class has one at a time, or none. -/

namespace OpenApiClient.Client

inductive CredentialPlace where
  | header
  | query
  | cookie
  deriving DecidableEq, Repr, Inhabited

structure Credential where
  place : CredentialPlace
  name : String
  value : Value
  deriving Repr, Inhabited

def Credential.apply (credential : Credential) (request : Request) : Setting :=
  match credential.place with
  | .header => request.setHeader credential.name credential.value
  | .query => request.addQuery ⟨[]⟩ credential.name credential.value formStyle
  | .cookie => request.setCookie credential.name credential.value

def credentialBase : String := "SecurityBase"

/-- The choices that classes have made; to have no credential is a choice too. -/
structure Credentials where
  lineage : Lineage
  choices : List (String × Option Credential)
  deriving Repr, Inhabited

namespace Credentials

def start (lineage : Lineage) : Credentials := ⟨lineage, [(credentialBase, none)]⟩

def choose (credentials : Credentials) (className : String) (choice : Option Credential) :
    Credentials :=
  { credentials with choices := Entries.set className choice credentials.choices }

def active? (credentials : Credentials) (className : String) : Option Credential :=
  (credentials.lineage.setting? credentials.choices className).join

def apply (credentials : Credentials) (className : String) (request : Request) : Setting :=
  match credentials.active? className with
  | none => ⟨request, none⟩
  | some credential => credential.apply request

end Credentials
end OpenApiClient.Client
