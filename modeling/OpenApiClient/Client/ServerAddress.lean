import OpenApiClient.Client.Inheritance
import OpenApiClient.Client.UrlTemplate

/-! The addresses of servers. A class has a template and values for the names in it. Classes that have no
values of their own share those of the class that they inherit them from. -/

namespace OpenApiClient.Client

def addressBase : String := "ServersBase"

structure ServerAddresses where
  lineage : Lineage
  templates : List (String × String)
  values : List (String × List (String × String))
  deriving Repr, Inhabited

namespace ServerAddresses

def start : ServerAddresses := ⟨[], [(addressBase, "/")], [(addressBase, [])]⟩

def declare (addresses : ServerAddresses) (name parent : String) (template : Option String)
    (values : Option (List (String × String))) : ServerAddresses where
  lineage := (name, parent) :: addresses.lineage
  templates :=
    match template with
    | none => addresses.templates
    | some template => Entries.set name template addresses.templates
  values :=
    match values with
    | none => addresses.values
    | some values => Entries.set name values addresses.values

def template (addresses : ServerAddresses) (className : String) : String :=
  (addresses.lineage.setting? addresses.templates className).getD ""

def valuesOf (addresses : ServerAddresses) (className : String) : List (String × String) :=
  (addresses.lineage.setting? addresses.values className).getD []

def setValue (addresses : ServerAddresses) (className name value : String) : ServerAddresses :=
  match addresses.lineage.owner? addresses.values className with
  | none => addresses
  | some owner =>
      let values := Entries.set name value (addresses.valuesOf owner)
      { addresses with values := Entries.set owner values addresses.values }

def chosenTemplate (addresses : ServerAddresses) (className : String) (given : Option String) : String :=
  match given with
  | none => addresses.template className
  | some template => if template.isEmpty then addresses.template className else template

def resolve (addresses : ServerAddresses) (className : String) (given : Option String) :
    Except TemplateFault String :=
  resolveTemplate (addresses.chosenTemplate className given) (addresses.valuesOf className)

end ServerAddresses
end OpenApiClient.Client
