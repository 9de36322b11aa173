import OpenApiClient.Entries

/-! Settings of classes. A class without a setting of its own has that of the nearest class above it. -/

namespace OpenApiClient.Client

/-- Classes with the class above each, the newest first. A class that is not listed has none above it. -/
abbrev Lineage := List (String × String)

def Lineage.upward : Lineage → String → List String
  | [], name => [name]
  | (child, parent) :: rest, name =>
      if child = name then name :: upward rest parent else upward rest name

def Lineage.owner? {α : Type} (lineage : Lineage) (settings : List (String × α)) (name : String) :
    Option String :=
  (lineage.upward name).find? fun ancestor => (Entries.find? ancestor settings).isSome

def Lineage.setting? {α : Type} (lineage : Lineage) (settings : List (String × α)) (name : String) :
    Option α := do
  Entries.find? (← lineage.owner? settings name) settings

end OpenApiClient.Client
