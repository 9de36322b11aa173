import OpenApiClient.Proofs.MergedParameters

/-! The operations of a document: one for each path and each method that the path has, in the order of the paths and of
the methods. -/

namespace OpenApiClient

structure OperationSlot where
  path : Value
  item : Value
  method : String

def Value.holds (value : Value) (name : String) : Bool :=
  match value with
  | .object members => (lookup name members).isSome
  | _ => false

def slotsOf (path item : Value) : List OperationSlot :=
  (httpMethods.filter item.holds).map fun method => { path, item, method }

/-- The parameters of an operation, of which those of its own override those of its path. -/
structure Overrides (pathLevel operationLevel merged : List Parameter) : Prop where
  merges : MergedTo (pathLevel ++ operationLevel) merged
  overridden : ∀ parameter ∈ merged, parameter.slot ∈ operationLevel.map Parameter.slot →
    parameter.IsLast operationLevel
  kept : ∀ parameter ∈ merged, parameter.slot ∉ operationLevel.map Parameter.slot → parameter.IsLast pathLevel

def HasParameters (document value : Value) (parameters : List Parameter) : Prop :=
  ∃ raws, value.member? "parameters" = .ok raws ∧ ReadsParameters document (raws.getD (.array [])) parameters

structure Operation.IsReadAt (operation : Operation) (document : Value) (slot : OperationSlot) : Prop where
  read : readOperation document slot.method slot.path slot.item = .ok operation
  method : operation.method = Text.upperText slot.method
  path : operation.path = slot.path
  parameters : ∃ own pathLevel operationLevel, presentMember slot.item slot.method = .ok own ∧
    HasParameters document slot.item pathLevel ∧ HasParameters document own operationLevel ∧
    Overrides pathLevel operationLevel operation.parameters

/-- The operations are those of the places that the paths of the document have, one for each place. -/
def ApiDocument.HasOperationsOf (api : ApiDocument) (document : Value) : Prop :=
  ∃ paths items, (document.member "paths" >>= Value.membersOrNone) = .ok paths ∧
    List.Forall₂ (fun path item => document.dereference path.2 = .ok item) paths items ∧
    List.Forall₂ (fun slot operation => operation.IsReadAt document slot)
      ((paths.zip items).flatMap fun (path, item) => slotsOf path.1 item) api.operations

variable {document : Value}

theorem MergedTo.overrides {pathLevel operationLevel merged : List Parameter}
    (done : MergedTo (pathLevel ++ operationLevel) merged) : Overrides pathLevel operationLevel merged where
  merges := done
  overridden := fun parameter member => (done.last parameter member).of_append.1
  kept := fun parameter member => (done.last parameter member).of_append.2

theorem readOperation_parts {path item : Value} {method : String} {operation : Operation}
    (read : readOperation document method path item = .ok operation) :
    operation.method = Text.upperText method ∧ operation.path = path ∧
      ∃ own pathLevel operationLevel, presentMember item method = .ok own ∧
        item.member? "parameters" = .ok pathLevel ∧ own.member? "parameters" = .ok operationLevel ∧
        mergeParameters document (pathLevel.getD (.array [])) (operationLevel.getD (.array [])) =
          .ok operation.parameters := by
  simp only [readOperation, except_bind_ok, except_lift_ok] at read
  obtain ⟨own, present, _, -, _, -, _, -, read⟩ := read
  -- The security, the description and the servers are each read in one of two ways.
  split at read
  all_goals simp only [except_bind_ok, except_lift_ok, except_pure_ok] at read
  on_goal 1 => obtain ⟨_, -, read⟩ := read
  all_goals
    obtain ⟨_, -, _, -, _, -, _, -, read⟩ := read
    split at read
    all_goals
      simp only [except_bind_ok, except_lift_ok, except_pure_ok] at read
      obtain ⟨_, -, pathLevel, onPath, operationLevel, onOperation, _, merged, _, -, read⟩ := read
      split at read
      all_goals
        simp only [except_bind_ok, except_lift_ok, except_pure_ok] at read
        obtain ⟨_, -, _, -, rfl⟩ := read
        exact ⟨rfl, rfl, own, pathLevel, operationLevel, present, onPath, onOperation, merged⟩

theorem readOperation_ok {slot : OperationSlot} {operation : Operation}
    (read : readOperation document slot.method slot.path slot.item = .ok operation) :
    operation.IsReadAt document slot := by
  obtain ⟨method, path, own, pathLevel, operationLevel, present, onPath, onOperation, merged⟩ := readOperation_parts read
  obtain ⟨pathRead, operationRead, fromPath, fromOperation, done⟩ := mergeParameters_ok merged
  exact ⟨read, method, path, own, pathRead, operationRead, present, ⟨pathLevel, onPath, fromPath⟩,
    ⟨operationLevel, onOperation, fromOperation⟩, done.overrides⟩

theorem Value.has_of_presentMember {value found : Value} {key : String} (present : presentMember value key = .ok found) :
    value.has key = .ok (value.holds key) := by
  unfold presentMember at present
  split at present
  · rfl
  · cases present

theorem Value.holds_of_absent {value : Value} {key : String} (absent : value.has key = .ok false) :
    value.holds key = false := by
  cases value with
  | object members => exact Except.ok.inj absent
  | _ => rfl

theorem readMethod_ok {path item : Value} (method : String) (outcome : Option Operation)
    (read : (do
      if ← item.has method then some <$> readOperation document method path item else pure none) =
        Except.ok (ε := Failure) outcome) :
    if item.holds method then
      ∃ operation, outcome = some operation ∧ operation.IsReadAt document ⟨path, item, method⟩
    else outcome = none := by
  simp only [except_bind_ok, except_lift_ok] at read
  obtain ⟨has, decided, read⟩ := read
  cases has with
  | false =>
      rw [if_neg Bool.false_ne_true] at read
      rw [Value.holds_of_absent decided, if_neg Bool.false_ne_true]
      exact (except_pure_ok.mp read).symm
  | true =>
      rw [if_pos rfl] at read
      obtain ⟨operation, own, rfl⟩ := except_map_ok.mp read
      have slot : operation.IsReadAt document ⟨path, item, method⟩ := readOperation_ok own
      obtain ⟨_, _, _, present, -⟩ := slot.parameters
      have holds := Except.ok.inj (decided.symm.trans (Value.has_of_presentMember present))
      rw [if_pos holds.symm]
      exact ⟨operation, rfl, slot⟩

theorem readItem_ok {path item : Value} {operations : List Operation}
    (read : (httpMethods.filterMapM fun method => do
      if ← item.has method then some <$> readOperation document method path item else pure none) =
        Except.ok (ε := Failure) operations) :
    List.Forall₂ (fun slot operation => operation.IsReadAt document slot) (slotsOf path item) operations := by
  rw [slotsOf, List.forall₂_map_left_iff]
  exact filterMapM_ok read readMethod_ok

/-- A path is read from what its references lead to, and as it is when it has none. -/
theorem readPath_ok {path raw : Value} {operations : List Operation}
    (read : readPath document path raw = .ok operations) :
    ∃ item, document.dereference raw = .ok item ∧
      List.Forall₂ (fun slot operation => operation.IsReadAt document slot) (slotsOf path item) operations := by
  simp only [readPath, except_bind_ok, except_lift_ok] at read
  obtain ⟨refers, decided, read⟩ := read
  cases refers with
  | false =>
      obtain ⟨item, same, read⟩ := except_bind_ok.mp read
      obtain rfl := except_pure_ok.mp same
      exact ⟨raw, Value.dereferenceFrom_plain decided _ _, readItem_ok read⟩
  | true =>
      obtain ⟨item, dereferenced, read⟩ := except_bind_ok.mp read
      exact ⟨item, dereferenced, readItem_ok read⟩

theorem readPaths_ok {paths : List (Value × Value)} {each : List (List Operation)}
    (read : List.Forall₂ (fun path operations => readPath document path.1 path.2 = .ok operations) paths each) :
    ∃ items, List.Forall₂ (fun path item => document.dereference path.2 = .ok item) paths items ∧
      List.Forall₂ (fun slot operation => operation.IsReadAt document slot)
        ((paths.zip items).flatMap fun (path, item) => slotsOf path.1 item) each.flatten := by
  induction read with
  | nil => exact ⟨[], .nil, .nil⟩
  | cons first _ ih =>
      obtain ⟨item, dereferenced, own⟩ := readPath_ok first
      obtain ⟨items, others, later⟩ := ih
      exact ⟨item :: items, .cons dereferenced others, List.rel_append own later⟩

def petParameter (name place description : String) : Value :=
  .ofMembers [("name", .string name), ("in", .string place), ("description", .string description)]

def petReference (place name : String) : Value :=
  .ofMembers [("$ref", .string ("#/components/" ++ place ++ "/" ++ name))]

/-- The pet is asked for by its tag, where its path has a number. The shop comes from one place for both. -/
def petPath : Value := .ofMembers [
  ("put", .ofMembers []),
  ("parameters", .array [petReference "parameters" "shop", petParameter "id" "path" "number"]),
  ("get", .ofMembers [("parameters", .array [
    petParameter "id" "query" "page", petParameter "id" "path" "tag", petReference "parameters" "shop"])])]

def petsDocument : Value := .ofMembers [
  ("paths", .ofMembers [("/pets/{id}", petReference "pathItems" "pet"),
    ("/pets", .ofMembers [("post", .ofMembers [])])]),
  ("components", .ofMembers [("pathItems", .ofMembers [("pet", petPath)]),
    ("parameters", .ofMembers [("shop", petParameter "shop" "header" "name")])])]

def petsSummary (api : ApiDocument) : List (String × String × List String) :=
  api.operations.map fun operation => (operation.method, operation.path.display,
    operation.parameters.map fun parameter => parameter.location.display ++ " " ++ parameter.description.display)

end OpenApiClient
