import OpenApiClient.Proofs.Operations

/-! The names of methods. Two operations get the same name when their names differ only in what snake case
leaves out. -/

namespace OpenApiClient.Naming

open Text

def EndsOpen (name : String) : Prop := name.toList.getLast? = some '_'

theorem strip_getLast (drop : Char → Bool) (text : List Char) {c : Char}
    (last : (strip drop text).getLast? = some c) : drop c = false := by
  have first := List.head?_dropWhile_not drop ((text.dropWhile drop).reverse)
  rw [strip, List.getLast?_reverse] at last
  simpa [last] using first

theorem sanitizeSegment_closed (name : String) : ¬EndsOpen (sanitizeSegment name) := by
  intro last
  rw [EndsOpen, sanitizeSegment, String.toList_ofList] at last
  have stripped := strip_getLast _ _ last
  contradiction

/-- The method name before keywords are told apart. -/
def methodStem (name : String) : String :=
  let stem := sanitizeOr "operation" name
  if startsWithDigit stem then "op_" ++ stem else stem

theorem methodName_eq (name : String) :
    methodName name = if isKeyword (methodStem name) then methodStem name ++ "_" else methodStem name := rfl

theorem sanitizeOr_cases (fallback name : String) :
    sanitizeSegment name = "" ∧ sanitizeOr fallback name = fallback ∨
      sanitizeSegment name ≠ "" ∧ sanitizeOr fallback name = sanitizeSegment name := by
  by_cases empty : sanitizeSegment name = "" <;> simp [sanitizeOr, empty]

theorem endsOpen_append {start rest : String} (filled : rest ≠ "") :
    EndsOpen (start ++ rest) ↔ EndsOpen rest := by
  obtain ⟨c, last⟩ : ∃ c, rest.toList.getLast? = some c :=
    Option.ne_none_iff_exists'.mp (by simpa using filled)
  simp [EndsOpen, last]

theorem methodStem_closed (name : String) : ¬EndsOpen (methodStem name) := by
  have closed : ¬EndsOpen (sanitizeOr "operation" name) ∧ sanitizeOr "operation" name ≠ "" := by
    rcases sanitizeOr_cases "operation" name with ⟨-, same⟩ | ⟨filled, same⟩
    · rw [same]
      exact ⟨by simp [EndsOpen], by decide⟩
    · rw [same]
      exact ⟨sanitizeSegment_closed name, filled⟩
  unfold methodStem
  dsimp only
  split
  · rw [endsOpen_append closed.2]
    exact closed.1
  · exact closed.1

theorem methodName_eq_iff_stem {first second : String} :
    methodName first = methodName second ↔ methodStem first = methodStem second := by
  have suffixed : ∀ stem : String, EndsOpen (stem ++ "_") := fun stem => by simp [EndsOpen]
  constructor
  · intro same
    rw [methodName_eq, methodName_eq] at same
    split at same <;> split at same
    · exact String.append_left_inj _ |>.mp same
    · exact absurd (same ▸ suffixed _) (methodStem_closed second)
    · exact absurd (same ▸ suffixed _) (methodStem_closed first)
    · exact same
  · intro same
    rw [methodName_eq, methodName_eq, same]

def Coincide (first second : String) : Prop :=
  first = second ∨ first = "" ∧ second = "operation" ∨ first = "operation" ∧ second = "" ∨
    startsWithDigit first = true ∧ second = "op_" ++ first ∨
    startsWithDigit second = true ∧ first = "op_" ++ second

instance (first second : String) : Decidable (Coincide first second) :=
  inferInstanceAs (Decidable (first = second ∨ first = "" ∧ second = "operation" ∨
    first = "operation" ∧ second = "" ∨ startsWithDigit first = true ∧ second = "op_" ++ first ∨
    startsWithDigit second = true ∧ first = "op_" ++ second))

theorem op_third (name : String) : ("op_" ++ name).toList[2]? = some '_' := by
  rw [String.toList_append]
  rfl

theorem startsWithDigit_op (name : String) : startsWithDigit ("op_" ++ name) = false := by
  simp [startsWithDigit]
  decide

/-- A stem that starts with a digit is never what another stem is by itself. -/
theorem digitStem_eq_iff (first second : String) :
    (if startsWithDigit first then "op_" ++ first else first) =
        (if startsWithDigit second then "op_" ++ second else second) ↔
      first = second ∨ startsWithDigit first = true ∧ second = "op_" ++ first ∨
        startsWithDigit second = true ∧ first = "op_" ++ second := by
  have apart : ∀ {name other : String}, startsWithDigit name = true → name ≠ "op_" ++ other := by
    rintro name other digit rfl
    simp [startsWithDigit_op] at digit
  cases digitFirst : startsWithDigit first <;> cases digitSecond : startsWithDigit second
  · simp
  · simp only [Bool.false_eq_true, ↓reduceIte, false_and, true_and, false_or]
    exact ⟨.inr, fun same => same.resolve_left fun alike => by simp_all⟩
  · simp only [Bool.false_eq_true, ↓reduceIte, false_and, true_and, or_false]
    exact ⟨fun same => .inr same.symm, fun same => (same.resolve_left fun alike => by simp_all).symm⟩
  · simp only [↓reduceIte, String.append_right_inj, true_and, apart digitFirst, apart digitSecond, or_false]

theorem methodName_eq_iff {first second : String} :
    methodName first = methodName second ↔ Coincide (sanitizeSegment first) (sanitizeSegment second) := by
  rw [methodName_eq_iff_stem]
  simp only [methodStem, digitStem_eq_iff, Coincide]
  have letters : startsWithDigit "operation" = false ∧ startsWithDigit "" = false := by decide
  have third : ∀ name, "operation" ≠ "op_" ++ name := by
    intro name same
    have third := op_third name
    rw [← same] at third
    exact absurd third (by decide)
  have filledPrefix : ∀ name, "" ≠ "op_" ++ name := fun name empty => by simpa using empty.symm
  rcases sanitizeOr_cases "operation" first with ⟨none, same⟩ | ⟨filled, same⟩ <;>
    rcases sanitizeOr_cases "operation" second with ⟨noneSecond, sameSecond⟩ | ⟨filledSecond, sameSecond⟩
  · simp [none, noneSecond, same, sameSecond]
  · simp [none, same, sameSecond, filledSecond.symm, letters, third, filledPrefix,
      @eq_comm _ "operation" (sanitizeSegment second)]
  · simp [noneSecond, same, sameSecond, filled, letters, third, filledPrefix]
  · simp [same, sameSecond, filled, filledSecond]

theorem methodName_eq_client_iff {name : String} :
    methodName name = "client" ↔ sanitizeSegment name = "client" := by
  have own : methodName "client" = "client" ∧ sanitizeSegment "client" = "client" := by decide +kernel
  rw [← own.1, methodName_eq_iff, own.1, own.2]
  constructor
  · rintro (same | ⟨-, other⟩ | ⟨-, other⟩ | ⟨digit, other⟩ | ⟨digit, -⟩)
    · exact same
    · exact absurd other (by decide)
    · exact absurd other (by decide)
    · have third := op_third (sanitizeSegment name)
      rw [← other] at third
      exact absurd third (by decide)
    · exact absurd digit (by decide)
  · exact .inl

end OpenApiClient.Naming

namespace OpenApiClient

/-- The methods of a service can all be called by their names: these are distinct, and none is the attribute
that holds the client. -/
def MethodsCallable (service : ServiceModule) : Prop :=
  (service.operations.map OperationMethod.methodName).Nodup ∧
    "client" ∉ service.operations.map OperationMethod.methodName

/-- The operations of a service are told apart by their names, made unique. Their methods are told apart by
the names in snake case, and these do not keep all that makes the names unique. -/
theorem methodsCallable_iff {document : ApiDocument} {package : String} {plan : PackagePlan}
    (planned : (PackagePlan.ofDocument document package).result = .ok plan) {service : ServiceModule}
    (member : service ∈ plan.services) :
    ∃ own : List String,
      List.Forall₂ (fun method name => method.operation.nameOrDerived = .ok (.string name)) service.operations
        own ∧
      service.operations.map OperationMethod.operationId = Naming.unique own ∧
      (MethodsCallable service ↔
        (Naming.unique own).Pairwise (fun first second =>
          ¬Naming.Coincide (Naming.sanitizeSegment first) (Naming.sanitizeSegment second)) ∧
        ∀ name ∈ Naming.unique own, Naming.sanitizeSegment name ≠ "client") := by
  obtain ⟨registry, groups, services, -, -, -, served, separate⟩ := PackagePlan.ofDocument_ok planned
  rw [separate] at member
  obtain ⟨original, among, module, rfl⟩ := mem_separateModules member
  obtain ⟨group, -, done⟩ := forall₂_of_mem_right served among
  obtain ⟨own, derived, operations, names, methodNames⟩ := OperationContext.service_names done
  rw [← operations, List.forall₂_map_left_iff] at derived
  refine ⟨own, derived, names, ?_⟩
  have methods : original.operations.map OperationMethod.methodName =
      (Naming.unique own).map Naming.methodName := by
    rw [← names, List.map_map]
    refine List.map_congr_left fun method member => ?_
    rw [Function.comp_apply, methodNames method member]
  simp only [MethodsCallable, methods, List.Nodup, List.pairwise_map, List.mem_map, not_exists, not_and,
    ne_eq, Naming.methodName_eq_iff, Naming.methodName_eq_client_iff]

def thingDocument (listing finding : String) : ApiDocument where
  title := .string "Things"
  version := "1"
  schemas := []
  distinctSchemas := Entries.distinct_nil Value.same
  operations := [{ method := "GET", path := .string "/things", operationId := .string listing },
    { method := "GET", path := .string "/things/\x7bid\x7d", operationId := .string finding }]

theorem thingDocument_callable :
    ∃ plan service,
      (PackagePlan.ofDocument (thingDocument "listThings" "getThing") "things").result = .ok plan ∧
      plan.services = [service] ∧ MethodsCallable service := by
  obtain ⟨plan, service, planned, only, ids⟩ : ∃ plan service,
      (PackagePlan.ofDocument (thingDocument "listThings" "getThing") "things").result = .ok plan ∧
        plan.services = [service] ∧
        service.operations.map OperationMethod.operationId = ["listThings", "getThing"] :=
    ⟨_, _, rfl, rfl, rfl⟩
  have member : service ∈ plan.services := only ▸ List.mem_singleton_self service
  obtain ⟨own, -, names, callable⟩ := methodsCallable_iff planned member
  refine ⟨plan, service, planned, only, callable.mpr ?_⟩
  rw [← names, ids]
  decide +kernel

theorem thingDocument_notCallable :
    ∃ plan service,
      (PackagePlan.ofDocument (thingDocument "getThing" "get_thing") "things").result = .ok plan ∧
      service ∈ plan.services ∧ ¬MethodsCallable service := by
  obtain ⟨plan, service, planned, only, methods⟩ : ∃ plan service,
      (PackagePlan.ofDocument (thingDocument "getThing" "get_thing") "things").result = .ok plan ∧
        plan.services = [service] ∧
        service.operations.map OperationMethod.methodName = ["get_thing", "get_thing"] :=
    ⟨_, _, rfl, rfl, rfl⟩
  refine ⟨plan, service, planned, only ▸ List.mem_singleton_self service, fun callable => ?_⟩
  have distinct := callable.1
  rw [methods] at distinct
  exact absurd distinct (by decide)

end OpenApiClient
