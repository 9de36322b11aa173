import OpenApiClient.Client.Request
import OpenApiClient.Proofs.ClassBodies
import OpenApiClient.Proofs.UrlTemplates
import OpenApiClient.Proofs.WrittenValues

/-! The values that a method puts into the path of its request. Of several parameters of one name the method
takes the first, wherever it is located, so that a placeholder has a value exactly when the first parameter
of its name is located in the path. -/

namespace OpenApiClient

open InScope

namespace ParameterBinding

def queryForm (binding : ParameterBinding) : Client.QueryForm :=
  if binding.location.same (.string "query") then ⟨binding.style.display, binding.explode.truth⟩
  else Client.formStyle

def apply (binding : ParameterBinding) (classes : Client.Classes) (value : Value)
    (request : Client.Request) : Client.Setting :=
  match binding.setter with
  | "set_path_param" => request.setPathValue binding.name value
  | "set_header_param" => request.setHeader binding.name value
  | "set_cookie_param" => request.setCookie binding.name value
  | _ => request.addQuery classes binding.name value binding.queryForm

end ParameterBinding

/-- The request of a method with the values of its parameters, which are known by their fields. There is none if one of
them cannot be written. -/
def OperationMethod.request (method : OperationMethod) (classes : Client.Classes) (serverUrl : String)
    (values : String → Value) : Except LongInteger Client.Request :=
  method.parameters.foldlM (fun request binding => (binding.apply classes (values binding.field) request).outcome)
    (.start method.operation.method serverUrl method.operation.path.display)

def Parameter.isNamed (name : String) (parameter : Parameter) : Bool := parameter.name.same (.string name)

def Operation.FillsPath (operation : Operation) (name : String) : Prop :=
  ∃ parameter, operation.parameters.find? (Parameter.isNamed name) = some parameter ∧
    parameter.location = .string "path"

theorem Parameter.isNamed_iff {name : String} {parameter : Parameter} :
    parameter.isNamed name = true ↔ parameter.name = .string name :=
  Value.same_string

/-! Which parameters are kept. -/

section Keeping

variable {operation : Operation} {before parameters kept : List Parameter}

theorem keepFirst_find? (found : (keepFirst operation before parameters).result = .ok kept) (name : String) :
    kept.find? (Parameter.isNamed name) = (before ++ parameters).find? (Parameter.isNamed name) := by
  induction parameters generalizing before with
  | nil =>
      obtain rfl := Traced.pure_ok.mp found
      rw [List.append_nil]
  | cons parameter rest ih =>
      unfold keepFirst at found
      split at found
      · rename_i earlier first
        obtain ⟨_, -, found⟩ := Traced.bind_ok.mp found
        rw [ih found, List.find?_append, List.find?_append, List.find?_cons]
        cases named : parameter.isNamed name with
        | false => rfl
        | true =>
            have same : earlier.name.same parameter.name = true := by simpa using List.find?_some first
            rw [Parameter.isNamed_iff.mp named] at same
            have among : (before.find? (Parameter.isNamed name)).isSome = true :=
              List.find?_isSome.mpr ⟨earlier, List.mem_of_find?_eq_some first, same⟩
            obtain ⟨own, searched⟩ := Option.isSome_iff_exists.mp among
            rw [searched, Option.some_or, Option.some_or]
      · rw [ih found, List.append_assoc, List.singleton_append]

theorem keepFirst_distinct (found : (keepFirst operation before parameters).result = .ok kept)
    (distinct : before.Pairwise fun earlier later => earlier.name.same later.name = false) :
    kept.Pairwise fun earlier later => earlier.name.same later.name = false := by
  induction parameters generalizing before with
  | nil =>
      obtain rfl := Traced.pure_ok.mp found
      exact distinct
  | cons parameter rest ih =>
      unfold keepFirst at found
      split at found
      · obtain ⟨_, -, found⟩ := Traced.bind_ok.mp found
        exact ih found distinct
      · rename_i new
        refine ih found (List.pairwise_append.mpr ⟨distinct, List.pairwise_singleton _ _, ?_⟩)
        intro earlier among later same
        obtain rfl := List.mem_singleton.mp same
        simpa using List.find?_eq_none.mp new earlier among

theorem find?_isNamed (distinct : kept.Pairwise fun earlier later => earlier.name.same later.name = false)
    {parameter : Parameter} (among : parameter ∈ kept) {name : String} (named : parameter.name = .string name) :
    kept.find? (Parameter.isNamed name) = some parameter := by
  obtain ⟨before, after, rfl⟩ := List.append_of_mem among
  refine List.find?_eq_some_iff_append.mpr ⟨Parameter.isNamed_iff.mpr named, before, after, rfl, ?_⟩
  intro earlier member
  have apart := (List.pairwise_append.mp distinct).2.2 earlier member parameter List.mem_cons_self
  rw [named] at apart
  simp [Parameter.isNamed, apart]

end Keeping

namespace OperationContext

variable {context : OperationContext} {operation : Operation} {scope after : NamingScope}

def Binds (parameter : Parameter) (binding : ParameterBinding) : Prop :=
  parameter.name = .string binding.name ∧ binding.location = parameter.location

theorem binds_zip {kept : List Parameter} {fields : List FieldDeclaration}
    (named : List.Forall₂ (fun parameter field => parameter.name = .string field.jsonName) kept fields) :
    List.Forall₂ Binds kept ((kept.zip fields).map fun (parameter, field) => parameter.binding field) := by
  induction named with
  | nil => exact .nil
  | cons own _ ih => exact .cons ⟨own, rfl⟩ ih

theorem parameters_bind {start methodName : String} {declared : List ClassDeclaration}
    {className : Option String} {required : Bool} {bindings : List ParameterBinding}
    (yields : Yields (context.parameters operation start methodName) scope
      (declared, className, required, bindings) after) :
    ∃ kept, (keepFirst operation [] operation.parameters).result = .ok kept ∧
      List.Forall₂ Binds kept bindings := by
  obtain ⟨-, -, none, same⟩ | ⟨kept, name, own, keeping, -, built, -, same⟩ := parameters_yields yields
  · cases same
    exact ⟨[], by rw [none]; rfl, .nil⟩
  · cases same
    have standing := List.forall₂_map_left_iff.mp (Registry.buildClass_fields built).1
    have jsonNames := standing.imp fun _ _ stands => stands.1
    exact ⟨kept, keeping, binds_zip jsonNames⟩

/-- A method binds a name to the path exactly when the first parameter of the name is located there. -/
theorem compile_fillsPath {given : Option Value} {method : OperationMethod}
    (yields : Yields (context.compile operation given) scope method after) (name : String) :
    (∃ binding ∈ method.parameters, binding.name = name ∧ binding.location = .string "path") ↔
      operation.FillsPath name := by
  obtain ⟨_, _, _, _, _, _, -, -, -, -, grouped, -⟩ := compile_yields yields
  obtain ⟨kept, keeping, binds⟩ := parameters_bind grouped
  have first := keepFirst_find? keeping name
  have distinct := keepFirst_distinct keeping List.Pairwise.nil
  rw [List.nil_append] at first
  constructor
  · rintro ⟨binding, among, rfl, located⟩
    obtain ⟨parameter, member, named, location⟩ := forall₂_of_mem_right binds among
    exact ⟨parameter, first ▸ find?_isNamed distinct member named, location ▸ located⟩
  · rintro ⟨parameter, searched, located⟩
    rw [← first] at searched
    obtain ⟨binding, among, named, location⟩ :=
      forall₂_of_mem_left binds (List.mem_of_find?_eq_some searched)
    have own := Parameter.isNamed_iff.mp (List.find?_some searched)
    exact ⟨binding, among, Value.string.inj (named.symm.trans own), location.trans located⟩

end OperationContext

/-! What the parameters put into the path of the request. -/

theorem setter_path {binding : ParameterBinding} :
    binding.setter = "set_path_param" ↔ binding.location = .string "path" := by
  unfold ParameterBinding.setter
  split <;> simp_all

theorem isSome_set {name key text : String} {entries : List (String × String)} :
    (Entries.find? name (Entries.set key text entries)).isSome = true ↔
      key = name ∨ (Entries.find? name entries).isSome = true := by
  by_cases same : name = key
  · rw [same, Entries.find?_set_self]
    simp
  · rw [Entries.find?_set_other same]
    simp [Ne.symm same]

section Setting

variable {classes : Client.Classes} {values : String → Value} {request after : Client.Request}

/-- One parameter gives its name a value in the path if it is located there, and changes no other. -/
theorem apply_pathValues {binding : ParameterBinding} {value : Value} (filled : value.isNull = false)
    (made : (binding.apply classes value request).outcome = .ok after) (name : String) :
    (Entries.find? name after.pathValues).isSome = true ↔
      (binding.name = name ∧ binding.location = .string "path") ∨
        (Entries.find? name request.pathValues).isSome = true := by
  rw [← setter_path]
  unfold ParameterBinding.apply at made
  split at made
  · rename_i path
    obtain ⟨text, rfl⟩ := Client.Request.setting_outcome filled made
    simp [isSome_set, path]
  · rename_i header
    obtain ⟨text, rfl⟩ := Client.Request.setting_outcome filled made
    simp [header]
  · rename_i cookie
    obtain ⟨text, rfl⟩ := Client.Request.setting_outcome filled made
    simp [cookie]
  · rename_i elsewhere _ _
    obtain ⟨fields, same⟩ :=
      Client.Request.addQuery_request request classes binding.name value binding.queryForm
    rw [← Client.Setting.request_of_outcome made, same]
    simp [show binding.setter ≠ "set_path_param" from elsewhere]

theorem apply_pathTemplate {binding : ParameterBinding} {value : Value}
    (made : (binding.apply classes value request).outcome = .ok after) :
    after.pathTemplate = request.pathTemplate := by
  rw [← Client.Setting.request_of_outcome made]
  unfold ParameterBinding.apply
  split
  · exact Client.Request.setting_keeps Client.Request.pathTemplate fun _ => rfl
  · exact Client.Request.setting_keeps Client.Request.pathTemplate fun _ => rfl
  · exact Client.Request.setting_keeps Client.Request.pathTemplate fun _ => rfl
  · obtain ⟨fields, same⟩ :=
      Client.Request.addQuery_request request classes binding.name value binding.queryForm
    rw [same]

/-- A value within the limit of integers is set, wherever its parameter is located. -/
theorem succeeds_apply (binding : ParameterBinding) {value : Value} (short : value.hasLongInteger = false)
    (request : Client.Request) : Succeeds (binding.apply classes value request).outcome := by
  unfold ParameterBinding.apply
  split
  · exact Client.Request.succeeds_setting _ short
  · exact Client.Request.succeeds_setting _ short
  · exact Client.Request.succeeds_setting _ short
  · exact Client.Request.succeeds_addQuery classes _ _ short

theorem succeeds_foldlM :
    ∀ (bindings : List ParameterBinding) (request : Client.Request),
      (∀ binding ∈ bindings, (values binding.field).hasLongInteger = false) →
      Succeeds (bindings.foldlM
        (fun request binding => (binding.apply classes (values binding.field) request).outcome) request)
  | [], request, _ => ⟨request, rfl⟩
  | binding :: rest, request, short => by
      obtain ⟨own, others⟩ := List.forall_mem_cons.mp short
      obtain ⟨next, first⟩ := succeeds_apply binding own request
      obtain ⟨after, later⟩ := succeeds_foldlM rest next others
      exact ⟨after, except_bind_ok.mpr ⟨next, first, later⟩⟩

/-- Along all parameters: a name has a value in the path if one of them gave it one or it had one before. -/
theorem foldlM_pathValues (name : String) :
    ∀ (bindings : List ParameterBinding) (request : Client.Request),
      (∀ binding ∈ bindings, (values binding.field).isNull = false) →
      bindings.foldlM (fun request binding => (binding.apply classes (values binding.field) request).outcome) request =
        .ok after →
      ((Entries.find? name after.pathValues).isSome = true ↔
        (∃ binding ∈ bindings, binding.name = name ∧ binding.location = .string "path") ∨
          (Entries.find? name request.pathValues).isSome = true)
  | [], request, _, made => by
      obtain rfl := except_pure_ok.mp made
      simp
  | binding :: rest, request, filled, made => by
      obtain ⟨own, others⟩ := List.forall_mem_cons.mp filled
      obtain ⟨next, first, made⟩ := except_bind_ok.mp made
      rw [foldlM_pathValues name rest next others made, apply_pathValues own first,
        List.exists_mem_cons_iff, or_assoc, or_left_comm]

theorem foldlM_pathTemplate :
    ∀ (bindings : List ParameterBinding) (request : Client.Request),
      bindings.foldlM (fun request binding => (binding.apply classes (values binding.field) request).outcome) request =
        .ok after →
      after.pathTemplate = request.pathTemplate
  | [], request, made => by
      obtain rfl := except_pure_ok.mp made
      rfl
  | binding :: rest, request, made => by
      obtain ⟨next, first, made⟩ := except_bind_ok.mp made
      exact (foldlM_pathTemplate rest next made).trans (apply_pathTemplate first)

end Setting

theorem url_outcome (request : Client.Request) :
    (Succeeds request.url ↔ Succeeds (Client.resolveTemplate request.pathTemplate request.pathValues)) ∧
      ∀ fault, request.url = .error fault →
        ∃ own, Client.resolveTemplate request.pathTemplate request.pathValues = .error own ∧
          fault = .unresolved request.pathTemplate own := by
  unfold Client.Request.url
  cases Client.resolveTemplate request.pathTemplate request.pathValues with
  | error own => simp [Succeeds, eq_comm]
  | ok path => simp [Succeeds]

section Compiled

variable {context : OperationContext} {operation : Operation} {given : Option Value} {scope after : NamingScope}
  {method : OperationMethod} {values : String → Value} {template : String} {parts : List Client.TemplatePart}
  {classes : Client.Classes} {serverUrl : String} {request : Client.Request}

/-- With values for all parameters a name has a value in the path exactly if the first parameter of the name
is located there. -/
theorem compiled_pathValues (yields : Yields (context.compile operation given) scope method after)
    (filled : ∀ binding ∈ method.parameters, (values binding.field).isNull = false)
    (made : method.request classes serverUrl values = .ok request) (name : String) :
    (Entries.find? name request.pathValues).isSome = true ↔ operation.FillsPath name := by
  rw [foldlM_pathValues name _ _ filled made, OperationContext.compile_fillsPath yields name]
  simp [Client.Request.start, Entries.find?, Entries.get?]

theorem compiled_pathTemplate (yields : Yields (context.compile operation given) scope method after)
    (path : operation.path = .string template) (made : method.request classes serverUrl values = .ok request) :
    request.pathTemplate = template := by
  obtain ⟨_, _, _, _, _, _, -, same, -⟩ := OperationContext.compile_yields yields
  rw [foldlM_pathTemplate _ _ made, Client.Request.start, same, path, Value.display]

theorem compiled_url_succeeds (yields : Yields (context.compile operation given) scope method after)
    (path : operation.path = .string template) (isTemplate : Client.IsTemplate template.toList parts)
    (filled : ∀ binding ∈ method.parameters, (values binding.field).isNull = false)
    (made : method.request classes serverUrl values = .ok request) :
    Succeeds request.url ↔ ∀ name ∈ Client.placeholders parts, operation.FillsPath name := by
  rw [(url_outcome _).1, compiled_pathTemplate yields path made, Client.resolveTemplate_succeeds isTemplate]
  exact forall₂_congr fun name _ => compiled_pathValues yields filled made name

theorem compiled_url_fault (yields : Yields (context.compile operation given) scope method after)
    (path : operation.path = .string template) (isTemplate : Client.IsTemplate template.toList parts)
    (filled : ∀ binding ∈ method.parameters, (values binding.field).isNull = false)
    (made : method.request classes serverUrl values = .ok request)
    {fault : Client.RequestFault} (failed : request.url = .error fault) :
    ∃ name ∈ Client.placeholders parts, ¬operation.FillsPath name ∧
      fault = .unresolved template (.missingValue name) := by
  obtain ⟨own, unresolved, same⟩ := (url_outcome _).2 fault failed
  rw [compiled_pathTemplate yields path made] at unresolved same
  obtain ⟨name, among, missing, rfl⟩ := Client.resolveTemplate_fault isTemplate unresolved
  refine ⟨name, among, fun fills => ?_, same⟩
  have present := (compiled_pathValues yields filled made name).mpr fills
  rw [missing] at present
  cases present

/-- With values for all parameters, of which none has an integer beyond the limit, a method makes its request. The URL
of a request that is made is resolved exactly if for each placeholder the first parameter of its name is located in
the path. If not, the fault names a placeholder for which it is not. -/
theorem request_resolves_iff (classes : Client.Classes) (serverUrl : String)
    (yields : Yields (context.compile operation given) scope method after)
    (path : operation.path = .string template) (isTemplate : Client.IsTemplate template.toList parts)
    (filled : ∀ binding ∈ method.parameters, (values binding.field).isNull = false) :
    ((∀ binding ∈ method.parameters, (values binding.field).hasLongInteger = false) →
      Succeeds (method.request classes serverUrl values)) ∧
    ∀ request, method.request classes serverUrl values = .ok request →
      (∀ name, (Entries.find? name request.pathValues).isSome = true ↔ operation.FillsPath name) ∧
      (Succeeds request.url ↔ ∀ name ∈ Client.placeholders parts, operation.FillsPath name) ∧
      ∀ fault, request.url = .error fault →
        ∃ name ∈ Client.placeholders parts, ¬operation.FillsPath name ∧
          fault = .unresolved template (.missingValue name) :=
  ⟨succeeds_foldlM _ _, fun _ made => ⟨compiled_pathValues yields filled made,
    compiled_url_succeeds yields path isTemplate filled made,
    fun _ => compiled_url_fault yields path isTemplate filled made⟩⟩

end Compiled

/-- Of two parameters of one name the second is passed over with a warning. -/
theorem keepFirst_pair {operation : Operation} {first second : Parameter}
    (same : first.name.same second.name = true) :
    keepFirst operation [] [first, second] =
      Traced.write .warning "clientgen.operations"
        (operation.slot ++ ": parameter '" ++ second.name.display ++
          "' appears in several locations; keeping the " ++ first.location.display ++ " one") >>=
        fun _ => pure [first] := by
  simp [keepFirst, same]

def thingOperation (parameters : List Parameter) : Operation where
  method := "get"
  path := .string "/things/{id}"
  operationId := .string "getThing"
  parameters

def thingTemplate : List Client.TemplatePart :=
  "/things/".toList.map .letter ++ [.placeholder "id".toList]

theorem thingTemplate_isTemplate : Client.IsTemplate "/things/{id}".toList thingTemplate := by
  refine ⟨rfl, List.forall_mem_append.mpr ⟨?_, List.forall_mem_singleton.mpr ?_⟩⟩
  · simp [Client.TemplatePart.Plain]
  · simp [Client.TemplatePart.Plain]

def idInPath : Parameter where
  name := .string "id"
  location := .string "path"
  required := true

def idInQuery : Parameter where
  name := .string "id"
  location := .string "query"

def thingValues : String → Value := fun _ => .int 7

theorem thing_compiles {first second : Parameter}
    (either : first = idInPath ∧ second = idInQuery ∨ first = idInQuery ∧ second = idInPath) :
    ∃ method after,
      Yields (OperationContext.compile ⟨⟨none, [], true⟩, true⟩ (thingOperation [first, second]) none) {} method
        after := by
  have same : first.name.same second.name = true := by
    rcases either with ⟨rfl, rfl⟩ | ⟨rfl, rfl⟩ <;> simp [idInPath, idInQuery, Value.same]
  have kept : keepFirst (thingOperation [first, second]) [] (thingOperation [first, second]).parameters = _ :=
    keepFirst_pair same
  unfold OperationContext.compile OperationContext.parameters
  rw [kept]
  rcases either with ⟨rfl, rfl⟩ | ⟨rfl, rfl⟩
  · exact ⟨_, _, rfl, rfl⟩
  · exact ⟨_, _, rfl, rfl⟩

/-- A thing by its number, which is asked for in the path first and in the query after that. -/
theorem thing_resolves :
    ∃ method after request,
      Yields (OperationContext.compile ⟨⟨none, [], true⟩, true⟩ (thingOperation [idInPath, idInQuery]) none) {}
        method after ∧
      Client.IsTemplate "/things/{id}".toList thingTemplate ∧
      method.request ⟨[]⟩ "https://api.test" thingValues = .ok request ∧
      (Entries.find? "id" request.pathValues).isSome = true ∧ Succeeds request.url := by
  obtain ⟨method, after, yields⟩ := thing_compiles (.inl ⟨rfl, rfl⟩)
  have fills : (thingOperation [idInPath, idInQuery]).FillsPath "id" :=
    ⟨idInPath, by simp [thingOperation, Parameter.isNamed, idInPath, Value.same], rfl⟩
  have filled : ∀ binding ∈ method.parameters, (thingValues binding.field).isNull = false := fun _ _ => rfl
  obtain ⟨makes, resolves⟩ := request_resolves_iff ⟨[]⟩ "https://api.test" yields rfl thingTemplate_isTemplate filled
  obtain ⟨request, made⟩ := makes fun _ _ => rfl
  obtain ⟨inPath, resolves, -⟩ := resolves request made
  exact ⟨method, after, request, yields, thingTemplate_isTemplate, made, (inPath "id").mpr fills,
    resolves.mpr (List.forall_mem_singleton.mpr fills)⟩

/-- With the one in the query first, the URL has no value for the number though it is declared in the path. -/
theorem thing_unresolved :
    ∃ method after request,
      Yields (OperationContext.compile ⟨⟨none, [], true⟩, true⟩ (thingOperation [idInQuery, idInPath]) none) {}
        method after ∧
      Client.IsTemplate "/things/{id}".toList thingTemplate ∧
      (∀ name ∈ Client.placeholders thingTemplate,
        ∃ parameter ∈ (thingOperation [idInQuery, idInPath]).parameters,
          parameter.name = .string name ∧ parameter.location = .string "path") ∧
      (∀ binding ∈ method.parameters, (thingValues binding.field).isNull = false) ∧
      method.request ⟨[]⟩ "https://api.test" thingValues = .ok request ∧
      Entries.find? "id" request.pathValues = none ∧
      request.url = .error (.unresolved "/things/{id}" (.missingValue "id")) := by
  obtain ⟨method, after, yields⟩ := thing_compiles (.inr ⟨rfl, rfl⟩)
  have filled : ∀ binding ∈ method.parameters, (thingValues binding.field).isNull = false := fun _ _ => rfl
  have missing : ¬(thingOperation [idInQuery, idInPath]).FillsPath "id" := by
    simp [Operation.FillsPath, thingOperation, Parameter.isNamed, idInQuery, Value.same]
  obtain ⟨request, made⟩ : Succeeds (method.request ⟨[]⟩ "https://api.test" thingValues) :=
    succeeds_foldlM _ _ fun _ _ => rfl
  refine ⟨method, after, request, yields, thingTemplate_isTemplate, ?_, filled, made, ?_, ?_⟩
  · exact List.forall_mem_singleton.mpr ⟨idInPath, by simp [thingOperation], rfl, rfl⟩
  · rw [← Option.isNone_iff_eq_none, ← Option.not_isSome, Bool.not_eq_true', ← Bool.not_eq_true]
    exact mt (compiled_pathValues yields filled made "id").mp missing
  · cases found : request.url with
    | ok url =>
        have resolves := compiled_url_succeeds yields rfl thingTemplate_isTemplate filled made
        exact absurd (List.forall_mem_singleton.mp (resolves.mp ⟨url, found⟩)) missing
    | error fault =>
        obtain ⟨name, among, -, rfl⟩ :=
          compiled_url_fault yields rfl thingTemplate_isTemplate filled made found
        obtain rfl := List.mem_singleton.mp among
        rfl

end OpenApiClient
