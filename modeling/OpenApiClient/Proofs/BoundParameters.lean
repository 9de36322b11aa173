import OpenApiClient.Proofs.PathValues

/-! The parameters of a method, the fields of their class and the bindings between the two. Of the parameters of one
name the first is bound. The three lists run side by side: a binding carries what its parameter says and has the field
of its own name. -/

namespace OpenApiClient

open InScope

/-- A binding sends its value as the parameter says, or as its location has it where the parameter says nothing: simple
in the path and in the header, and in the form of a query anywhere else. -/
structure ParameterBinding.Follows (binding : ParameterBinding) (parameter : Parameter) : Prop where
  location : binding.location = parameter.location
  ownStyle : parameter.style.truth = true → binding.style = parameter.style
  simple : parameter.style.truth = false →
    parameter.location = .string "path" ∨ parameter.location = .string "header" → binding.style = .string "simple"
  form : parameter.style.truth = false → parameter.location ≠ .string "path" →
    parameter.location ≠ .string "header" → binding.style = .string "form"
  ownExplode : parameter.explode ≠ .null → binding.explode = parameter.explode
  explode : parameter.explode = .null →
    ∃ flag, binding.explode = .bool flag ∧ (flag = true ↔ binding.style = .string "form")

inductive OperationMethod.HasGroup (method : OperationMethod) : List FieldDeclaration → Prop
  | without : method.parametersClass = none → method.HasGroup []
  | group {own : ClassDeclaration} {others : List ClassDeclaration} : method.declarations = own :: others →
      method.parametersClass = some own.name → method.HasGroup own.fields

structure FieldDeclaration.Carries (field : FieldDeclaration) (parameter : Parameter) : Prop where
  named : parameter.name = .string field.jsonName
  required : field.required = true ↔ parameter.required = true ∨ parameter.location = .string "path"

structure ParameterBinding.BindsFirst (binding : ParameterBinding) (parameters : List Parameter)
    (fields : List FieldDeclaration) (first : Parameter) (field : FieldDeclaration) : Prop where
  found : parameters.find? (Parameter.isNamed binding.name) = some first
  follows : binding.Follows first
  sends : binding.field = field.name
  member : field ∈ fields
  only : ∀ other ∈ fields, other.jsonName = binding.name ↔ other = field
  required : field.required = true ↔ first.required = true ∨ first.location = .string "path"

/-- A method binds the names of its parameters, each once and in the order in which they occur first. -/
structure OperationMethod.BindsParameters (method : OperationMethod) (names : List String)
    (fields : List FieldDeclaration) : Prop where
  given : method.operation.parameters.map Parameter.name = names.map .string
  bindings : method.parameters.map ParameterBinding.name = names.eraseDups
  group : method.HasGroup fields
  jsonNames : fields.map FieldDeclaration.jsonName = names.eraseDups
  fieldNames : (fields.map FieldDeclaration.name).Nodup
  bound : ∀ binding ∈ method.parameters,
    ∃ first field, binding.BindsFirst method.operation.parameters fields first field
  required : method.parametersRequired = true ↔ ∃ field ∈ fields, field.required = true

/-! The parameters that are kept, by their names. -/

section Keeping

variable {operation : Operation} {before parameters kept : List Parameter}

theorem keepFirst_extends (found : (keepFirst operation before parameters).result = .ok kept) : before ⊆ kept := by
  induction parameters generalizing before with
  | nil =>
      obtain rfl := Traced.pure_ok.mp found
      exact List.Subset.refl before
  | cons parameter rest ih =>
      unfold keepFirst at found
      split at found
      · obtain ⟨_, -, found⟩ := Traced.bind_ok.mp found
        exact ih found
      · intro earlier member
        exact ih found (List.mem_append_left _ member)

/-- Where the parameters that are kept have texts for names, all have, and the names are kept once each. -/
theorem keepFirst_names (found : (keepFirst operation before parameters).result = .ok kept)
    (texts : ∀ parameter ∈ kept, ∃ text, parameter.name = .string text) (earlier : List String)
    (own : before.map Parameter.name = earlier.eraseDups.map .string) :
    ∃ names : List String, parameters.map Parameter.name = names.map .string ∧
      kept.map Parameter.name = (earlier ++ names).eraseDups.map .string := by
  induction parameters generalizing before earlier with
  | nil =>
      obtain rfl := Traced.pure_ok.mp found
      exact ⟨[], rfl, by rw [own, List.append_nil]⟩
  | cons parameter rest ih =>
      unfold keepFirst at found
      split at found
      case h_1 known first =>
        obtain ⟨_, -, found⟩ := Traced.bind_ok.mp found
        have among : known.name ∈ before.map Parameter.name :=
          List.mem_map_of_mem (List.mem_of_find?_eq_some first)
        rw [own] at among
        obtain ⟨text, member, named⟩ := List.mem_map.mp among
        have same : parameter.name = .string text := by
          have same : known.name.same parameter.name = true := by simpa using List.find?_some first
          rw [← named] at same
          exact Value.string_same.mp same
        have again : (earlier ++ [text]).eraseDups = earlier.eraseDups :=
          eraseDups_known (List.mem_eraseDups.mp member)
        obtain ⟨names, others, all⟩ := ih found _ (again.symm ▸ own)
        exact ⟨text :: names, by simp [same, others], by rw [all, List.append_assoc, List.singleton_append]⟩
      case h_2 new =>
        obtain ⟨text, same⟩ := texts parameter (keepFirst_extends found (by simp))
        have absent : text ∉ earlier := by
          intro member
          have among : Value.string text ∈ before.map Parameter.name := by
            rw [own]
            exact List.mem_map_of_mem (List.mem_eraseDups.mpr member)
          obtain ⟨known, present, named⟩ := List.mem_map.mp among
          have apart := List.find?_eq_none.mp new known present
          rw [named, same] at apart
          exact apart (Value.string_same.mpr rfl)
        have longer : (before ++ [parameter]).map Parameter.name = (earlier ++ [text]).eraseDups.map .string := by
          rw [eraseDups_new absent]
          simp [own, same]
        obtain ⟨names, others, all⟩ := ih found _ longer
        exact ⟨text :: names, by simp [same, others], by rw [all, List.append_assoc, List.singleton_append]⟩

theorem names_nodup (distinct : kept.Pairwise fun earlier later => earlier.name.same later.name = false)
    (texts : ∀ parameter ∈ kept, ∃ text, parameter.name = .string text) : (kept.map Parameter.name).Nodup := by
  refine List.pairwise_map.mpr (distinct.imp_of_mem ?_)
  intro earlier later present _ apart same
  obtain ⟨text, named⟩ := texts earlier present
  rw [← same, named, Value.string_same.mpr rfl] at apart
  cases apart

end Keeping

theorem Parameter.isRequired_iff {parameter : Parameter} :
    parameter.isRequired = true ↔ parameter.required = true ∨ parameter.location = .string "path" := by
  simp [Parameter.isRequired, Value.same_string]

theorem Parameter.binding_follows (parameter : Parameter) (field : FieldDeclaration) :
    (parameter.binding field).Follows parameter where
  location := rfl
  ownStyle own := by simp [Parameter.binding, own]
  simple absent located := by
    rcases located with located | located <;> simp [Parameter.binding, absent, located, defaultStyle]
  form absent notPath notHeader := by
    simp only [Parameter.binding, absent, Bool.false_eq_true, if_false]
    exact congrArg Value.string (defaultStyle.eq_3 _ notPath notHeader)
  ownExplode own := by simp [Parameter.binding, Value.isNull_iff, own]
  explode absent := by
    refine ⟨(parameter.binding field).style.same (.string "form"), ?_, Value.same_string⟩
    simp [Parameter.binding, Value.isNull_iff, absent]

/-- The parameter is required in the group exactly if it is on its own, since no other has its name. -/
theorem mem_required {kept : List Parameter} {parameter : Parameter} (distinct : (kept.map Parameter.name).Nodup)
    (member : parameter ∈ kept) :
    parameter.name ∈ (kept.filter Parameter.isRequired).map Parameter.name ↔ parameter.isRequired = true := by
  constructor
  · intro among
    obtain ⟨other, chosen, same⟩ := List.mem_map.mp among
    obtain ⟨present, required⟩ := List.mem_filter.mp chosen
    rwa [← List.inj_on_of_nodup_map distinct present member same]
  · exact fun required => List.mem_map_of_mem (List.mem_filter.mpr ⟨member, required⟩)

section Carrying

variable {kept : List Parameter} {fields : List FieldDeclaration}
  (carries : List.Forall₂ (fun parameter field => FieldDeclaration.Carries field parameter) kept fields)
include carries

theorem carried_text : ∀ parameter ∈ kept, ∃ text, parameter.name = .string text := by
  intro parameter member
  obtain ⟨field, -, carried⟩ := forall₂_of_mem_left carries member
  exact ⟨field.jsonName, carried.named⟩

theorem bindings_names :
    ((kept.zip fields).map fun (parameter, field) => parameter.binding field).map ParameterBinding.name =
      fields.map FieldDeclaration.jsonName := by
  induction carries with
  | nil => rfl
  | cons _ _ ih => exact congrArg (_ :: ·) ih

theorem jsonNames_nodup (distinct : kept.Pairwise fun earlier later => earlier.name.same later.name = false) :
    (fields.map FieldDeclaration.jsonName).Nodup := by
  refine nodup_of_forall₂ carries (names_nodup distinct (carried_text carries)) ?_
  intro parameter parameter' field field' carried carried' same
  rw [carried.named, carried'.named, same]

theorem any_required : kept.any Parameter.isRequired = true ↔ ∃ field ∈ fields, field.required = true := by
  rw [List.any_eq_true]
  constructor
  · rintro ⟨parameter, member, required⟩
    obtain ⟨field, present, carried⟩ := forall₂_of_mem_left carries member
    exact ⟨field, present, carried.required.mpr (parameter.isRequired_iff.mp required)⟩
  · rintro ⟨field, member, required⟩
    obtain ⟨parameter, present, carried⟩ := forall₂_of_mem_right carries member
    exact ⟨parameter, present, parameter.isRequired_iff.mpr (carried.required.mp required)⟩

/-- The binding of a parameter that is kept, when every name leads to the parameter kept for it. -/
theorem binding_bindsFirst {parameters : List Parameter}
    (distinct : kept.Pairwise fun earlier later => earlier.name.same later.name = false)
    (first : ∀ name, kept.find? (Parameter.isNamed name) = parameters.find? (Parameter.isNamed name))
    {parameter : Parameter} {field : FieldDeclaration} (paired : (parameter, field) ∈ kept.zip fields) :
    (parameter.binding field).BindsFirst parameters fields parameter field := by
  have carried : field.Carries parameter := (List.forall₂_iff_zip.mp carries).2 paired
  obtain ⟨among, member⟩ := List.of_mem_zip paired
  refine ⟨?_, parameter.binding_follows field, rfl, member, ?_, carried.required⟩
  · rw [← first]
    exact find?_isNamed distinct among carried.named
  · intro other present
    constructor
    · exact List.inj_on_of_nodup_map (jsonNames_nodup carries distinct) present member
    · rintro rfl
      rfl

end Carrying

namespace OperationContext

variable {context : OperationContext} {operation : Operation} {scope after : NamingScope}

theorem buildClass_group {registry : Registry} {kept : List Parameter} {name : String} {description : Option String}
    {own : ClassDeclaration}
    (built : (registry.buildClass (parameterGroup kept) name (scope.child name) description).result = .ok own)
    (distinct : kept.Pairwise fun earlier later => earlier.name.same later.name = false) :
    List.Forall₂ (fun parameter field => field.Carries parameter) kept own.fields ∧
      (own.fields.map FieldDeclaration.name).Nodup := by
  obtain ⟨standing, fieldNames⟩ := Registry.buildClass_fields built
  replace standing := List.forall₂_map_left_iff.mp standing
  have nodup : (kept.map Parameter.name).Nodup := by
    refine names_nodup distinct fun parameter member => ?_
    obtain ⟨field, -, stands⟩ := forall₂_of_mem_left standing member
    exact ⟨field.jsonName, stands.1⟩
  refine ⟨forall₂_imp_of_mem standing ?_, fieldNames⟩
  intro parameter member field stands
  exact ⟨stands.1, stands.2.trans ((mem_required nodup member).trans parameter.isRequired_iff)⟩

/-- The class of the parameters, with a field for each that is kept, and the bindings that go with the fields. -/
theorem parameters_group {start methodName : String} {declared : List ClassDeclaration}
    {className : Option String} {required : Bool} {bindings : List ParameterBinding}
    (yields : Yields (context.parameters operation start methodName) scope
      (declared, className, required, bindings) after) :
    ∃ kept fields, (keepFirst operation [] operation.parameters).result = .ok kept ∧
      List.Forall₂ (fun parameter field => field.Carries parameter) kept fields ∧
      (fields.map FieldDeclaration.name).Nodup ∧
      bindings = (kept.zip fields).map (fun (parameter, field) => parameter.binding field) ∧
      required = kept.any Parameter.isRequired ∧
      (className = none ∧ fields = [] ∨
        ∃ own, declared = [own] ∧ className = some own.name ∧ fields = own.fields) := by
  obtain ⟨-, -, none, same⟩ | ⟨kept, name, own, keeping, -, built, rfl, same⟩ := parameters_yields yields
  · cases same
    exact ⟨[], [], by rw [none]; rfl, .nil, List.nodup_nil, rfl, rfl, .inl ⟨rfl, rfl⟩⟩
  · cases same
    obtain ⟨carries, nodup⟩ := buildClass_group built (keepFirst_distinct keeping List.Pairwise.nil)
    exact ⟨kept, own.fields, keeping, carries, nodup, rfl, rfl, .inr ⟨own, rfl, by rw [buildClass_name built], rfl⟩⟩

/-- A method binds the parameters of its operation, each name to the first parameter that has it. -/
theorem compile_bindsParameters {given : Option Value} {method : OperationMethod}
    (yields : Yields (context.compile operation given) scope method after) :
    method.operation = operation ∧ ∃ names fields, method.BindsParameters names fields := by
  obtain ⟨forParameters, _, _, _, _, _, -, rfl, -, -, grouped, -, -, declarations, -⟩ := compile_yields yields
  obtain ⟨kept, fields, keeping, carries, fieldNames, bindings, required, group⟩ := parameters_group grouped
  have distinct := keepFirst_distinct keeping List.Pairwise.nil
  obtain ⟨names, given, keptNames⟩ := keepFirst_names keeping (carried_text carries) [] rfl
  rw [List.nil_append] at keptNames
  have jsonNames : fields.map FieldDeclaration.jsonName = names.eraseDups := by
    have same : kept.map Parameter.name = fields.map (Value.string ∘ FieldDeclaration.jsonName) :=
      map_eq_of_forall₂ (carries.imp fun _ _ carried => carried.named)
    rw [keptNames, ← List.map_map] at same
    exact (List.map_injective_iff.mpr (fun _ _ => Value.string.inj) same).symm
  refine ⟨rfl, names, fields, given, ?_, ?_, jsonNames, fieldNames, ?_, ?_⟩
  · rw [bindings, bindings_names carries, jsonNames]
  · obtain ⟨none, rfl⟩ | ⟨own, rfl, className, rfl⟩ := group
    · exact .without none
    · exact .group declarations className
  · intro binding member
    rw [bindings] at member
    obtain ⟨⟨parameter, field⟩, paired, rfl⟩ := List.mem_map.mp member
    exact ⟨parameter, field, binding_bindsFirst carries distinct (keepFirst_find? keeping) paired⟩
  · rw [required, any_required carries]

end OperationContext

/-- Two numbers of a user whose fields are told apart, the first of them once more in another place, and a filter that
says itself how it is sent. -/
def userParameters : List Parameter := [
  { name := .string "user-id", location := .string "query" },
  { name := .string "user_id", location := .string "header", required := true },
  { name := .string "user-id", location := .string "path" },
  { name := .string "filter", location := .string "query", style := .string "deepObject", explode := .bool true }]

theorem userParameters_kept : keepFirst (thingOperation userParameters) [] userParameters =
    Traced.write .warning "clientgen.operations"
      ((thingOperation userParameters).slot ++ ": parameter '" ++ "user-id" ++
          "' appears in several locations; keeping the " ++ "query" ++ " one") >>=
        fun _ => pure (userParameters.eraseIdx 2) := by
  simp [userParameters, keepFirst, Value.same, Value.display]

theorem userParameters_bindings (first second third : FieldDeclaration) :
    ((userParameters.eraseIdx 2).zip [first, second, third]).map (fun (parameter, field) => parameter.binding field) = [
      ⟨first.name, first.jsonName, .string "query", .string "form", .bool true⟩,
      ⟨second.name, second.jsonName, .string "header", .string "simple", .bool false⟩,
      ⟨third.name, third.jsonName, .string "query", .string "deepObject", .bool true⟩] := by
  simp [userParameters, Parameter.binding, defaultStyle, Value.truth, Value.isNull, Value.same]

theorem userParameters_bound :
    ∃ method after,
      Yields (OperationContext.compile ⟨⟨none, [], true⟩, true⟩ (thingOperation userParameters) none) {} method after ∧
        method.parameters = [
          ⟨"user_id", "user-id", .string "query", .string "form", .bool true⟩,
          ⟨"user_id_2", "user_id", .string "header", .string "simple", .bool false⟩,
          ⟨"filter", "filter", .string "query", .string "deepObject", .bool true⟩] ∧
        ∃ names fields, method.BindsParameters names fields := by
  obtain ⟨method, after, yields, bindings⟩ : ∃ method after,
      Yields (OperationContext.compile ⟨⟨none, [], true⟩, true⟩ (thingOperation userParameters) none) {} method after ∧
        method.parameters = [
          ⟨"user_id", "user-id", .string "query", .string "form", .bool true⟩,
          ⟨"user_id_2", "user_id", .string "header", .string "simple", .bool false⟩,
          ⟨"filter", "filter", .string "query", .string "deepObject", .bool true⟩] := by
    unfold OperationContext.compile OperationContext.parameters
    rw [show (thingOperation userParameters).parameters = userParameters from rfl, userParameters_kept]
    exact ⟨_, _, ⟨rfl, rfl⟩, userParameters_bindings _ _ _⟩
  exact ⟨method, after, yields, bindings, (OperationContext.compile_bindsParameters yields).2⟩

end OpenApiClient
