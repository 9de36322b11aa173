import OpenApiClient.Proofs.ClassBodies
import OpenApiClient.Proofs.Operations
import OpenApiClient.Proofs.ServiceGroups

/-! The bodies of the classes of a package. Every class of a model or a service has the body of an object of the
document, so that the bodies are clear exactly when none of these objects is crowded. -/

namespace OpenApiClient

open InScope

/-- An object of an operation: one that a schema of its contents reaches or that its parameters make together. -/
inductive Operation.HasObject (operation : Operation) : Schema → Prop
  | content {schema object : Schema} : some schema ∈ operation.schemas → schema.Reaches object →
      operation.HasObject object
  | parameters {kept : List Parameter} {object : Schema} :
      (keepFirst operation [] operation.parameters).result = .ok kept → (parameterGroup kept).Reaches object →
      operation.HasObject object

inductive ApiDocument.HasObject (document : ApiDocument) : Schema → Prop
  | named {entry : Value × Schema} {object : Schema} : entry ∈ document.schemas → entry.2.Reaches object →
      document.HasObject object
  | operation {operation : Operation} {object : Schema} : operation ∈ document.operations →
      operation.HasObject object → document.HasObject object

inductive PackagePlan.Declares (plan : PackagePlan) : ClassDeclaration → Prop
  | model {model : ModelModule} {top own : ClassDeclaration} : model ∈ plan.models → top ∈ model.classes →
      top.Holds own → plan.Declares own
  | service {service : ServiceModule} {method : OperationMethod} {top own : ClassDeclaration} :
      service ∈ plan.services → method ∈ service.operations → top ∈ method.declarations → top.Holds own →
      plan.Declares own

def PackagePlan.BodiesClear (plan : PackagePlan) : Prop := ∀ own, plan.Declares own → own.BodyClear

namespace OperationContext

variable {context : OperationContext} {operation : Operation} {scope after : NamingScope}
  {declared : List ClassDeclaration}

theorem parameters_bodies {start methodName : String} {result : Option String × Bool × List ParameterBinding}
    (yields : Yields (context.parameters operation start methodName) scope (declared, result) after) :
    BodiesFrom operation.HasObject declared := by
  obtain ⟨rfl, -⟩ | ⟨kept, name, own, keeping, -, built, rfl, -⟩ := parameters_yields yields
  · exact .nil
  · have self : (parameterGroup kept).object? = some (parameterGroup kept) := rfl
    exact (Registry.buildClass_bodies self built).imp fun object reach => .parameters keeping reach

theorem contentType_bodies {schema : Option Schema} {name typeText : String} (own : schema ∈ operation.schemas)
    (yields : Yields (context.contentType schema name) scope (declared, typeText) after) :
    BodiesFrom operation.HasObject declared := by
  obtain ⟨-, rfl, -⟩ | ⟨given, type, rfl, emitted, -⟩ := contentType_yields yields
  · exact .nil
  · exact (Registry.emit_bodies emitted).imp fun object reach => .content own reach

theorem body_bodies {start operationId : String} {body : Option BodyShape}
    (yields : Yields (context.body operation start operationId) scope (declared, body) after) :
    BodiesFrom operation.HasObject declared := by
  obtain ⟨-, rfl, -⟩ | ⟨request, contentType, schema, others, shape, requested, filled, -, typed⟩ :=
    body_yields yields
  · exact .nil
  · refine contentType_bodies ?_ typed
    simp [Operation.schemas, requested, filled]

theorem response_bodies {start operationId pattern : String} {response : Response} {shape : ResponseShape}
    (own : (pattern, response) ∈ operation.responses)
    (yields : Yields (context.response start operationId pattern response) scope (declared, shape) after) :
    BodiesFrom operation.HasObject declared := by
  obtain ⟨-, rfl, -⟩ | ⟨contentType, schema, others, typeText, filled, -, typed⟩ := response_yields yields
  · exact .nil
  · refine contentType_bodies ?_ typed
    refine List.mem_append_right _ (List.mem_flatMap.mpr ⟨_, own, ?_⟩)
    simp [filled]

theorem responses_bodies {start operationId : String} {responses : List (String × Response)}
    {shapes : List ResponseShape} (own : ∀ entry ∈ responses, entry ∈ operation.responses)
    (yields : Yields (context.responses start operationId responses) scope (declared, shapes) after) :
    BodiesFrom operation.HasObject declared := by
  replace yields := responses_yields yields
  induction yields with
  | nil => exact .nil
  | valid _ answered _ ih =>
      obtain ⟨first, later⟩ := List.forall_mem_cons.mp own
      exact (response_bodies first answered).append (ih later)
  | invalid _ _ ih => exact ih (List.forall_mem_cons.mp own).2

theorem compile_bodies {given : Option Value} {method : OperationMethod}
    (yields : Yields (context.compile operation given) scope method after) :
    BodiesFrom operation.HasObject method.declarations := by
  obtain ⟨_, _, _, _, _, _, -, -, -, -, grouped, shaped, answered, declarations, -⟩ := compile_yields yields
  rw [declarations]
  exact ((parameters_bodies grouped).append (body_bodies shaped)).append (responses_bodies (fun _ own => own) answered)

theorem Compiled.bodies {pairs : List (Operation × Value)} {methods : List OperationMethod}
    (compiled : context.Compiled scope pairs methods after) :
    ∀ method ∈ methods, ∃ pair ∈ pairs, BodiesFrom pair.1.HasObject method.declarations := by
  induction compiled with
  | nil => simp
  | cons yields _ ih =>
      refine List.forall_mem_cons.mpr ⟨⟨_, List.mem_cons_self, compile_bodies yields⟩, ?_⟩
      intro method member
      obtain ⟨pair, among, bodies⟩ := ih method member
      exact ⟨pair, List.mem_cons_of_mem _ among, bodies⟩

theorem service_bodies {group : ServiceGroup} {service : ServiceModule}
    (served : (context.service group).result = .ok service) :
    ∀ method ∈ service.operations, ∃ operation ∈ group.operations,
      BodiesFrom operation.HasObject method.declarations := by
  obtain ⟨names, after, -, -, compiled⟩ := service_ok served
  intro method member
  obtain ⟨pair, among, bodies⟩ := compiled.bodies method member
  exact ⟨pair.1, (List.of_mem_zip among).1, bodies⟩

end OperationContext

namespace PackagePlan

variable {document : ApiDocument} {package : String} {plan : PackagePlan}

theorem declared_body (planned : (ofDocument document package).result = .ok plan) {own : ClassDeclaration}
    (declares : plan.Declares own) : ∃ object, document.HasObject object ∧ own.BodyOf object := by
  obtain ⟨registry, groups, services, made, modelled, grouped, served, separate⟩ := ofDocument_ok planned
  cases declares with
  | model member top holds =>
      obtain ⟨named, entry, done⟩ := forall₂_of_mem_right modelled member
      obtain ⟨type, _, emitted, -⟩ := Registry.model_ok done
      obtain ⟨object, reach, body⟩ := Registry.emitNamed_bodies emitted _ top own holds
      obtain ⟨schema, among, rfl⟩ := forall₂_of_mem_right (Registry.ofSchemas_ok made) entry
      exact ⟨object, .named among reach, body⟩
  | service member method top holds =>
      rw [separate] at member
      obtain ⟨original, present, module, rfl⟩ := mem_separateModules member
      obtain ⟨group, groupMember, done⟩ := forall₂_of_mem_right served present
      obtain ⟨operation, among, bodies⟩ := OperationContext.service_bodies done _ method
      obtain ⟨object, has, body⟩ := bodies _ top own holds
      exact ⟨object, .operation (((groupOperations_ok grouped).mem groupMember).mp among).1 has, body⟩

/-- Every class has the body of an object of the document. The bodies are clear exactly when none of the objects
whose bodies they are is crowded. -/
theorem bodiesClear_iff (planned : (ofDocument document package).result = .ok plan) :
    (∀ own, plan.Declares own → ∃ object, document.HasObject object ∧ own.BodyOf object) ∧
    (plan.BodiesClear ↔
      ∀ own object, plan.Declares own → document.HasObject object → own.BodyOf object → ¬object.Crowded) := by
  refine ⟨fun own declares => declared_body planned declares, ?_⟩
  constructor
  · intro clear own object declares _ body
    exact body.clear_iff.mp (clear own declares)
  · intro free own declares
    obtain ⟨object, has, body⟩ := declared_body planned declares
    exact body.clear_iff.mpr (free own object declares has body)

def modelBodies (plan : PackagePlan) : List (List String × List String) :=
  plan.models.flatMap fun model => model.classes.map fun own =>
    (own.inner.map ClassDeclaration.name, own.fields.map FieldDeclaration.name)

theorem modelBodies_apart (clear : plan.BodiesClear) :
    ∀ body ∈ plan.modelBodies, ∀ name ∈ body.1, name ∉ body.2 := by
  intro body member name innerNamed fieldNamed
  obtain ⟨model, modelMember, among⟩ := List.mem_flatMap.mp member
  obtain ⟨own, ownMember, rfl⟩ := List.mem_map.mp among
  obtain ⟨inner, innerMember, rfl⟩ := List.mem_map.mp innerNamed
  obtain ⟨field, fieldMember, same⟩ := List.mem_map.mp fieldNamed
  exact clear own (.model modelMember ownMember (.self own)) inner innerMember field fieldMember same.symm

end PackagePlan

/-- Where one schema is named and sent, and nothing has parameters, all objects but the empty group are its own. -/
theorem ApiDocument.HasObject.of_only {document : ApiDocument} {only object : Schema}
    (named : ∀ entry ∈ document.schemas, entry.2 = only)
    (sent : ∀ operation ∈ document.operations, operation.parameters = [] ∧ operation.schemas = [some only])
    (has : document.HasObject object) : only.Reaches object ∨ object = parameterGroup [] := by
  cases has with
  | named member reach => exact .inl (named _ member ▸ reach)
  | operation member own =>
      obtain ⟨without, schemas⟩ := sent _ member
      cases own with
      | content among reach =>
          rw [schemas] at among
          obtain rfl := Option.some.inj (List.mem_singleton.mp among)
          exact .inl reach
      | parameters keeping reach =>
          rw [without] at keeping
          obtain rfl := Traced.pure_ok.mp keeping
          exact .inr (reach.eq_of_leaves rfl fun _ none => absurd none List.not_mem_nil)

/-- Where no field has a name that ends with an underscore, there is room for the classes. -/
theorem Schema.not_crowded {object : Schema} (names : List String)
    (found : fieldNames (object.properties.getD []) = .ok names)
    (apart : ∀ name ∈ names, name.toList.getLast? ≠ some '_') : ¬object.Crowded := by
  rintro ⟨own, start, again, -, -, taken⟩
  obtain rfl := Except.ok.inj (found.symm.trans again)
  exact apart _ taken (by simp)

def line : Schema where
  keywords := { type := .string "object" }
  properties := some [(.string "number", { keywords := { type := .string "integer" } })]

/-- An order with a line, whose class is called by the name of its field, and a note under some name. -/
def noteOrder (note : String) : Schema where
  keywords := { type := .string "object" }
  properties := some [(.string "Line", line), (.string note, { keywords := { type := .string "string" } })]

def ordersDocument (note : String) : ApiDocument where
  title := .string "Orders"
  version := "1"
  schemas := [(.string "Order", noteOrder note)]
  operations := [
    { method := "POST", path := .string "/orders", operationId := .string "sendOrder"
      requestBody := some { content := [(.string "application/json", some (noteOrder note))] } }]
  distinctSchemas := by
    simp [Entries.Distinct]

theorem noteOrder_reaches {note : String} {object : Schema} (reach : (noteOrder note).Reaches object) :
    object = noteOrder note ∨ object = line := by
  rcases (Schema.reaches_iff rfl).mp reach with same | ⟨entry, member, deeper⟩
  · exact .inl same
  · rcases List.mem_cons.mp member with rfl | last
    · exact .inr (deeper.eq_of_leaves rfl (List.forall_mem_singleton.mpr rfl))
    · obtain rfl := List.mem_singleton.mp last
      exact absurd deeper (Schema.not_reaches rfl)

theorem ordersDocument_objects {note : String} {object : Schema} (has : (ordersDocument note).HasObject object) :
    object = noteOrder note ∨ object = line ∨ object = parameterGroup [] := by
  have named : ∀ entry ∈ (ordersDocument note).schemas, entry.2 = noteOrder note := by simp [ordersDocument]
  have sent : ∀ operation ∈ (ordersDocument note).operations,
      operation.parameters = [] ∧ operation.schemas = [some (noteOrder note)] :=
    List.forall_mem_singleton.mpr ⟨rfl, rfl⟩
  rcases has.of_only named sent with reach | empty
  · exact (noteOrder_reaches reach).imp_right .inl
  · exact .inr (.inr empty)

set_option maxRecDepth 4000 in
theorem ordersDocument_clear :
    ∃ plan, (PackagePlan.ofDocument (ordersDocument "note") "orders").result = .ok plan ∧
      plan.modelBodies = [(["Line_"], ["Line", "note"])] ∧ plan.BodiesClear := by
  obtain ⟨plan, planned, bodies⟩ : ∃ plan,
      (PackagePlan.ofDocument (ordersDocument "note") "orders").result = .ok plan ∧
      plan.modelBodies = [(["Line_"], ["Line", "note"])] := ⟨_, rfl, by decide +kernel⟩
  refine ⟨plan, planned, bodies, (PackagePlan.bodiesClear_iff planned).2.mpr ?_⟩
  intro own object _ has _
  rcases ordersDocument_objects has with rfl | rfl | rfl
  · exact Schema.not_crowded ["Line", "note"] rfl (by decide)
  · exact Schema.not_crowded ["number"] rfl (by decide)
  · exact Schema.not_crowded [] rfl (by decide)

set_option maxRecDepth 4000 in
/-- With a note under the name of the line and an underscore, the class of the line has the name of its field. -/
theorem ordersDocument_clash :
    ∃ plan, (PackagePlan.ofDocument (ordersDocument "Line_") "orders").result = .ok plan ∧
      plan.modelBodies = [(["Line_"], ["Line", "Line_"])] ∧ ¬plan.BodiesClear := by
  obtain ⟨plan, planned, bodies⟩ : ∃ plan,
      (PackagePlan.ofDocument (ordersDocument "Line_") "orders").result = .ok plan ∧
      plan.modelBodies = [(["Line_"], ["Line", "Line_"])] := ⟨_, rfl, by decide +kernel⟩
  refine ⟨plan, planned, bodies, ?_⟩
  intro clear
  have apart := PackagePlan.modelBodies_apart clear (["Line_"], ["Line", "Line_"]) (by simp [bodies])
  exact absurd (apart "Line_" (by simp)) (by simp)

end OpenApiClient
