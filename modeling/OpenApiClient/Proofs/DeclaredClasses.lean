import OpenApiClient.Proofs.ContentClasses
import OpenApiClient.Proofs.FreshNames
import OpenApiClient.Proofs.LocalNames

/-! The account of an emission: which classes it declares, for which objects, and that each has a field for
every property of its object and a class of its own for what the properties need. -/

namespace OpenApiClient

open InScope

def FieldDeclaration.StandsFor (required : List Value) (property : Value × Schema)
    (field : FieldDeclaration) : Prop :=
  property.1 = .string field.jsonName ∧ (field.required = true ↔ property.1 ∈ required)

def Schema.LeadsTo (suggested : Option String) (schema object : Schema) (start : String) : Prop :=
  schema.object? = some object ∧ structName object.keywords suggested = .ok start

mutual

/-- A class has the fields of its object and inside it the classes of the properties, all under names of their
own. -/
inductive ClassDeclaration.DeclaredFor : ClassDeclaration → Schema → Prop
  | intro {own : ClassDeclaration} {object : Schema} :
      List.Forall₂ (FieldDeclaration.StandsFor object.keywords.required) (object.properties.getD [])
        own.fields →
      (own.fields.map FieldDeclaration.name).Nodup →
      (own.inner.map ClassDeclaration.name).Nodup →
      (∀ inner ∈ own.inner, inner.qualifiedName = own.qualifiedName ++ "." ++ inner.name) →
      (∀ inner ∈ own.inner, inner.DeclaredInside (own.fields.map FieldDeclaration.name)
        (object.properties.getD [])) →
      own.DeclaredFor object

/-- A class inside another is declared for what a property leads to. It has an underscore after its name
where a field has the name. -/
inductive ClassDeclaration.DeclaredInside :
    ClassDeclaration → List String → List (Value × Schema) → Prop
  | intro {inner : ClassDeclaration} {fields : List String} {properties : List (Value × Schema)}
      {jsonName start : String} {schema object : Schema} :
      (.string jsonName, schema) ∈ properties →
      schema.LeadsTo (some (Naming.toIdentifierCamel jsonName)) object start →
      inner.name = (if start ∈ fields then start ++ "_" else start) →
      inner.DeclaredFor object → inner.DeclaredInside fields properties

end

def DeclaredHere (scope : NamingScope) (suggested : Option String) (schema : Schema)
    (declared : List ClassDeclaration) : Prop :=
  ∀ own ∈ declared, ∃ object start, schema.LeadsTo suggested object start ∧
    own.name = scope.ownName start ∧ own.DeclaredFor object

namespace Registry

variable {registry : Registry} {suggested : Option String} {schema : Schema} {scope after : NamingScope}
  {declared inner : List ClassDeclaration} {fields : List FieldDeclaration}

theorem fieldNames_nodup {properties : List (Value × Schema)} {names : List String}
    (found : fieldNames properties = .ok names) : names.Nodup := by
  obtain ⟨own, -, same⟩ := except_bind_ok.mp found
  obtain rfl := except_pure_ok.mp same
  exact Naming.unique_nodup own

theorem fieldFor_standsFor (name jsonName : String) (required : List Value) (schema : Schema)
    (type : TypeExpression) :
    (fieldFor name jsonName required schema type).StandsFor required (.string jsonName, schema) := by
  refine ⟨rfl, ?_⟩
  simp [fieldFor, List.any_eq_true, Value.same_string]

theorem emitFields_standing {owner : String} {required : List Value} {names : List String}
    {properties : List (Value × Schema)} (count : names.length = properties.length)
    (yields : Yields (registry.emitFields owner required names properties) scope (inner, fields) after) :
    List.Forall₂ (FieldDeclaration.StandsFor required) properties fields := by
  induction properties generalizing names scope inner fields with
  | nil =>
      obtain ⟨-, rfl, -⟩ := emitFields_nil_yields (.inr rfl) yields
      exact .nil
  | cons property rest ih =>
      obtain ⟨key, schema⟩ := property
      cases names with
      | nil => cases count
      | cons name names =>
          obtain ⟨jsonName, _, _, _, _, _, rfl, -, following, -, rfl⟩ := emitFields_cons_yields yields
          exact .cons (fieldFor_standsFor ..) (ih (Nat.succ.inj count) following)

structure BodyAccount (required : List Value) (names : List String) (properties : List (Value × Schema))
    (scope : NamingScope) (inner : List ClassDeclaration) (fields : List FieldDeclaration)
    (after : NamingScope) : Prop where
  grows : scope.Grows inner after
  standing : List.Forall₂ (FieldDeclaration.StandsFor required) properties fields
  named : fields.map FieldDeclaration.name = names
  nested : ∀ own ∈ inner, ∃ jsonName schema, (.string jsonName, schema) ∈ properties ∧
    ∃ object start, schema.LeadsTo (some (Naming.toIdentifierCamel jsonName)) object start ∧
      own.name = scope.ownName start ∧ own.DeclaredFor object

theorem emit_declaredHere {type : TypeExpression}
    (yields : Yields (registry.emit suggested schema) scope (declared, type) after) :
    DeclaredHere scope suggested schema declared := by
  refine registry.emit_induction
    (fun suggested schema scope declared _ _ => DeclaredHere scope suggested schema declared)
    (fun _ required names properties scope inner fields after => names.length = properties.length →
      BodyAccount required names properties scope inner fields after)
    ?leaf ?present ?absent ?map ?array ?union ?done ?property
    suggested schema scope declared type after yields
  case leaf => simp [DeclaredHere]
  case present => simp [DeclaredHere]
  case absent =>
    intro suggested schema properties scope start names inner fields last shape named fresh found body
    have account := body (fieldNames_length found)
    obtain ⟨-, -, given⟩ := Schema.emissionShape_struct shape
    have listed : schema.properties.getD [] = properties := by rw [given, Option.getD_some]
    -- The scope of the body has the class as its owner; an empty owner would be none.
    have filled : scope.qualify (scope.ownName start) ≠ "" := fun empty =>
      ownName_ne_empty (structName_ne_empty named) (NamingScope.eq_of_qualify_empty empty)
    refine List.forall_mem_singleton.mpr ⟨schema, start, ⟨by rw [schema.object?_eq, shape], named⟩, rfl, ?_⟩
    refine .intro ?_ ?_ account.grows.distinct ?_ ?_
    · rw [listed]
      exact account.standing
    · rw [account.named]
      exact fieldNames_nodup found
    · intro own member
      rw [account.grows.qualified own member]
      exact NamingScope.qualify_inside rfl filled own.name
    · intro own member
      obtain ⟨jsonName, part, among, object, start, leads, ownName, made⟩ := account.nested own member
      rw [listed, account.named]
      refine .intro among leads ?_ made
      rw [ownName, NamingScope.ownName_eq]
      simp [NamingScope.mem_reserve, NamingScope.child]
  case map | array | union =>
    intro _ schema _ _ _ _ _ shape ih
    simpa only [DeclaredHere, Schema.LeadsTo, schema.object?_eq, shape] using ih
  case done =>
    intro _ _ names properties scope finished count
    obtain rfl := properties_eq_nil finished count
    obtain rfl := List.length_eq_zero_iff.mp count
    exact ⟨.refl scope, .nil, rfl, by simp⟩
  case property =>
    intro _ required name names jsonName schema rest scope declared type between inner fields after emitted
      first ih count
    have growth := emit_grows emitted
    have account := ih (Nat.succ.inj count)
    refine ⟨growth.trans account.grows, .cons (fieldFor_standsFor ..) account.standing,
      congrArg (name :: ·) account.named, List.forall_mem_append.mpr ⟨?_, ?_⟩⟩
    · exact fun own member => ⟨jsonName, schema, List.mem_cons_self, first own member⟩
    · intro own member
      obtain ⟨other, part, among, object, start, leads, ownName, made⟩ := account.nested own member
      rw [NamingScope.ownName_of_reserved growth.reserved] at ownName
      exact ⟨other, part, List.mem_cons_of_mem _ among, object, start, leads, ownName, made⟩

/-- An emission adds exactly the classes it declares to the scope, each under a new name, and every class is
declared for the object that the schema leads to. -/
theorem emit_accounts {type : TypeExpression}
    (yields : Yields (registry.emit suggested schema) scope (declared, type) after) :
    scope.Grows declared after ∧ DeclaredHere scope suggested schema declared :=
  ⟨emit_grows yields, emit_declaredHere yields⟩

/-- An order with a line, which has the name of its field, and a list of lines, whose class is the same. -/
def order : Schema where
  keywords := { type := .string "object", required := [.string "Line"] }
  properties := some [
    (.string "Line", { keywords := { type := .string "object" }, properties := some [] }),
    (.string "lines", {
      keywords := { type := .string "array" }
      items := some { keywords := { type := .string "object", title := .string "line" }, properties := some [] } })]

theorem order_accounts :
    ∃ declared type after,
      Yields ((Registry.empty none).close.emit (some "Order") order) {} (declared, type) after ∧
        declared.map (fun own => (own.name, own.inner.map ClassDeclaration.qualifiedName)) =
          [("Order", ["Order.Line_"])] ∧
        ({} : NamingScope).Grows declared after ∧ DeclaredHere {} (some "Order") order declared := by
  obtain ⟨declared, type, after, yields, classes⟩ : ∃ declared type after,
      Yields ((Registry.empty none).close.emit (some "Order") order) {} (declared, type) after ∧
        declared.map (fun own => (own.name, own.inner.map ClassDeclaration.qualifiedName)) =
          [("Order", ["Order.Line_"])] := ⟨_, _, _, ⟨rfl, rfl⟩, rfl⟩
  exact ⟨declared, type, after, yields, classes, emit_accounts yields⟩

end Registry
end OpenApiClient
