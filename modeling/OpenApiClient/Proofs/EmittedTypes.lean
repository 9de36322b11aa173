import OpenApiClient.Proofs.LocalNames

/-! The types that emission gives. At the level of a module a schema is emitted with the type that it has,
and where it has none the emission fails for the same reason. -/

namespace OpenApiClient

open InScope

/-- An emission agrees with a typing: it comes to no other type, and it fails where the typing does and as the
typing does. -/
structure Agrees (typed : Except Failure TypeExpression)
    (emitted : Except Failure (List ClassDeclaration × TypeExpression)) : Prop where
  sameType : ∀ declared type, emitted = .ok (declared, type) → typed = .ok type
  sameFailure : ∀ failure, typed = .error failure → emitted = .error failure

theorem Agrees.of_typed (typed : Except Failure TypeExpression) (declared : List ClassDeclaration) :
    Agrees typed (Prod.mk declared <$> typed) where
  sameType := by
    intro _ type emitted
    obtain ⟨_, found, same⟩ := except_map_ok.mp emitted
    obtain ⟨-, rfl⟩ := Prod.mk.inj same
    exact found
  sameFailure := fun _ failed => except_map_error.mpr failed

theorem Agrees.map {typed : Except Failure TypeExpression}
    {emitted : Except Failure (List ClassDeclaration × TypeExpression)} (agrees : Agrees typed emitted)
    (change : TypeExpression → TypeExpression) :
    Agrees (change <$> typed) (Prod.map id change <$> emitted) where
  sameType := by
    intro declared _ changed
    obtain ⟨⟨_, type⟩, found, same⟩ := except_map_ok.mp changed
    obtain ⟨-, rfl⟩ := Prod.mk.inj same
    exact except_map_ok.mpr ⟨type, agrees.sameType _ type found, rfl⟩
  sameFailure := by
    intro failure failed
    have own := agrees.sameFailure failure (except_map_error.mp failed)
    exact except_map_error.mpr own

namespace Registry

variable {registry : Registry} {suggested : Option String} {schema : Schema} {scope : NamingScope}

/-! What the type of a schema is made of, by the shape that decides its emission. -/

theorem typeOf_struct {properties : List (Value × Schema)} (shape : schema.emissionShape = .struct properties) :
    (registry.typeOf suggested schema).result =
      TypeExpression.named none <$> structName schema.keywords suggested := by
  obtain ⟨plain, kind, found⟩ := Schema.emissionShape_struct shape
  obtain ⟨keywords, items, _, additional, anyOf, oneOf, allOf⟩ := schema
  change keywords.typeName = _ at kind
  subst found
  rw [typeOf.eq_def]
  simp only [plain, kind, Bool.false_eq_true, ↓reduceIte]
  cases structName keywords suggested with
  | error failure => cases additional <;> rfl
  | ok name => cases additional <;> rfl

theorem typeOf_map {value : Schema} (shape : schema.emissionShape = .map value) :
    (registry.typeOf suggested schema).result = .map <$> (registry.typeOf suggested value).result := by
  have spec := schema.emissionShape_spec
  simp only [shape] at spec
  obtain ⟨plain, kind, absent, found⟩ := spec
  obtain ⟨keywords, items, _, _, anyOf, oneOf, allOf⟩ := schema
  change keywords.typeName = _ at kind
  subst absent found
  rw [typeOf.eq_def]
  simp only [plain, kind, Bool.false_eq_true, ↓reduceIte, Traced.result_bind]
  rfl

theorem typeOf_array {items : Schema} (shape : schema.emissionShape = .array items) :
    (registry.typeOf suggested schema).result = .array <$> (registry.typeOf suggested items).result := by
  have spec := schema.emissionShape_spec
  simp only [shape] at spec
  obtain ⟨plain, kind, found⟩ := spec
  obtain ⟨keywords, _, properties, additional, anyOf, oneOf, allOf⟩ := schema
  change keywords.typeName = _ at kind
  subst found
  rw [typeOf.eq_def]
  simp only [plain, kind, Bool.false_eq_true, ↓reduceIte, Traced.result_bind]
  rfl

theorem typeOf_incomplete (shape : schema.emissionShape = .incomplete) :
    (registry.typeOf suggested schema).result = .error (.ofProblem .missingItems) := by
  have spec := schema.emissionShape_spec
  simp only [shape] at spec
  obtain ⟨plain, kind, absent⟩ := spec
  obtain ⟨keywords, _, properties, additional, anyOf, oneOf, allOf⟩ := schema
  change keywords.typeName = _ at kind
  subst absent
  rw [typeOf.eq_def]
  simp only [plain, kind, Bool.false_eq_true, ↓reduceIte]
  rfl

/-- Where no name is reserved and no class encloses the scope, a class has the name that its place suggests,
and its own body decides only whether the emission succeeds. -/
theorem emit_struct_agrees {properties : List (Value × Schema)} (unowned : scope.owner = none)
    (unreserved : scope.reserved = []) (shape : schema.emissionShape = .struct properties) :
    Agrees (registry.typeOf suggested schema).result (registry.emit suggested schema scope).result := by
  rw [typeOf_struct shape]
  constructor
  case sameType =>
    intro declared type emitted
    obtain ⟨start, named, rfl, -⟩ := emit_struct_yields shape ⟨emitted, rfl⟩
    have own : scope.ownName start = start := by simp [NamingScope.ownName, unreserved]
    have qualified : scope.qualify start = start := by simp [NamingScope.qualify, unowned]
    rw [named, own, qualified]
    rfl
  case sameFailure =>
    intro failure unnamed
    rw [emit_eq, shape, except_map_error.mp unnamed]
    rfl

theorem emit_agrees (unowned : scope.owner = none) (unreserved : scope.reserved = []) (schema : Schema) :
    Agrees (registry.typeOf suggested schema).result (registry.emit suggested schema scope).result := by
  induction schema using Schema.emissionShape_induction with
  | leaf schema shape =>
      have same : (registry.emit suggested schema scope).result =
          Prod.mk [] <$> (registry.typeOf suggested schema).result := by
        rw [emit_eq, shape]
        exact result_bind_pure
      rw [same]
      exact .of_typed _ []
  | struct schema properties shape _ => exact emit_struct_agrees unowned unreserved shape
  | map schema value shape ih =>
      have same : (registry.emit suggested schema scope).result =
          Prod.map id .map <$> (registry.emit suggested value scope).result := by
        rw [emit_eq, shape]
        exact result_bind_pure
      rw [typeOf_map shape, same]
      exact ih.map .map
  | array schema items shape ih =>
      have same : (registry.emit suggested schema scope).result =
          Prod.map id .array <$> (registry.emit suggested items scope).result := by
        rw [emit_eq, shape]
        exact result_bind_pure
      rw [typeOf_array shape, same]
      exact ih.map .array
  | incomplete schema shape =>
      rw [typeOf_incomplete shape, emit_eq, shape]
      exact .of_typed (.error (.ofProblem .missingItems)) []
  | union schema member shape ih =>
      have spec := schema.emissionShape_spec
      simp only [shape] at spec
      rw [typeOf_union spec.1 (.inl spec.2.1) spec.2.2, emit_eq, shape]
      exact ih

/-- In a fresh scope of a module a schema is emitted with no other type than the one it has, and a schema that
has no type is not emitted, for the same reason. -/
theorem emit_freshScope (registry : Registry) (suggested : Option String) (schema : Schema) :
    (∀ declared type after, Yields (registry.emit suggested schema) {} (declared, type) after →
      (registry.typeOf suggested schema).result = .ok type) ∧
    ∀ failure, (registry.typeOf suggested schema).result = .error failure →
      (registry.emit suggested schema {}).result = .error failure := by
  have agrees : Agrees (registry.typeOf suggested schema).result (registry.emit suggested schema {}).result :=
    emit_agrees rfl rfl schema
  exact ⟨fun declared type _ yields => agrees.sameType declared type yields.1, agrees.sameFailure⟩

def shelves (book : Schema) : Schema where
  keywords := { type := .string "array" }
  items := some {
    keywords := { type := .string "object" }
    additional := .typed { anyOf := some [book] }
  }

def book : Schema where
  keywords := { type := .string "object", title := .string "library book" }
  properties := some [(.string "author", { keywords := { type := .string "object" }, properties := some [] })]

/-- Shelves of books are emitted with the type they have. Shelves of lists without items have none and are not
emitted. -/
theorem shelves_freshScope :
    (∃ declared after, Yields ((Registry.empty none).close.emit none (shelves book)) {}
      (declared, .array (.map (.named none "LibraryBook"))) after ∧
      declared.map (fun own => (own.name, own.inner.map ClassDeclaration.name)) =
        [("LibraryBook", ["Author"])] ∧
      ((Registry.empty none).close.typeOf none (shelves book)).result =
        .ok (.array (.map (.named none "LibraryBook")))) ∧
    ((Registry.empty none).close.typeOf none (shelves { keywords := { type := .string "array" } })).result =
        .error (.ofProblem .missingItems) ∧
      ((Registry.empty none).close.emit none (shelves { keywords := { type := .string "array" } }) {}).result =
        .error (.ofProblem .missingItems) := by
  obtain ⟨declared, after, yields, classes⟩ : ∃ declared after,
      Yields ((Registry.empty none).close.emit none (shelves book)) {}
        (declared, .array (.map (.named none "LibraryBook"))) after ∧
      declared.map (fun own => (own.name, own.inner.map ClassDeclaration.name)) =
        [("LibraryBook", ["Author"])] := ⟨_, _, ⟨rfl, rfl⟩, rfl⟩
  have untyped : ((Registry.empty none).close.typeOf none
      (shelves { keywords := { type := .string "array" } })).result = .error (.ofProblem .missingItems) := rfl
  exact ⟨⟨declared, after, yields, classes, (emit_freshScope _ _ _).1 _ _ _ yields⟩, untyped,
    (emit_freshScope _ _ _).2 _ untyped⟩

end Registry
end OpenApiClient
