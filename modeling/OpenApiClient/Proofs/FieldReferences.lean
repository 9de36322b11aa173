import OpenApiClient.Proofs.ClassBodies
import OpenApiClient.Proofs.References
import OpenApiClient.Proofs.WalkedReferences

/-! The references in the types of fields. A type comes down to one reference at most, which the walk over the
schema meets, and the text of a field spells the class that the reference is for. -/

namespace OpenApiClient

open InScope

def Schema.reference? : Schema → Option Value
  | ⟨keywords, items, properties, additional, anyOf, _, _⟩ =>
      if keywords.isReference then some keywords.reference
      else
        match keywords.typeName with
        | .array =>
            match items with
            | none => none
            | some items => items.reference?
        | .object =>
            match properties, additional with
            | none, .typed value => value.reference?
            | _, _ => none
        | .absent | .other =>
            match anyOf with
            | some [member] => member.reference?
            | _ => none
        | _ => none

namespace Schema

variable {schema inner : Schema}

theorem reference?_struct {properties : List (Value × Schema)} (shape : schema.emissionShape = .struct properties) :
    schema.reference? = none := by
  obtain ⟨plain, kind, found⟩ := emissionShape_struct shape
  obtain ⟨keywords, items, own, additional, anyOf, oneOf, allOf⟩ := schema
  change keywords.typeName = _ at kind
  rw [reference?.eq_def]
  simp_all

theorem Wraps.reference? (wraps : schema.Wraps inner) : schema.reference? = inner.reference? := by
  have spec := schema.emissionShape_spec
  obtain ⟨keywords, items, own, additional, anyOf, oneOf, allOf⟩ := schema
  rw [reference?.eq_def]
  rcases wraps with shape | shape | shape <;> simp only [shape, typeName] at spec <;> simp_all

theorem reference?_meets {reference : Value} (found : schema.reference? = some reference) :
    schema.Meets reference := by
  fun_induction reference? schema with
  | case1 _ _ _ _ _ _ _ isReference =>
      obtain rfl := Option.some.inj found
      exact .own isReference
  | case2 | case5 | case7 | case9 | case10 => cases found
  | case3 _ _ _ _ _ _ plain kind _ ih | case4 _ _ _ _ _ plain kind _ ih | case6 _ _ _ _ _ _ plain kind _ ih
  | case8 _ _ _ _ _ _ plain kind _ ih =>
      exact .part (by simp [walkedParts, plain, kind, AdditionalMembers.schemas]) (ih found)

theorem Wraps.walkedParts (wraps : schema.Wraps inner) : inner ∈ schema.walkedParts := by
  have spec := schema.emissionShape_spec
  cases wraps with
  | map shape =>
      simp only [shape] at spec
      simp [walkedParts_object spec.1 spec.2.1, spec.2.2, AdditionalMembers.schemas]
  | array shape =>
      simp only [shape] at spec
      simp [walkedParts_array spec.1 spec.2.1, spec.2.2]
  | union shape =>
      simp only [shape] at spec
      simp [walkedParts_union spec.1 (.inl spec.2.1), spec.2.2]

theorem Wraps.object? (wraps : schema.Wraps inner) : schema.object? = inner.object? := by
  cases wraps with
  | map shape | array shape | union shape => rw [object?_eq, shape]

/-- Induction from the object that a schema leads to, out through what wraps it. -/
@[elab_as_elim]
theorem object?_induction {object : Schema} {motive : Schema → Prop}
    (struct : ∀ properties, object.emissionShape = .struct properties → motive object)
    (wrapped : ∀ schema inner, schema.Wraps inner → motive inner → motive schema)
    (leads : schema.object? = some object) : motive schema := by
  induction schema using emissionShape_induction with
  | leaf schema shape | incomplete schema shape =>
      rw [object?_eq, shape] at leads
      cases leads
  | struct schema properties shape =>
      rw [object?_eq, shape] at leads
      obtain rfl := Option.some.inj leads
      exact struct properties shape
  | map schema inner shape ih =>
      have wraps : schema.Wraps inner := .map shape
      exact wrapped schema inner wraps (ih (wraps.object?.symm.trans leads))
  | array schema inner shape ih =>
      have wraps : schema.Wraps inner := .array shape
      exact wrapped schema inner wraps (ih (wraps.object?.symm.trans leads))
  | union schema inner shape ih =>
      have wraps : schema.Wraps inner := .union shape
      exact wrapped schema inner wraps (ih (wraps.object?.symm.trans leads))

theorem object?_struct {object : Schema} (leads : schema.object? = some object) :
    ∃ properties, object.emissionShape = .struct properties :=
  object?_induction (fun properties shape => ⟨properties, shape⟩) (fun _ _ _ struct => struct) leads

theorem object?_meets {object : Schema} (leads : schema.object? = some object) {reference : Value}
    (meets : object.Meets reference) : schema.Meets reference :=
  object?_induction (fun _ _ => meets) (fun _ _ wraps met => .part wraps.walkedParts met) leads

theorem object?_property {object : Schema} (leads : schema.object? = some object) {entry : Value × Schema}
    (member : entry ∈ object.properties.getD []) {reference : Value} (meets : entry.2.Meets reference) :
    schema.Meets reference := by
  obtain ⟨properties, shape⟩ := object?_struct leads
  obtain ⟨plain, kind, -⟩ := emissionShape_struct shape
  refine object?_meets leads (.part ?_ meets)
  rw [walkedParts_object plain kind]
  exact List.mem_append_left _ (List.mem_map_of_mem member)

theorem Reaches.meets {object : Schema} (reach : schema.Reaches object) {entry : Value × Schema}
    (member : entry ∈ object.properties.getD []) {reference : Value} (meets : entry.2.Meets reference) :
    schema.Meets reference := by
  induction reach with
  | here leads => exact object?_property leads member meets
  | inside leads among _ ih => exact object?_property leads among (ih member)

end Schema

def Registry.Targets (registry : Registry) (schema : Schema) (located : String × String) : Prop :=
  ∃ reference target, schema.reference? = some reference ∧ registry.resolveValue reference = .ok target ∧
    located = (target.moduleName, target.className)

namespace Registry

variable {registry : Registry}

theorem targets_congr {schema inner : Schema} (same : schema.reference? = inner.reference?)
    (located : String × String) : registry.Targets schema located ↔ registry.Targets inner located := by
  rw [Targets, Targets, same]

theorem not_targets {schema : Schema} (none : schema.reference? = none) (located : String × String) :
    ¬registry.Targets schema located := by
  rintro ⟨reference, target, found, -⟩
  cases none.symm.trans found

theorem imported_none {schema : Schema} {type : TypeExpression} (empty : type.imported = [])
    (none : schema.reference? = none) (located : String × String) :
    located ∈ type.imported ↔ registry.Targets schema located := by
  rw [empty]
  exact iff_of_false List.not_mem_nil (not_targets none located)

theorem typeOf_imported {suggested : Option String} {schema : Schema} {type : TypeExpression}
    (typing : (registry.typeOf suggested schema).result = .ok type) (located : String × String) :
    located ∈ type.imported ↔ registry.Targets schema located := by
  -- Along the arms of the typing: items, values and single members lead on, a reference is the end, and all else
  -- is of no other module.
  fun_induction Registry.typeOf registry suggested schema generalizing type with
  | case1 keywords items properties additional anyOf oneOf allOf reference =>
      obtain ⟨named, found, same⟩ := Traced.bind_ok.mp typing
      obtain rfl := Traced.pure_ok.mp same
      have own : Schema.reference? ⟨keywords, items, properties, additional, anyOf, oneOf, allOf⟩ =
          some keywords.reference := by
        rw [Schema.reference?.eq_def]
        simp only [reference, ↓reduceIte]
      constructor
      · intro member
        exact ⟨_, named, own, found, List.mem_singleton.mp member⟩
      · rintro ⟨other, target, again, resolved, rfl⟩
        obtain rfl := Option.some.inj (own.symm.trans again)
        obtain rfl := Except.ok.inj (found.symm.trans resolved)
        exact List.mem_singleton_self _
  | case2 | case3 =>
      obtain ⟨kind, -, same⟩ := Traced.bind_ok.mp typing
      obtain rfl := Traced.pure_ok.mp same
      exact imported_none rfl (by rw [Schema.reference?.eq_def]; simp_all) located
  | case4 | case5 | case6 | case11 | case14 | case17 =>
      obtain rfl := Traced.pure_ok.mp typing
      exact imported_none rfl (by rw [Schema.reference?.eq_def]; simp_all) located
  | case7 => cases typing
  | case8 keywords properties additional anyOf oneOf allOf reference kind items ih =>
      obtain ⟨element, found, same⟩ := Traced.bind_ok.mp typing
      obtain rfl := Traced.pure_ok.mp same
      exact (ih found).trans (targets_congr (by rw [Schema.reference?.eq_def]; simp_all) located).symm
  | case9 keywords items anyOf oneOf allOf reference kind properties additional =>
      obtain ⟨name, -, rest⟩ := Traced.bind_ok.mp typing
      have empty : type.imported = [] := by
        cases additional with
        | unrestricted =>
            obtain ⟨_, -, same⟩ := Traced.bind_ok.mp rest
            obtain rfl := Traced.pure_ok.mp same
            rfl
        | forbidden | typed =>
            obtain rfl := Traced.pure_ok.mp rest
            rfl
      exact imported_none empty (by rw [Schema.reference?.eq_def]; simp_all) located
  | case10 keywords items anyOf oneOf allOf reference kind value ih =>
      obtain ⟨element, found, same⟩ := Traced.bind_ok.mp typing
      obtain rfl := Traced.pure_ok.mp same
      exact (ih found).trans (targets_congr (by rw [Schema.reference?.eq_def]; simp_all) located).symm
  | case12 keywords items properties additional oneOf allOf reference kind member ih =>
      exact (ih typing).trans (targets_congr (by rw [Schema.reference?.eq_def]; simp_all) located).symm
  | case15 keywords items properties additional oneOf allOf reference kind member ih =>
      exact (ih typing).trans (targets_congr (by rw [Schema.reference?.eq_def]; simp_all) located).symm
  | case13 | case16 =>
      obtain ⟨_, -, same⟩ := Traced.bind_ok.mp typing
      obtain rfl := Traced.pure_ok.mp same
      exact imported_none rfl (by rw [Schema.reference?.eq_def]; simp_all) located

theorem emit_imported {suggested : Option String} {schema : Schema} {scope after : NamingScope}
    {declared : List ClassDeclaration} {type : TypeExpression}
    (yields : Yields (registry.emit suggested schema) scope (declared, type) after) (located : String × String) :
    located ∈ type.imported ↔ registry.Targets schema located := by
  refine registry.emit_induction
    (fun _ schema _ _ type _ => (located ∈ type.imported ↔ registry.Targets schema located))
    (fun _ _ _ _ _ _ _ _ => True) ?leaf ?present ?absent ?map ?array ?union ?done ?property
    suggested schema scope declared type after yields
  case leaf => exact fun _ _ _ _ _ typing => typeOf_imported typing located
  case present =>
    intro _ schema _ _ _ shape _ _
    exact imported_none rfl (Schema.reference?_struct shape) located
  case absent =>
    intro _ schema _ _ _ _ _ _ _ shape _ _ _ _
    exact imported_none rfl (Schema.reference?_struct shape) located
  case map =>
    intro _ schema value _ _ _ _ shape ih
    exact ih.trans (targets_congr (Schema.Wraps.reference? (.map shape)) located).symm
  case array =>
    intro _ schema items _ _ _ _ shape ih
    exact ih.trans (targets_congr (Schema.Wraps.reference? (.array shape)) located).symm
  case union =>
    intro _ schema member _ _ _ _ shape ih
    exact ih.trans (targets_congr (Schema.Wraps.reference? (.union shape)) located).symm
  case done | property => simp

end Registry

/-! The text of a type spells every class that is imported for it. -/

theorem TypeExpression.render_imported {type : TypeExpression} {located : String × String}
    (member : located ∈ type.imported) : located.2.toList <:+: (type.render []).toList := by
  induction type with
  | primitive | freeform | unrepresentable => contradiction
  | named module name =>
      cases module with
      | none => contradiction
      | some module =>
          obtain rfl := List.mem_singleton.mp member
          simp [render]
  | array element ih | map value ih =>
      rw [render, String.toList_append, String.toList_append]
      exact (ih member).trans ⟨_, _, rfl⟩

def FieldDeclaration.Spells (field : FieldDeclaration) (name : String) : Prop :=
  name.toList <:+: field.typeText.toList

theorem FieldDeclaration.spells_imported {field : FieldDeclaration} {located : String × String}
    (member : located ∈ field.type.imported) : field.Spells located.2 := by
  have plain := TypeExpression.render_imported member
  unfold Spells typeText TypeExpression.renderOptional
  dsimp only
  split
  · exact plain
  · split
    · exact plain
    · rw [String.toList_append, String.toList_append]
      exact plain.trans ⟨_, _, rfl⟩

end OpenApiClient
