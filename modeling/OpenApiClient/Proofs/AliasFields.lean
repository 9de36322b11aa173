import OpenApiClient.Proofs.AliasClasses
import OpenApiClient.Proofs.FieldReferences
import OpenApiClient.Proofs.ModelClasses

/-! The fields of the classes beside an alias. The module of an alias leaves out the aliases on a cycle with it from
its imports. In the text of the alias they are hidden, in those of the fields they are not. -/

namespace OpenApiClient

open InScope Relation

def ModelModule.Declares (model : ModelModule) (own : ClassDeclaration) : Prop :=
  ∃ top ∈ model.classes, top.Holds own

def ModelModule.Knows (model : ModelModule) (located : String × String) : Prop :=
  located = (model.moduleName, model.className) ∨ ImportedBy model.imports located

/-- The module knows every class of another module that the text of a field spells. -/
def ModelModule.FieldsKnown (model : ModelModule) : Prop :=
  ∀ own, model.Declares own → ∀ field ∈ own.fields, ∀ located ∈ field.type.imported,
    field.Spells located.2 → model.Knows located

def ClassDeclaration.TypedBy (registry : Registry) (own : ClassDeclaration) (object : Schema) : Prop :=
  List.Forall₂ (fun entry field => ∀ located, located ∈ field.type.imported ↔ registry.Targets entry.2 located)
    (object.properties.getD []) own.fields

namespace Registry

variable {registry : Registry} {suggested : Option String} {schema : Schema} {scope after : NamingScope}
  {declared : List ClassDeclaration} {type : TypeExpression}

structure BodyTyped (registry : Registry) (properties : List (Value × Schema)) (inner : List ClassDeclaration)
    (fields : List FieldDeclaration) : Prop where
  fields : List.Forall₂ (fun entry field =>
    ∀ located, located ∈ field.type.imported ↔ registry.Targets entry.2 located) properties fields
  inner : DescribedFrom (ClassDeclaration.TypedBy registry)
    (fun object => ∃ entry ∈ properties, entry.2.Reaches object) inner

/-- Every class that is declared has the types of the properties of an object that the schema reaches. -/
theorem emit_typed (yields : Yields (registry.emit suggested schema) scope (declared, type) after) :
    DescribedFrom (ClassDeclaration.TypedBy registry) schema.Reaches declared := by
  refine registry.emit_induction
    (fun _ schema _ declared _ _ => DescribedFrom (ClassDeclaration.TypedBy registry) schema.Reaches declared)
    (fun _ _ names properties _ inner fields _ => names.length = properties.length →
      registry.BodyTyped properties inner fields)
    ?leaf ?present ?absent ?map ?array ?union ?done ?property
    suggested schema scope declared type after yields
  case leaf | present =>
    intros
    exact .nil
  case absent =>
    intro _ schema properties _ _ _ _ _ _ shape _ _ found body
    obtain ⟨-, -, given⟩ := Schema.emissionShape_struct shape
    obtain rfl : schema.properties.getD [] = properties := by rw [given, Option.getD_some]
    have self : schema.object? = some schema := by rw [schema.object?_eq, shape]
    have typed := body (fieldNames_length found)
    exact .single (.here self) typed.fields (typed.inner.inside self)
  case map | array | union =>
    intro _ schema inner _ _ _ _ shape ih
    exact ih.of_inner (by rw [schema.object?_eq, shape])
  case done =>
    intro _ _ names properties _ finished count
    obtain rfl := properties_eq_nil finished count
    exact ⟨.nil, .nil⟩
  case property =>
    intro _ _ _ _ _ _ _ _ _ _ _ _ _ _ emitted first ih count
    have later := ih (Nat.succ.inj count)
    exact ⟨.cons (emit_imported emitted) later.fields, first.property later.inner⟩

theorem modelImports_meets {named target : NamedSchema} {imports : List NamedSchema} {cycle : List String}
    {reference : Value} (distinct : (registry.entries.map NamedSchema.name).Nodup)
    (among : named ∈ registry.entries) (gathered : registry.modelImports named = .ok (imports, cycle))
    (notStruct : named.schema.isStruct = false) (meets : named.schema.Meets reference)
    (resolved : registry.resolveValue reference = .ok target) :
    (TransGen registry.AliasStep named.name target.name ∧ TransGen registry.AliasStep target.name named.name) ∨
      named = target ∨ target ∈ imports := by
  obtain ⟨names, walked, searched, imported⟩ := modelImports_ok gathered
  obtain ⟨name, written, located⟩ := resolveValue_ok_iff.mp resolved
  obtain ⟨present, rfl⟩ := get_ok located
  obtain ⟨-, mentioned, walks, listed⟩ := references_ok walked
  have mentions : target.name ∈ names :=
    (listed _).mpr ((Schema.mem_mentions walks _).mpr ⟨reference, meets, written⟩)
  by_cases onCycle : target.name ∈ cycle
  case pos => exact .inl ((aliasCycle_ok (searched notStruct) target.name).mp onCycle)
  case neg =>
    by_cases self : named.name = target.name
    case pos => exact .inr (.inl (List.inj_on_of_nodup_map distinct among present self))
    case neg => exact .inr (.inr ((imported target).mpr ⟨mentions, onCycle, self, located⟩))

end Registry

namespace PackagePlan

variable {document : ApiDocument} {package : String} {plan : PackagePlan}

/-- Every class beside an alias, at any depth, has the types of the properties of an object that the schema reaches.
The module knows the classes that its fields spell exactly when it knows those of the aliases on a cycle with it. -/
theorem alias_fieldsKnown_iff (planned : (ofDocument document package).result = .ok plan) {model : ModelModule}
    (member : model ∈ plan.models) {schema : Schema}
    (named : (.string model.schemaName, schema) ∈ document.schemas) (notStruct : schema.isStruct = false) :
    ∃ registry, (Registry.ofSchemas (some package) document.schemas).result = .ok registry ∧
      (∀ own, model.Declares own → ∃ object, schema.Reaches object ∧ own.TypedBy registry object) ∧
      (model.FieldsKnown ↔
        ∀ own object, model.Declares own → schema.Reaches object → own.TypedBy registry object →
          ∀ entry ∈ object.properties.getD [], ∀ reference target, entry.2.reference? = some reference →
            registry.resolveValue reference = .ok target →
            TransGen registry.AliasStep model.schemaName target.name →
            TransGen registry.AliasStep target.name model.schemaName →
            model.Knows (target.moduleName, target.className)) := by
  obtain ⟨registry, entry, made, among, done, rfl⟩ := model_entry planned member named
  obtain ⟨type, cycle, emitted, gathered, -, schemaName, moduleName, className⟩ := Registry.model_ok done
  obtain ⟨after, yields⟩ := Registry.emitNamed_yields notStruct emitted
  have typed : ∀ own, model.Declares own →
      ∃ object, entry.schema.Reaches object ∧ own.TypedBy registry object := by
    rintro own ⟨top, within, holds⟩
    exact Registry.emit_typed yields top within own holds
  refine ⟨registry, made, typed, ?_⟩
  constructor
  · intro known own object declares _ describes property within reference target found resolved _ _
    obtain ⟨field, fieldMember, same⟩ := forall₂_of_mem_left describes within
    have occurs := (same (target.moduleName, target.className)).mpr ⟨reference, target, found, resolved, rfl⟩
    exact known own declares field fieldMember _ occurs (FieldDeclaration.spells_imported occurs)
  · -- The reference behind a field is met by the walk, so only a cycle can keep its class from the imports.
    intro cyclic own declares field fieldMember located occurs _
    obtain ⟨object, reach, describes⟩ := typed own declares
    obtain ⟨property, within, same⟩ := forall₂_of_mem_right describes fieldMember
    obtain ⟨reference, target, found, resolved, rfl⟩ := (same located).mp occurs
    have meets : entry.schema.Meets reference := reach.meets within (Schema.reference?_meets found)
    have distinct := Registry.names_nodup document.distinctSchemas (Registry.ofSchemas_ok made)
    rcases Registry.modelImports_meets distinct among gathered notStruct meets resolved with
      ⟨forth, back⟩ | rfl | others
    · rw [← schemaName] at forth back
      exact cyclic own object declares reach describes property within reference target found resolved forth back
    · exact .inl (by rw [moduleName, className])
    · exact .inr ⟨target, others, rfl⟩

end PackagePlan

def posts : Schema where
  keywords := { type := .string "array" }
  items := some {
    keywords := { type := .string "object", title := .string "Post" }
    properties := some [(.string "replies", referenceTo "Replies")] }

def threadDocument (reply : Schema) : ApiDocument where
  title := .string "Forum"
  version := "1"
  schemas := [
    (.string "Thread", posts),
    (.string "Replies", { keywords := { type := .string "array" }, items := some reply })]
  operations := []
  distinctSchemas := by
    simp [Entries.Distinct, Value.same]

def replyText : Schema where
  keywords := { type := .string "string" }

set_option maxRecDepth 4000 in
theorem threadDocument_known :
    ∃ plan model last, (PackagePlan.ofDocument (threadDocument replyText) "forum").result = .ok plan ∧
      plan.models = [model, last] ∧ model.schemaName = "Thread" ∧
      model.classes.map (fun own => (own.name, own.fields.map FieldDeclaration.typeText)) =
        [("Post", ["Optional[Replies]"])] ∧
      model.imports.map NamedSchema.className = ["Replies"] ∧ model.FieldsKnown := by
  obtain ⟨plan, model, last, planned, models, name, classes, imports⟩ : ∃ plan model last,
      (PackagePlan.ofDocument (threadDocument replyText) "forum").result = .ok plan ∧
        plan.models = [model, last] ∧ model.schemaName = "Thread" ∧
        model.classes.map (fun own => (own.name, own.fields.map FieldDeclaration.typeText)) =
          [("Post", ["Optional[Replies]"])] ∧
        model.imports.map NamedSchema.className = ["Replies"] :=
    ⟨_, _, _, rfl, rfl, rfl, by decide +kernel, by decide +kernel⟩
  have member : model ∈ plan.models := by simp [models]
  have named : (.string model.schemaName, posts) ∈ (threadDocument replyText).schemas := by
    simp [name, threadDocument]
  obtain ⟨registry, made, -, known⟩ := PackagePlan.alias_fieldsKnown_iff planned member named rfl
  refine ⟨plan, model, last, planned, models, name, classes, imports, known.mpr ?_⟩
  intro own object _ _ _ entry _ reference target _ _ forth back
  -- No alias is on a cycle with the threads.
  have searched : registry.aliasCycle "Thread" = .ok [] := by
    cases made
    rfl
  rw [name] at forth back
  exact absurd ((Registry.aliasCycle_ok searched target.name).mpr ⟨forth, back⟩) List.not_mem_nil

set_option maxRecDepth 4000 in
/-- Replies that are lists of threads are left out of the imports of the threads, whose posts name them. -/
theorem threadDocument_unknown :
    ∃ plan model last, (PackagePlan.ofDocument (threadDocument (referenceTo "Thread")) "forum").result = .ok plan ∧
      plan.models = [model, last] ∧ model.schemaName = "Thread" ∧
      (.string model.schemaName, posts) ∈ (threadDocument (referenceTo "Thread")).schemas ∧
      posts.isStruct = false ∧
      model.classes.map (fun own => (own.name, own.fields.map FieldDeclaration.typeText)) =
        [("Post", ["Optional[Replies]"])] ∧
      model.imports = [] ∧ ¬model.FieldsKnown := by
  obtain ⟨plan, model, last, planned, models, name, classes, located, imports, className⟩ : ∃ plan model last,
      (PackagePlan.ofDocument (threadDocument (referenceTo "Thread")) "forum").result = .ok plan ∧
        plan.models = [model, last] ∧ model.schemaName = "Thread" ∧
        model.classes.map (fun own => (own.name, own.fields.map FieldDeclaration.typeText)) =
          [("Post", ["Optional[Replies]"])] ∧
        model.classes.map (fun own => own.fields.map fun field => field.type.imported) =
          [[[("forum.model.replies", "Replies")]]] ∧
        model.imports = [] ∧ model.className = "Thread" :=
    ⟨_, _, _, rfl, rfl, rfl, by decide +kernel, by decide +kernel, rfl, rfl⟩
  refine ⟨plan, model, last, planned, models, name, by simp [name, threadDocument], rfl, classes, imports, ?_⟩
  intro known
  have member : [[("forum.model.replies", "Replies")]] ∈
      model.classes.map (fun own => own.fields.map fun field => field.type.imported) := by simp [located]
  obtain ⟨own, among, fields⟩ := List.mem_map.mp member
  have typed : [("forum.model.replies", "Replies")] ∈ own.fields.map fun field => field.type.imported := by
    simp [fields]
  obtain ⟨field, fieldMember, type⟩ := List.mem_map.mp typed
  have occurs : ("forum.model.replies", "Replies") ∈ field.type.imported := by simp [type]
  have spells := FieldDeclaration.spells_imported occurs
  rcases known own ⟨own, among, .self own⟩ field fieldMember _ occurs spells with self | ⟨other, within, -⟩
  · rw [className] at self
    exact absurd (Prod.mk.inj self).2 (by decide)
  · rw [imports] at within
    contradiction

end OpenApiClient
