import OpenApiClient.Package.Plan
import OpenApiClient.Proofs.References
import Mathlib.Data.List.Nodup

/-! The parts of a plan: what a plan that is made was made from. -/

namespace OpenApiClient

namespace Registry

variable {registry : Registry}

def Enters (schema : Value × Schema) (named : NamedSchema) : Prop :=
  schema = (.string named.name, named.schema)

def enter (registry : Registry) (schema : Value × Schema) : Except Malformed NamedSchema := do
  pure (registry.entry (← schema.1.asText) schema.2)

theorem enter_ok {schema : Value × Schema} {named : NamedSchema} (entered : registry.enter schema = .ok named) :
    Enters schema named ∧ registry.entry named.name named.schema = named := by
  obtain ⟨name, read, same⟩ := except_bind_ok.mp entered
  obtain rfl := except_pure_ok.mp same
  exact ⟨Prod.ext (Value.asText_ok.mp read) rfl, rfl⟩

theorem addAll_ok_iff {schemas : List (Value × Schema)} {start : Registry} :
    (start.addAll schemas).result = .ok registry ↔
      ∃ entries, schemas.mapM start.enter = .ok entries ∧
        registry = { start with entries := start.entries ++ entries } := by
  induction schemas generalizing start with
  | nil =>
      simp only [addAll, Traced.pure_ok, List.mapM_nil, except_pure_ok]
      constructor
      · rintro rfl
        exact ⟨[], rfl, by simp⟩
      · rintro ⟨_, rfl, rfl⟩
        simp
  | cons schema rest ih =>
      obtain ⟨key, own⟩ := schema
      simp only [addAll, Traced.bind_ok, Traced.liftMalformed_ok, ih, List.mapM_cons, enter, except_bind_ok,
        except_pure_ok]
      constructor
      · rintro ⟨name, read, _, -, entries, entered, rfl⟩
        exact ⟨start.entry name own :: entries, ⟨_, ⟨name, read, rfl⟩, entries, entered, rfl⟩, by simp⟩
      · rintro ⟨_, ⟨_, ⟨name, read, rfl⟩, entries, entered, rfl⟩, rfl⟩
        exact ⟨name, read, (), rfl, entries, entered, by simp⟩

theorem ofSchemas_ok_iff {package : Option String} {schemas : List (Value × Schema)} :
    (ofSchemas package schemas).result = .ok registry ↔
      ∃ entries, schemas.mapM (empty package).enter = .ok entries ∧ registry = ⟨package, entries, true⟩ := by
  simp only [ofSchemas, Traced.map_ok, addAll_ok_iff]
  constructor
  · rintro ⟨_, ⟨entries, entered, rfl⟩, rfl⟩
    exact ⟨entries, entered, rfl⟩
  · rintro ⟨entries, entered, rfl⟩
    exact ⟨_, ⟨entries, entered, rfl⟩, rfl⟩

theorem ofSchemas_parts {package : Option String} {schemas : List (Value × Schema)}
    (made : (ofSchemas package schemas).result = .ok registry) :
    registry.package = package ∧ List.Forall₂ (fun schema named =>
      Enters schema named ∧ (Registry.empty package).entry named.name named.schema = named) schemas
      registry.entries := by
  obtain ⟨entries, entered, rfl⟩ := ofSchemas_ok_iff.mp made
  exact ⟨rfl, ((mapM_ok_iff _ _ _).mp entered).imp fun _ _ => enter_ok⟩

theorem ofSchemas_ok {package : Option String} {schemas : List (Value × Schema)}
    (made : (ofSchemas package schemas).result = .ok registry) :
    List.Forall₂ Enters schemas registry.entries :=
  (ofSchemas_parts made).2.imp fun _ _ both => both.1

theorem ofSchemas_entry {package : Option String} {schemas : List (Value × Schema)}
    (made : (ofSchemas package schemas).result = .ok registry) :
    ∀ named ∈ registry.entries, registry.entry named.name named.schema = named := by
  intro named member
  obtain ⟨packaged, pairs⟩ := ofSchemas_parts made
  obtain ⟨schema, -, -, same⟩ := forall₂_of_mem_right pairs member
  unfold entry at same ⊢
  rwa [packaged]

theorem ofSchemas_named {package : Option String} {schemas : List (Value × Schema)}
    (made : (ofSchemas package schemas).result = .ok registry) {named : NamedSchema}
    (member : named ∈ registry.entries) :
    named.className = Naming.className named.name ∧
      named.moduleName = Naming.modelModuleIn package named.name := by
  have packaged := (ofSchemas_parts made).1
  rw [← ofSchemas_entry made named member]
  unfold entry
  dsimp only
  rw [packaged]
  exact ⟨rfl, rfl⟩

theorem names_nodup {schemas : List (Value × Schema)} {entries : List NamedSchema}
    (distinct : Entries.Distinct Value.same schemas) (pairs : List.Forall₂ Enters schemas entries) :
    (entries.map NamedSchema.name).Nodup := by
  induction pairs with
  | nil => exact List.nodup_nil
  | @cons schema named rest others first pairs ih =>
      obtain ⟨apart, distinct⟩ := List.pairwise_cons.mp distinct
      refine List.nodup_cons.mpr ⟨fun member => ?_, ih distinct⟩
      obtain ⟨other, among, same⟩ := List.mem_map.mp member
      obtain ⟨later, laterAmong, entered⟩ := forall₂_of_mem_right pairs among
      have different := apart later laterAmong
      rw [first, entered] at different
      simp [Value.same, same] at different

theorem get_of_mem (distinct : (registry.entries.map NamedSchema.name).Nodup) {named : NamedSchema}
    (member : named ∈ registry.entries) : registry.get named.name = .ok named := by
  cases found : registry.find? named.name with
  | none =>
      have absent := List.find?_eq_none.mp found named member
      simp at absent
  | some other =>
      have located : registry.get named.name = .ok other := by simp [get, found]
      obtain ⟨among, same⟩ := get_ok located
      rw [located, List.inj_on_of_nodup_map distinct among member same]

theorem imports_ok {names : List String} {except : Option String} {imported : List NamedSchema}
    (found : registry.imports names except = .ok imported) (named : NamedSchema) :
    named ∈ imported ↔
      named.name ∈ names ∧ except ≠ some named.name ∧ registry.get named.name = .ok named := by
  have pairs := (mapM_ok_iff _ _ _).mp found
  constructor
  · intro member
    obtain ⟨name, among, located⟩ := forall₂_of_mem_right pairs member
    obtain rfl := (get_ok located).2
    simp only [List.mem_filter, mem_sortedNames, bne_iff_ne] at among
    exact ⟨among.1, among.2, located⟩
  · rintro ⟨among, kept, located⟩
    have listed : named.name ∈ (sortedNames names).filter fun name => except != some name := by
      simp only [List.mem_filter, mem_sortedNames, bne_iff_ne]
      exact ⟨among, kept⟩
    obtain ⟨other, member, again⟩ := forall₂_of_mem_left pairs listed
    rwa [Except.ok.inj (located.symm.trans again)]

/-- A struct imports all that it refers to, and an alias what lies on no cycle with it. -/
theorem modelImports_ok_iff {named : NamedSchema} {imported : List NamedSchema} {cycle : List String} :
    registry.modelImports named = .ok (imported, cycle) ↔
      ∃ names, named.schema.references = .ok names ∧
        (if named.schema.isStruct then .ok [] else registry.aliasCycle named.name) = .ok cycle ∧
        registry.imports (names.filter fun name => !cycle.contains name) (some named.name) = .ok imported := by
  rw [modelImports, except_bind_ok]
  refine exists_congr fun names => and_congr_right fun _ => ?_
  have gathers (search : Except Failure (List String)) :
      (do
        let own ← search
        let imports ← registry.imports (names.filter fun name => !own.contains name) (some named.name)
        pure (imports, own)) = Except.ok (imported, cycle) ↔
      search = .ok cycle ∧
        registry.imports (names.filter fun name => !cycle.contains name) (some named.name) = .ok imported := by
    simp only [except_bind_ok, except_pure_ok, Prod.mk.injEq]
    constructor
    · rintro ⟨own, searched, imports, gathered, rfl, rfl⟩
      exact ⟨searched, gathered⟩
    · rintro ⟨searched, gathered⟩
      exact ⟨cycle, searched, imported, gathered, rfl, rfl⟩
  dsimp only
  split
  · exact gathers (.ok [])
  · exact gathers (registry.aliasCycle named.name)

/-- What the imports of a model leave out: the model itself and, for an alias, the aliases on a cycle with
it. -/
theorem modelImports_ok {named : NamedSchema} {imported : List NamedSchema} {cycle : List String}
    (found : registry.modelImports named = .ok (imported, cycle)) :
    ∃ names, named.schema.references = .ok names ∧
      (named.schema.isStruct = false → registry.aliasCycle named.name = .ok cycle) ∧
      ∀ other, other ∈ imported ↔
        other.name ∈ names ∧ other.name ∉ cycle ∧ named.name ≠ other.name ∧
          registry.get other.name = .ok other := by
  obtain ⟨names, walked, searched, gathered⟩ := modelImports_ok_iff.mp found
  refine ⟨names, walked, fun notStruct => ?_, fun other => ?_⟩
  · simpa only [notStruct, Bool.false_eq_true, ↓reduceIte] using searched
  · rw [imports_ok gathered]
    simp [and_assoc]

/-- A model is made exactly when its classes are emitted, its imports are found and its texts are written. -/
theorem model_ok_iff {named : NamedSchema} {model : ModelModule} :
    (registry.model named).result = .ok model ↔
      ∃ classes type imports cycle aliased lines,
        (registry.emitNamed named).result = .ok (classes, type) ∧
        registry.modelImports named = .ok (imports, cycle) ∧
        (registry.aliasText named type cycle).result = .ok aliased ∧
        named.schema.keywords.description.wrapped 80 = .ok lines ∧
        model = ⟨named.name, named.moduleName, named.className, lines, classes, aliased, imports⟩ := by
  unfold Registry.model
  simp only [Traced.bind_ok, Traced.mapFailure_ok, Traced.pure_ok, Traced.lift_ok, Traced.liftMalformed_ok]
  constructor
  · rintro ⟨_, ⟨⟨classes, type⟩, emitted, ⟨imports, cycle⟩, gathered, rfl⟩, aliased, written, lines, wrapped,
      rfl⟩
    exact ⟨classes, type, imports, cycle, aliased, lines, emitted, gathered, written, wrapped, rfl⟩
  · rintro ⟨classes, type, imports, cycle, aliased, lines, emitted, gathered, written, wrapped, rfl⟩
    exact ⟨_, ⟨(classes, type), emitted, (imports, cycle), gathered, rfl⟩, aliased, written, lines, wrapped,
      rfl⟩

theorem model_ok {named : NamedSchema} {model : ModelModule}
    (made : (registry.model named).result = .ok model) :
    ∃ type cycle, (registry.emitNamed named).result = .ok (model.classes, type) ∧
      registry.modelImports named = .ok (model.imports, cycle) ∧
      (registry.aliasText named type cycle).result = .ok model.aliased ∧ model.schemaName = named.name ∧
      model.moduleName = named.moduleName ∧ model.className = named.className := by
  obtain ⟨_, type, _, cycle, _, _, emitted, gathered, written, -, rfl⟩ := model_ok_iff.mp made
  exact ⟨type, cycle, emitted, gathered, written, rfl, rfl, rfl⟩

theorem aliasText_ok {named : NamedSchema} {type : TypeExpression} {cycle : List String}
    {aliased : Option String} (notStruct : named.schema.isStruct = false)
    (written : (registry.aliasText named type cycle).result = .ok aliased) :
    ∃ hidden, List.Forall₂ (fun name other => registry.get name = .ok other) cycle hidden ∧
      aliased = some (type.render (hidden.map NamedSchema.className)) := by
  unfold aliasText at written
  simp only [notStruct, Bool.false_eq_true, ↓reduceIte] at written
  obtain ⟨hidden, located, same⟩ : ∃ hidden, cycle.mapM registry.get = .ok hidden ∧
      some (type.render (hidden.map NamedSchema.className)) = aliased := by
    split at written
    · obtain ⟨_, -, written⟩ := Traced.bind_ok.mp written
      obtain ⟨hidden, located, same⟩ := Traced.bind_ok.mp written
      exact ⟨hidden, Traced.lift_ok.mp located, Traced.pure_ok.mp same⟩
    · obtain ⟨hidden, located, same⟩ := Traced.bind_ok.mp written
      exact ⟨hidden, Traced.lift_ok.mp located, Traced.pure_ok.mp same⟩
  exact ⟨hidden, (mapM_ok_iff _ _ _).mp located, same.symm⟩

end Registry

namespace PackagePlan

/-- A plan is made exactly when all of its parts are, each from its part of the document. -/
theorem ofDocument_ok_iff {document : ApiDocument} {package : String} {plan : PackagePlan} :
    (ofDocument document package).result = .ok plan ↔
      ∃ registry models groups services security titleLines server,
        (Registry.ofSchemas (some package) document.schemas).result = .ok registry ∧
        (registry.entries.mapM registry.model).result = .ok models ∧
        groupOperations document.operations = .ok groups ∧
        (groups.mapM (OperationContext.service ⟨registry, !document.security.isEmpty⟩)).result = .ok services ∧
        (configurators (document.securitySchemes.map Prod.snd)).result = .ok security ∧
        document.title.wrapped 80 = .ok titleLines ∧
        (chooseServer document.servers).result = .ok server ∧
        plan = ⟨package, document.title, document.version, titleLines, models, separateModules services,
          security, server⟩ := by
  unfold ofDocument
  simp only [Traced.bind_ok, Traced.liftMalformed_ok, Traced.mapFailure_ok, Traced.pure_ok]
  constructor
  · rintro ⟨registry, made, models, modelled, groups, grouped, services, served, security, secured, _, -,
      titleLines, titled, server, chosen, rfl⟩
    exact ⟨registry, models, groups, services, security, titleLines, server, made, modelled, grouped, served,
      secured, titled, chosen, rfl⟩
  · rintro ⟨registry, models, groups, services, security, titleLines, server, made, modelled, grouped, served,
      secured, titled, chosen, rfl⟩
    exact ⟨registry, made, models, modelled, groups, grouped, services, served, security, secured, (), rfl,
      titleLines, titled, server, chosen, rfl⟩

theorem ofDocument_ok {document : ApiDocument} {package : String} {plan : PackagePlan}
    (planned : (ofDocument document package).result = .ok plan) :
    ∃ registry groups services,
      (Registry.ofSchemas (some package) document.schemas).result = .ok registry ∧
      List.Forall₂ (fun named model => (registry.model named).result = .ok model) registry.entries
        plan.models ∧
      groupOperations document.operations = .ok groups ∧
      List.Forall₂ (fun group service =>
        (OperationContext.service ⟨registry, !document.security.isEmpty⟩ group).result = .ok service)
        groups services ∧
      plan.services = separateModules services := by
  obtain ⟨registry, models, groups, services, _, _, _, made, modelled, grouped, served, -, -, -, rfl⟩ :=
    ofDocument_ok_iff.mp planned
  exact ⟨registry, groups, services, made, (Traced.mapM_ok_iff _ _ _).mp modelled, grouped,
    (Traced.mapM_ok_iff _ _ _).mp served, rfl⟩

theorem model_entry {document : ApiDocument} {package : String} {plan : PackagePlan}
    (planned : (ofDocument document package).result = .ok plan) {model : ModelModule}
    (member : model ∈ plan.models) {schema : Schema}
    (named : (.string model.schemaName, schema) ∈ document.schemas) :
    ∃ registry entry, (Registry.ofSchemas (some package) document.schemas).result = .ok registry ∧
      entry ∈ registry.entries ∧ (registry.model entry).result = .ok model ∧ entry.schema = schema := by
  obtain ⟨registry, _, _, made, modelled, -⟩ := ofDocument_ok planned
  obtain ⟨entry, among, done⟩ := forall₂_of_mem_right modelled member
  obtain ⟨_, _, -, -, -, schemaName, -⟩ := Registry.model_ok done
  obtain ⟨other, otherAmong, enters⟩ := forall₂_of_mem_left (Registry.ofSchemas_ok made) named
  obtain ⟨name, rfl⟩ := Prod.mk.inj enters
  have distinct := Registry.names_nodup document.distinctSchemas (Registry.ofSchemas_ok made)
  obtain rfl := List.inj_on_of_nodup_map distinct otherAmong among
    ((Value.string.inj name).symm.trans schemaName)
  exact ⟨registry, other, made, among, done, rfl⟩

theorem model_schema {document : ApiDocument} {package : String} {plan : PackagePlan}
    (planned : (ofDocument document package).result = .ok plan) {model : ModelModule}
    (member : model ∈ plan.models) : ∃ schema, (.string model.schemaName, schema) ∈ document.schemas := by
  obtain ⟨registry, _, _, made, modelled, -⟩ := ofDocument_ok planned
  obtain ⟨entry, among, done⟩ := forall₂_of_mem_right modelled member
  obtain ⟨_, _, -, -, -, schemaName, -⟩ := Registry.model_ok done
  obtain ⟨pair, known, rfl⟩ := forall₂_of_mem_right (Registry.ofSchemas_ok made) among
  exact ⟨entry.schema, schemaName ▸ known⟩

theorem schema_model {document : ApiDocument} {package : String} {plan : PackagePlan}
    (planned : (ofDocument document package).result = .ok plan) {name : String} {schema : Schema}
    (named : (.string name, schema) ∈ document.schemas) : ∃ model ∈ plan.models, model.schemaName = name := by
  obtain ⟨registry, _, _, made, modelled, -⟩ := ofDocument_ok planned
  obtain ⟨entry, among, enters⟩ := forall₂_of_mem_left (Registry.ofSchemas_ok made) named
  obtain ⟨model, member, done⟩ := forall₂_of_mem_left modelled among
  obtain ⟨_, _, -, -, -, schemaName, -⟩ := Registry.model_ok done
  exact ⟨model, member, schemaName.trans (Value.string.inj (Prod.mk.inj enters).1).symm⟩

theorem ofDocument_package {document : ApiDocument} {package : String} {plan : PackagePlan}
    (planned : (ofDocument document package).result = .ok plan) : plan.package = package := by
  obtain ⟨_, _, _, _, _, _, _, -, -, -, -, -, -, -, rfl⟩ := ofDocument_ok_iff.mp planned
  rfl

end PackagePlan
end OpenApiClient
