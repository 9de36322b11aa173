import OpenApiClient.Proofs.AliasCycle
import OpenApiClient.Proofs.Plan

/-! The imports of model modules when they are loaded. Aliases need their targets then, unless they lie on a
cycle with them; no module is led back to itself. -/

namespace OpenApiClient

open Relation

/-- The module of a schema imports that of another when it is loaded. It is the module of an alias: that of a
struct imports for the checking of types alone. -/
def RuntimeImport (document : ApiDocument) (plan : PackagePlan) (source target : String) : Prop :=
  (∃ schema, (.string source, schema) ∈ document.schemas ∧ schema.isStruct = false) ∧
    ∃ model ∈ plan.models, model.schemaName = source ∧ ∃ imported ∈ model.imports, imported.name = target

def AliasCovered (registry : Registry) (named : NamedSchema) (model : ModelModule) : Prop :=
  named.schema.isStruct = false →
    ∃ type hidden, (registry.emitNamed named).result = .ok (model.classes, type) ∧
      model.aliased = some (type.render hidden) ∧
      ∀ located ∈ type.imported, ∃ target,
        registry.get target.name = .ok target ∧ named.schema.references = .ok [target.name] ∧
        located = (target.moduleName, target.className) ∧
        ((TypeExpression.named (some target.moduleName) target.className).render hidden = "Any" ∨
          target ∈ model.imports)

namespace Registry

variable {registry : Registry} {named : NamedSchema} {model : ModelModule}

theorem references_singleton {schema : Schema} {name : String} {names : List String}
    (mentioned : schema.mentions = .ok [name]) (found : schema.references = .ok names) : names = [name] := by
  obtain ⟨_, again, rfl⟩ := except_map_ok.mp found
  obtain rfl := Except.ok.inj (mentioned.symm.trans again)
  rfl

theorem alias_covered (made : (registry.model named).result = .ok model)
    (entered : registry.get named.name = .ok named) : AliasCovered registry named model := by
  intro notStruct
  obtain ⟨type, cycle, emitted, gathered, written, -⟩ := model_ok made
  obtain ⟨names, walked, searched, imported⟩ := modelImports_ok gathered
  obtain ⟨hidden, located, aliased⟩ := aliasText_ok notStruct written
  refine ⟨type, _, emitted, aliased, fun place member => ?_⟩
  unfold emitNamed at emitted
  simp only [notStruct, Bool.false_eq_true, ↓reduceIte] at emitted
  obtain ⟨after, yields⟩ := InScope.inside_ok.mp emitted
  obtain ⟨-, mentioned, walk, -⟩ := references_ok walked
  obtain ⟨name, target, rfl, resolved, rfl⟩ := emit_imported_provided yields walk place member
  obtain rfl := references_singleton walk walked
  obtain rfl := (get_ok resolved).2
  refine ⟨target, resolved, walked, rfl, ?_⟩
  by_cases onCycle : target.name ∈ cycle
  · obtain ⟨other, among, again⟩ := forall₂_of_mem_left located onCycle
    obtain rfl := Except.ok.inj (resolved.symm.trans again)
    have listed : target.className ∈ hidden.map NamedSchema.className := List.mem_map_of_mem among
    exact .inl (by simp [TypeExpression.render, listed])
  · refine .inr ((imported target).mpr ⟨List.mem_singleton_self _, onCycle, fun same => onCycle ?_, resolved⟩)
    -- An alias that refers to itself is a cycle of its own.
    rw [same, resolved] at entered
    obtain rfl := Except.ok.inj entered
    have loop := AliasStep.of_references (searched notStruct) resolved walked (List.mem_singleton_self _)
      resolved notStruct
    exact (aliasCycle_ok (searched notStruct) _).mpr ⟨.single loop, .single loop⟩

end Registry

section

variable {document : ApiDocument} {plan : PackagePlan} {registry : Registry}
  (made : (Registry.ofSchemas (some package) document.schemas).result = .ok registry)
  (modelled : List.Forall₂ (fun named model => (registry.model named).result = .ok model) registry.entries
    plan.models)

include made modelled

theorem RuntimeImport.origin {source target : String} (imports : RuntimeImport document plan source target) :
    ∃ named cycle names other, registry.get source = .ok named ∧ named.schema.isStruct = false ∧
      registry.aliasCycle source = .ok cycle ∧ named.schema.references = .ok names ∧
      registry.get target = .ok other ∧ target ∈ names ∧ target ∉ cycle ∧ source ≠ target := by
  obtain ⟨⟨schema, listed, notStruct⟩, model, member, rfl, imported, among, rfl⟩ := imports
  have entered := Registry.ofSchemas_ok made
  have distinct := Registry.names_nodup document.distinctSchemas entered
  obtain ⟨named, present, done⟩ := forall₂_of_mem_right modelled member
  obtain ⟨type, cycle, -, gathered, -, same, -⟩ := Registry.model_ok done
  obtain ⟨names, walked, searched, members⟩ := Registry.modelImports_ok gathered
  obtain ⟨other, otherPresent, enters⟩ := forall₂_of_mem_left entered listed
  obtain ⟨sameName, rfl⟩ := Prod.mk.inj enters
  have alike : other = named := List.inj_on_of_nodup_map distinct otherPresent present
    ((Value.string.inj sameName).symm.trans same)
  subst alike
  obtain ⟨referred, away, different, resolved⟩ := (members imported).mp among
  rw [same]
  exact ⟨other, cycle, names, imported, Registry.get_of_mem distinct present, notStruct, searched notStruct,
    walked, resolved, referred, away, different⟩

/-- Between aliases an import is a step from alias to alias. -/
theorem RuntimeImport.aliasStep {source target last : String}
    (imports : RuntimeImport document plan source target) (next : RuntimeImport document plan target last) :
    registry.AliasStep source target := by
  obtain ⟨named, cycle, names, other, located, -, searched, walked, resolved, among, -, -⟩ :=
    imports.origin made modelled
  obtain ⟨again, -, -, -, otherLocated, notStruct, -⟩ := next.origin made modelled
  obtain rfl := Except.ok.inj (resolved.symm.trans otherLocated)
  obtain rfl := (Registry.get_ok located).2
  obtain rfl := (Registry.get_ok resolved).2
  exact .of_references searched located walked among resolved notStruct

theorem RuntimeImport.aliasPath {source target last : String}
    (path : TransGen (RuntimeImport document plan) source target)
    (next : RuntimeImport document plan target last) : TransGen registry.AliasStep source target := by
  induction path generalizing last with
  | single first => exact .single (first.aliasStep made modelled next)
  | tail _ imports ih => exact (ih imports).tail (imports.aliasStep made modelled next)

theorem RuntimeImport.acyclic (name : String) : ¬TransGen (RuntimeImport document plan) name name := by
  intro cycle
  obtain ⟨next, first, rest⟩ := TransGen.head'_iff.mp cycle
  obtain ⟨named, own, names, other, -, -, searched, -, -, -, away, different⟩ := first.origin made modelled
  rcases reflTransGen_iff_eq_or_transGen.mp rest with same | back
  · exact different same
  · -- What is imported leads back, so it lies on the cycle of the alias and is left out.
    obtain ⟨second, onward, -⟩ := TransGen.head'_iff.mp back
    exact away ((Registry.aliasCycle_ok searched next).mpr
      ⟨.single (first.aliasStep made modelled onward), RuntimeImport.aliasPath made modelled back first⟩)

end

/-- Loading the model modules of a plan never leads back to one that is being loaded, and every model class in
an alias is imported or written as Any. -/
theorem runtime_imports_acyclic {document : ApiDocument} {package : String} {plan : PackagePlan}
    (planned : (PackagePlan.ofDocument document package).result = .ok plan) :
    (∀ name, ¬TransGen (RuntimeImport document plan) name name) ∧
      ∃ registry, (Registry.ofSchemas (some package) document.schemas).result = .ok registry ∧
        List.Forall₂ (AliasCovered registry) registry.entries plan.models := by
  obtain ⟨registry, groups, services, made, modelled, -⟩ := PackagePlan.ofDocument_ok planned
  have distinct := Registry.names_nodup document.distinctSchemas (Registry.ofSchemas_ok made)
  refine ⟨RuntimeImport.acyclic made modelled, registry, made, ?_⟩
  exact forall₂_imp_of_mem modelled fun named member model done =>
    Registry.alias_covered done (Registry.get_of_mem distinct member)

def listOf (name : String) : Schema where
  keywords := { type := .string "array" }
  items := some { keywords := { reference := .string (schemaReferenceStart ++ name) } }

def mutualLists : ApiDocument where
  title := .string "Lists"
  version := "1"
  schemas := [(.string "Left", listOf "Right"), (.string "Right", listOf "Left"),
    (.string "Batch", listOf "Left")]
  operations := []
  distinctSchemas := by decide +kernel

theorem mutualLists_acyclic :
    ∃ plan, (PackagePlan.ofDocument mutualLists "lists").result = .ok plan ∧
      (plan.models.map fun model => (model.schemaName, model.aliased, model.imports.map NamedSchema.name)) =
        [("Left", some "list[Any]", []), ("Right", some "list[Any]", []),
          ("Batch", some "list[Left]", ["Left"])] ∧
      (∀ name, ¬TransGen (RuntimeImport mutualLists plan) name name) ∧
      ∃ registry, (Registry.ofSchemas (some "lists") mutualLists.schemas).result = .ok registry ∧
        List.Forall₂ (AliasCovered registry) registry.entries plan.models := by
  obtain ⟨plan, planned, modules⟩ : ∃ plan, (PackagePlan.ofDocument mutualLists "lists").result = .ok plan ∧
      (plan.models.map fun model => (model.schemaName, model.aliased, model.imports.map NamedSchema.name)) =
        [("Left", some "list[Any]", []), ("Right", some "list[Any]", []),
          ("Batch", some "list[Left]", ["Left"])] := ⟨_, rfl, rfl⟩
  exact ⟨plan, planned, modules, runtime_imports_acyclic planned⟩

end OpenApiClient
