import OpenApiClient.Proofs.ClassBodies
import OpenApiClient.Proofs.ShadowedNames

/-! The classes beside an alias. They are called by their titles or by the alias; the name of the alias itself is
kept apart, the names of the models that its module imports are not. -/

namespace OpenApiClient

open InScope

def besideName (taken start : String) : String := if start = taken then start ++ "_" else start

def ModelModule.ShadowsNothing (model : ModelModule) : Prop :=
  ∀ own ∈ model.classes, own.name ≠ model.className ∧ ∀ other ∈ model.imports, own.name ≠ other.className

/-- What a schema that is no struct leads to in its module: the class for its items starts from the name. -/
def ModelModule.ItemsFrom (model : ModelModule) (schema : Schema) (start : String) : Prop :=
  ∃ object, schema.LeadsTo (some (model.className ++ "Item")) object start

theorem besideName_ne (taken start : String) : besideName taken start ≠ taken := by
  unfold besideName
  split
  case isTrue same =>
    rw [same]
    intro longer
    simpa using congrArg String.length longer
  case isFalse other => exact other

namespace Naming

theorem className_not_reserved (schemaName : String) :
    isReservedClassName (className schemaName) = false := by
  by_contra reserved
  have known := isReservedClassName_iff.mp (Bool.eq_true_of_not_eq_false reserved)
  rw [className_eq] at known
  split at known
  case isTrue => exact reservedClassNames_closed _ known (by simp [EndsOpen])
  case isFalse free => exact free (isReservedClassName_iff.mpr known)

theorem className_ne_underscored (schemaName other : String) :
    className schemaName ≠ className other ++ "_" := by
  intro same
  obtain ⟨name, reserved⟩ := className_open same
  rw [← name, className_not_reserved] at reserved
  exact Bool.false_ne_true reserved

end Naming

namespace Registry

variable {registry : Registry} {named : NamedSchema} {declared : List ClassDeclaration} {type : TypeExpression}

theorem emitNamed_yields (notStruct : named.schema.isStruct = false)
    (emitted : (registry.emitNamed named).result = .ok (declared, type)) :
    ∃ after, Yields (registry.emit (some (named.className ++ "Item")) named.schema)
      (NamingScope.reserve [named.className] {}) (declared, type) after := by
  unfold emitNamed at emitted
  rw [if_neg (by simp [notStruct])] at emitted
  exact inside_ok.mp emitted

theorem emitNamed_names (notStruct : named.schema.isStruct = false)
    (emitted : (registry.emitNamed named).result = .ok (declared, type)) (name : String) :
    name ∈ declared.map ClassDeclaration.name ↔
      ∃ object start, named.schema.LeadsTo (some (named.className ++ "Item")) object start ∧
        name = besideName named.className start := by
  obtain ⟨after, yields⟩ := emitNamed_yields notStruct emitted
  have names := emit_names yields name
  have empty : name ∉ (NamingScope.reserve [named.className] {}).names := List.not_mem_nil
  rw [(emit_grows yields).names, List.mem_append, or_iff_right empty, or_iff_right empty] at names
  simp only [names, NamingScope.ownName_eq, NamingScope.mem_reserve, List.mem_singleton, List.not_mem_nil,
    or_false, besideName]

end Registry

namespace PackagePlan

variable {document : ApiDocument} {package : String} {plan : PackagePlan}

theorem alias_names (planned : (ofDocument document package).result = .ok plan) {model : ModelModule}
    (member : model ∈ plan.models) {schema : Schema}
    (named : (.string model.schemaName, schema) ∈ document.schemas) (notStruct : schema.isStruct = false)
    (name : String) :
    name ∈ model.classes.map ClassDeclaration.name ↔
      ∃ start, model.ItemsFrom schema start ∧ name = besideName model.className start := by
  obtain ⟨registry, entry, -, -, done, rfl⟩ := model_entry planned member named
  obtain ⟨type, cycle, emitted, -, -, -, -, className⟩ := Registry.model_ok done
  rw [Registry.emitNamed_names notStruct emitted]
  simp only [ModelModule.ItemsFrom, className]
  exact ⟨fun ⟨object, start, leads, same⟩ => ⟨start, ⟨object, leads⟩, same⟩,
    fun ⟨start, ⟨object, leads⟩, same⟩ => ⟨object, start, leads, same⟩⟩

theorem model_classNames (planned : (ofDocument document package).result = .ok plan) {model : ModelModule}
    (member : model ∈ plan.models) :
    model.className = Naming.className model.schemaName ∧
      ∀ other ∈ model.imports, other.className = Naming.className other.name := by
  obtain ⟨registry, _, _, made, modelled, -⟩ := ofDocument_ok planned
  obtain ⟨entry, among, done⟩ := forall₂_of_mem_right modelled member
  obtain ⟨_, _, -, gathered, -, schemaName, -, className⟩ := Registry.model_ok done
  obtain ⟨_, -, -, imported⟩ := Registry.modelImports_ok gathered
  refine ⟨?_, fun other within => ?_⟩
  · rw [className, schemaName]
    exact (Registry.ofSchemas_named made among).1
  · obtain ⟨-, -, -, located⟩ := (imported other).mp within
    exact (Registry.ofSchemas_named made (Registry.get_ok located).1).1

/-- No class beside an alias has its name. One has the name of an imported model exactly when the class for the
items starts from that name. -/
theorem alias_shadowsNothing_iff (planned : (ofDocument document package).result = .ok plan) {model : ModelModule}
    (member : model ∈ plan.models) {schema : Schema}
    (named : (.string model.schemaName, schema) ∈ document.schemas) (notStruct : schema.isStruct = false) :
    (∀ own ∈ model.classes, own.name ≠ model.className) ∧
    (model.ShadowsNothing ↔
      ∀ start, model.ItemsFrom schema start → start ≠ model.className →
        ∀ other ∈ model.imports, start ≠ other.className) := by
  have names := alias_names planned member named notStruct
  have apart : ∀ own ∈ model.classes, own.name ≠ model.className := by
    intro own among
    obtain ⟨start, -, same⟩ := (names own.name).mp (List.mem_map_of_mem among)
    rw [same]
    exact besideName_ne model.className start
  refine ⟨apart, ?_⟩
  constructor
  · intro clear start items different other imported same
    have declared : start ∈ model.classes.map ClassDeclaration.name :=
      (names start).mpr ⟨start, items, by rw [besideName, if_neg different]⟩
    obtain ⟨own, among, rfl⟩ := List.mem_map.mp declared
    exact (clear own among).2 other imported same
  · intro free own among
    refine ⟨apart own among, fun other imported same => ?_⟩
    obtain ⟨start, items, ownName⟩ := (names own.name).mp (List.mem_map_of_mem among)
    rw [ownName, besideName] at same
    split at same
    case isTrue taken =>
      -- The name of the alias with an underscore is no class name of a schema.
      obtain ⟨own, others⟩ := model_classNames planned member
      rw [taken, own, others other imported] at same
      exact Naming.className_ne_underscored _ _ same.symm
    case isFalse different => exact free start items different other imported same

end PackagePlan

def itemList (title : String) : Schema where
  keywords := { type := .string "array" }
  items := some {
    keywords := { type := .string "object", title := .string title }
    properties := some [(.string "item", { keywords := { reference := .string (schemaReferenceStart ++ "Item") } })] }

def catalogDocument (title : String) : ApiDocument where
  title := .string "Catalog"
  version := "1"
  schemas := [
    (.string "Item", {
      keywords := { type := .string "object" }
      properties := some [(.string "name", { keywords := { type := .string "string" } })] }),
    (.string "Catalog", itemList title)]
  operations := []
  distinctSchemas := by
    simp [Entries.Distinct, Value.same]

theorem itemList_from {model : ModelModule} {start : String} (items : model.ItemsFrom (itemList "Entry") start) :
    start = "Entry" := by
  obtain ⟨object, leads, named⟩ := items
  obtain rfl := Option.some.inj leads
  have titled : ∀ suggested, structName ({ type := .string "object", title := .string "Entry" } : Keywords) suggested =
      .ok "Entry" := fun _ => rfl
  exact Except.ok.inj (named.symm.trans (titled _))

set_option maxRecDepth 4000 in
theorem catalogDocument_clear :
    ∃ plan first model, (PackagePlan.ofDocument (catalogDocument "Entry") "catalog").result = .ok plan ∧
      plan.models = [first, model] ∧ model.schemaName = "Catalog" ∧
      model.classes.map ClassDeclaration.name = ["Entry"] ∧
      model.imports.map NamedSchema.className = ["Item"] ∧ model.ShadowsNothing := by
  obtain ⟨plan, first, model, planned, models, name, classes, imports⟩ : ∃ plan first model,
      (PackagePlan.ofDocument (catalogDocument "Entry") "catalog").result = .ok plan ∧
        plan.models = [first, model] ∧ model.schemaName = "Catalog" ∧
        model.classes.map ClassDeclaration.name = ["Entry"] ∧
        model.imports.map NamedSchema.className = ["Item"] :=
    ⟨_, _, _, rfl, rfl, rfl, by decide +kernel, by decide +kernel⟩
  have member : model ∈ plan.models := by simp [models]
  have named : (.string model.schemaName, itemList "Entry") ∈ (catalogDocument "Entry").schemas := by
    simp [name, catalogDocument]
  refine ⟨plan, first, model, planned, models, name, classes, imports,
    (PackagePlan.alias_shadowsNothing_iff planned member named rfl).2.mpr ?_⟩
  intro start items _ other imported same
  have otherName : other.className ∈ ["Item"] := imports ▸ List.mem_map_of_mem imported
  rw [← same, itemList_from items] at otherName
  exact absurd otherName (by decide)

set_option maxRecDepth 4000 in
/-- A list of entries whose title is that of the items shadows the items. -/
theorem catalogDocument_shadows :
    ∃ plan first model, (PackagePlan.ofDocument (catalogDocument "Item") "catalog").result = .ok plan ∧
      plan.models = [first, model] ∧ model.schemaName = "Catalog" ∧
      (.string model.schemaName, itemList "Item") ∈ (catalogDocument "Item").schemas ∧
      (itemList "Item").isStruct = false ∧ model.classes.map ClassDeclaration.name = ["Item"] ∧
      model.imports.map NamedSchema.className = ["Item"] ∧ ¬model.ShadowsNothing := by
  obtain ⟨plan, first, model, planned, models, name, classes, imports⟩ : ∃ plan first model,
      (PackagePlan.ofDocument (catalogDocument "Item") "catalog").result = .ok plan ∧
        plan.models = [first, model] ∧ model.schemaName = "Catalog" ∧
        model.classes.map ClassDeclaration.name = ["Item"] ∧
        model.imports.map NamedSchema.className = ["Item"] :=
    ⟨_, _, _, rfl, rfl, rfl, by decide +kernel, by decide +kernel⟩
  refine ⟨plan, first, model, planned, models, name, by simp [name, catalogDocument], rfl, classes, imports, ?_⟩
  intro clear
  have declared : "Item" ∈ model.classes.map ClassDeclaration.name := by simp [classes]
  have imported : "Item" ∈ model.imports.map NamedSchema.className := by simp [imports]
  obtain ⟨own, among, ownName⟩ := List.mem_map.mp declared
  obtain ⟨other, within, otherName⟩ := List.mem_map.mp imported
  exact (clear own among).2 other within (ownName.trans otherName.symm)

end OpenApiClient
