import OpenApiClient.Proofs.AliasCycle
import OpenApiClient.Proofs.Rendering

/-! The references that the walk over a schema meets. It goes into parts that the type of the schema does not
depend on, such as the members of a union, so that a model can fail for a reference in one of them although all
schemas are emitted. -/

namespace OpenApiClient

open Relation

namespace Schema

inductive Meets : Schema → Value → Prop
  | own {schema : Schema} : schema.keywords.isReference = true → Meets schema schema.keywords.reference
  | part {schema part : Schema} {reference : Value} : part ∈ schema.walkedParts → Meets part reference →
      Meets schema reference

theorem sizeOf_allOf {schema member : Schema} {members : List Schema} (found : schema.allOf = some members)
    (among : member ∈ members) : sizeOf member < sizeOf schema := by
  have within := List.sizeOf_lt_of_mem among
  cases schema
  subst found
  simp only [Schema.mk.sizeOf_spec, Option.some.sizeOf_spec]
  omega

theorem sizeOf_walkedPart {schema part : Schema} (walked : part ∈ schema.walkedParts) :
    sizeOf part < sizeOf schema := by
  obtain ⟨keywords, items, properties, additional, anyOf, oneOf, allOf⟩ := schema
  dsimp only [walkedParts] at walked
  split at walked
  · contradiction
  · split at walked
    · exact sizeOf_items (Option.mem_toList.mp walked)
    · rcases List.mem_append.mp walked with inProperties | inAdditional
      · obtain ⟨entry, member, rfl⟩ := List.mem_map.mp inProperties
        cases properties with
        | none => contradiction
        | some properties => exact sizeOf_property rfl member
      · cases additional with
        | typed value =>
            obtain rfl := List.mem_singleton.mp inAdditional
            exact sizeOf_additional rfl
        | _ => contradiction
    · cases anyOf with
      | some members => exact sizeOf_anyOf rfl walked
      | none =>
          cases allOf with
          | some members => exact sizeOf_allOf rfl walked
          | none => contradiction

theorem walkedParts_induction {holds : Schema → Prop}
    (step : ∀ schema, (∀ part ∈ schema.walkedParts, holds part) → holds schema) (schema : Schema) :
    holds schema := by
  induction size : sizeOf schema using Nat.strongRecOn generalizing schema with
  | ind size smaller =>
      subst size
      exact step schema fun part walked => smaller _ (sizeOf_walkedPart walked) part rfl

theorem meets_of_reference {schema : Schema} (isReference : schema.keywords.isReference = true)
    (reference : Value) : schema.Meets reference ↔ schema.keywords.reference = reference := by
  constructor
  · intro meets
    cases meets with
    | own => rfl
    | part walked _ =>
        obtain ⟨keywords, items, properties, additional, anyOf, oneOf, allOf⟩ := schema
        dsimp only [walkedParts] at walked isReference
        rw [if_pos isReference] at walked
        contradiction
  · rintro rfl
    exact .own isReference

theorem meets_of_plain {schema : Schema} (plain : ¬schema.keywords.isReference = true) (reference : Value) :
    schema.Meets reference ↔ ∃ part ∈ schema.walkedParts, part.Meets reference := by
  constructor
  · intro meets
    cases meets with
    | own isReference => exact absurd isReference plain
    | part walked deeper => exact ⟨_, walked, deeper⟩
  · rintro ⟨part, walked, deeper⟩
    exact .part walked deeper

theorem mentions_succeeds (schema : Schema) :
    Succeeds schema.mentions ↔ ∀ reference, schema.Meets reference → Succeeds reference.schemaName := by
  induction schema using walkedParts_induction with
  | step schema ih =>
      rw [mentions_eq]
      split
      · rename_i isReference
        simp only [succeeds_map, meets_of_reference isReference, forall_eq']
      · rename_i plain
        rw [succeeds_map, succeeds_mapM]
        constructor
        · intro each reference meets
          obtain ⟨part, walked, deeper⟩ := (meets_of_plain plain reference).mp meets
          exact (ih part walked).mp (each part walked) reference deeper
        · intro named part walked
          exact (ih part walked).mpr fun reference deeper => named reference (.part walked deeper)

theorem mem_mentions {schema : Schema} {names : List String} (mentioned : schema.mentions = .ok names)
    (name : String) : name ∈ names ↔ ∃ reference, schema.Meets reference ∧ reference.schemaName = .ok name := by
  induction schema using walkedParts_induction generalizing names with
  | step schema ih =>
      rw [mentions_eq] at mentioned
      split at mentioned
      · rename_i isReference
        obtain ⟨own, named, rfl⟩ := except_map_ok.mp mentioned
        simp only [meets_of_reference isReference, exists_eq_left', named, List.mem_singleton, Except.ok.injEq]
        exact eq_comm
      · rename_i plain
        obtain ⟨lists, each, rfl⟩ := except_map_ok.mp mentioned
        have pairs := (mapM_ok_iff _ _ _).mp each
        simp only [List.mem_flatten, meets_of_plain plain]
        constructor
        · rintro ⟨list, among, member⟩
          obtain ⟨part, walked, own⟩ := forall₂_of_mem_right pairs among
          obtain ⟨reference, deeper, named⟩ := (ih part walked own).mp member
          exact ⟨reference, ⟨part, walked, deeper⟩, named⟩
        · rintro ⟨reference, ⟨part, walked, deeper⟩, named⟩
          obtain ⟨list, among, own⟩ := forall₂_of_mem_left pairs walked
          exact ⟨list, among, (ih part walked own).mpr ⟨reference, deeper, named⟩⟩

end Schema

namespace Registry

variable {registry : Registry}

def Knows (registry : Registry) (schema : Schema) : Prop :=
  ∀ reference, schema.Meets reference → Succeeds (registry.resolveValue reference)

theorem knows_iff {schema : Schema} :
    registry.Knows schema ↔
      ∃ names, schema.references = .ok names ∧ ∀ name ∈ names, Succeeds (registry.get name) := by
  constructor
  · intro known
    have named : ∀ reference, schema.Meets reference → Succeeds reference.schemaName := by
      intro reference meets
      obtain ⟨target, found⟩ := known reference meets
      obtain ⟨name, own, -⟩ := resolveValue_ok_iff.mp found
      exact ⟨name, own⟩
    obtain ⟨mentioned, walked⟩ := schema.mentions_succeeds.mpr named
    refine ⟨sortedNames mentioned, except_map_ok.mpr ⟨mentioned, walked, rfl⟩, fun name among => ?_⟩
    obtain ⟨reference, meets, own⟩ := (Schema.mem_mentions walked name).mp (mem_sortedNames.mp among)
    obtain ⟨target, found⟩ := known reference meets
    obtain ⟨other, again, located⟩ := resolveValue_ok_iff.mp found
    obtain rfl := Except.ok.inj (own.symm.trans again)
    exact ⟨target, located⟩
  · rintro ⟨names, found, registered⟩ reference meets
    obtain ⟨-, mentioned, walked, members⟩ := references_ok found
    obtain ⟨name, own⟩ := schema.mentions_succeeds.mp ⟨mentioned, walked⟩ reference meets
    have mentions : name ∈ mentioned := (Schema.mem_mentions walked name).mpr ⟨reference, meets, own⟩
    obtain ⟨target, located⟩ := registered name ((members name).mpr mentions)
    exact ⟨target, resolveValue_ok_iff.mpr ⟨name, own, located⟩⟩

theorem imports_succeeds {names : List String} {except : Option String} :
    Succeeds (registry.imports names except) ↔
      ∀ name ∈ names, except ≠ some name → Succeeds (registry.get name) := by
  simp [imports, succeeds_mapM]

theorem aliasTargets_succeeds {name : String} :
    Succeeds (registry.aliasTargets name) ↔
      ∃ named, registry.get name = .ok named ∧ registry.Knows named.schema := by
  constructor
  · rintro ⟨targets, found⟩
    obtain ⟨named, located, found⟩ := except_bind_ok.mp found
    obtain ⟨names, walked, filtered⟩ := except_bind_ok.mp found
    refine ⟨named, located, knows_iff.mpr ⟨names, walked, fun target among => ?_⟩⟩
    exact succeeds_bind_pure.mp ((filterM_ok filtered).1 target among)
  · rintro ⟨named, located, known⟩
    obtain ⟨names, walked, registered⟩ := knows_iff.mp known
    obtain ⟨targets, filtered⟩ := succeeds_filterM.mpr fun target among =>
      succeeds_bind_pure.mpr (registered target among)
    exact ⟨targets, except_bind_ok.mpr ⟨named, located, except_bind_ok.mpr ⟨names, walked, filtered⟩⟩⟩

theorem aliasCycle_located {name : String} {cycle : List String} (found : registry.aliasCycle name = .ok cycle) :
    ∀ other ∈ cycle, Succeeds (registry.get other) := by
  intro other member
  obtain ⟨_, _, last⟩ := TransGen.tail'_iff.mp ((aliasCycle_ok found other).mp member).1
  exact last.located

section Known

variable (known : ∀ named ∈ registry.entries, registry.Knows named.schema)

include known

/-- A search does not fail where every schema is known: whatever becomes pending is registered. -/
theorem explore_succeeds {fuel : Nat} {pending seen : List String}
    (registered : ∀ name ∈ pending, Succeeds (registry.get name)) :
    Succeeds (registry.explore fuel pending seen) := by
  induction fuel generalizing pending seen with
  | zero => exact ⟨seen, rfl⟩
  | succ fuel ih =>
      cases pending with
      | nil => exact ⟨seen, rfl⟩
      | cons name pending =>
          obtain ⟨⟨named, located⟩, others⟩ := List.forall_mem_cons.mp registered
          obtain ⟨targets, found⟩ := aliasTargets_succeeds.mpr ⟨named, located, known named (get_ok located).1⟩
          have next : ∀ target ∈ (targets.filter fun target => !seen.contains target).reverse ++ pending,
              Succeeds (registry.get target) := by
            intro target waiting
            rcases List.mem_append.mp waiting with fresh | waiting
            · have member := (List.mem_filter.mp (List.mem_reverse.mp fresh)).1
              exact AliasStep.located ⟨targets, found, member⟩
            · exact others target waiting
          obtain ⟨result, explored⟩ := ih next
          exact ⟨result, except_bind_ok.mpr ⟨targets, found, explored⟩⟩

theorem reachable_succeeds {name : String} (registered : Succeeds (registry.get name)) :
    Succeeds (registry.reachable name) :=
  explore_succeeds known (List.forall_mem_singleton.mpr registered)

theorem aliasCycle_succeeds {name : String} (registered : Succeeds (registry.get name)) :
    Succeeds (registry.aliasCycle name) := by
  refine aliasCycle_succeeds_iff.mpr ⟨reachable_succeeds known registered, fun other path => ?_⟩
  obtain ⟨_, _, last⟩ := TransGen.tail'_iff.mp path
  exact reachable_succeeds known last.located

theorem modelImports_succeeds {named : NamedSchema} (located : registry.get named.name = .ok named) :
    Succeeds (registry.modelImports named) := by
  have own : registry.Knows named.schema := known named (get_ok located).1
  obtain ⟨names, walked, registered⟩ := knows_iff.mp own
  obtain ⟨cycle, searched⟩ :
      Succeeds (if named.schema.isStruct then .ok [] else registry.aliasCycle named.name) := by
    split
    · exact ⟨[], rfl⟩
    · exact aliasCycle_succeeds known ⟨named, located⟩
  have within : ∀ name ∈ names.filter (fun name => !cycle.contains name), some named.name ≠ some name →
      Succeeds (registry.get name) :=
    fun name among _ => registered name (List.mem_filter.mp among).1
  obtain ⟨imports, gathered⟩ := imports_succeeds.mpr within
  exact ⟨(imports, cycle), modelImports_ok_iff.mpr ⟨names, walked, searched, gathered⟩⟩

end Known

theorem knows_of_modelImports {named : NamedSchema} (located : registry.get named.name = .ok named)
    (gathered : Succeeds (registry.modelImports named)) : registry.Knows named.schema := by
  obtain ⟨⟨imports, cycle⟩, gathered⟩ := gathered
  obtain ⟨names, walked, searched, imported⟩ := modelImports_ok_iff.mp gathered
  split at searched
  -- A struct imports all names but its own; an alias has looked all of them up in the search for its cycle.
  · obtain rfl := Except.ok.inj searched
    refine knows_iff.mpr ⟨names, walked, fun name among => ?_⟩
    by_cases itself : named.name = name
    · exact itself ▸ ⟨named, located⟩
    · exact imports_succeeds.mp ⟨imports, imported⟩ name (by simpa using among) (by simpa using itself)
  · obtain ⟨targets, first⟩ := aliasCycle_targets searched
    obtain ⟨other, again, known⟩ := aliasTargets_succeeds.mp ⟨targets, first⟩
    obtain rfl := Except.ok.inj (located.symm.trans again)
    exact known

/-- The aliases on a cycle are registered, so that the text of an alias can always be written. -/
theorem aliasText_succeeds {named : NamedSchema} {imports : List NamedSchema} {cycle : List String}
    (gathered : registry.modelImports named = .ok (imports, cycle)) (type : TypeExpression) :
    Succeeds (registry.aliasText named type cycle).result := by
  obtain ⟨_, -, searched, -⟩ := modelImports_ok_iff.mp gathered
  unfold aliasText
  split at searched
  · rename_i struct
    rw [if_pos struct]
    exact ⟨none, rfl⟩
  · rename_i notStruct
    rw [if_neg notStruct]
    obtain ⟨hidden, located⟩ := succeeds_mapM.mpr (aliasCycle_located searched)
    have written : Succeeds (do
        let hidden ← (cycle.mapM registry.get : Except Failure (List NamedSchema))
        pure (some (type.render (hidden.map NamedSchema.className))) : Traced (Option String)).result :=
      ⟨_, Traced.bind_ok.mpr ⟨hidden, Traced.lift_ok.mpr located, rfl⟩⟩
    split
    · obtain ⟨text, finished⟩ := written
      exact ⟨text, Traced.bind_ok.mpr ⟨(), rfl, finished⟩⟩
    · exact written

theorem model_succeeds {named : NamedSchema} :
    Succeeds (registry.model named).result ↔
      Succeeds (registry.emitNamed named).result ∧ Succeeds (registry.modelImports named) ∧
        named.schema.keywords.description.IsWording := by
  rw [← Value.wrapped_succeeds 80]
  constructor
  · rintro ⟨model, made⟩
    obtain ⟨classes, type, imports, cycle, _, lines, emitted, gathered, -, wrapped, -⟩ := model_ok_iff.mp made
    exact ⟨⟨(classes, type), emitted⟩, ⟨(imports, cycle), gathered⟩, lines, wrapped⟩
  · rintro ⟨⟨⟨classes, type⟩, emitted⟩, ⟨⟨imports, cycle⟩, gathered⟩, lines, wrapped⟩
    obtain ⟨aliased, written⟩ := aliasText_succeeds gathered type
    exact ⟨_, model_ok_iff.mpr
      ⟨classes, type, imports, cycle, aliased, lines, emitted, gathered, written, wrapped, rfl⟩⟩

/-- When all named schemas are emitted, their models are made exactly if the walk meets no reference to a schema
that is not there, in whatever part of a schema, and the descriptions can be written. -/
theorem models_made_iff {package : Option String} {document : ApiDocument}
    (entered : (ofSchemas package document.schemas).result = .ok registry)
    (emitted : ∀ named ∈ registry.entries, Succeeds (registry.emitNamed named).result) :
    (∀ named ∈ registry.entries, Succeeds (registry.model named).result) ↔
      (∀ named ∈ registry.entries, registry.Knows named.schema) ∧
        ∀ named ∈ registry.entries, named.schema.keywords.description.IsWording := by
  have distinct := names_nodup document.distinctSchemas (ofSchemas_ok entered)
  constructor
  · intro made
    refine ⟨fun named member => ?_, fun named member => (model_succeeds.mp (made named member)).2.2⟩
    exact knows_of_modelImports (get_of_mem distinct member) (model_succeeds.mp (made named member)).2.1
  · rintro ⟨known, worded⟩ named member
    have gathered := modelImports_succeeds known (get_of_mem distinct member)
    exact model_succeeds.mpr ⟨emitted named member, gathered, worded named member⟩

end Registry
def schemaAt (reference : String) : Schema where
  keywords := { reference := .string reference }

def textOr (reference : String) : Schema where
  anyOf := some [{ keywords := { type := .string "string" } }, schemaAt reference]

def extended (reference : String) : Schema where
  allOf := some [schemaAt reference, { keywords := { type := .string "object" } }]

def openRecord (reference : String) : Schema where
  keywords := { type := .string "object" }
  properties := some [(.string "name", { keywords := { type := .string "string" } })]
  additional := .typed (schemaAt reference)

def contactDocument (contact : Schema) : ApiDocument where
  title := .string "Contacts"
  version := "1"
  schemas := [(.string "Contact", contact),
    (.string "Contacts", {
      keywords := { type := .string "array" }
      items := some (schemaAt "#/components/schemas/Contact") })]
  operations := []
  distinctSchemas := by simp [Entries.Distinct, Value.same]

/-- A contact that is a text or a list of contacts is emitted, and both models are made. -/
theorem contacts_made :
    ∃ registry, (Registry.ofSchemas none
        (contactDocument (textOr "#/components/schemas/Contacts")).schemas).result = .ok registry ∧
      (∀ named ∈ registry.entries, Succeeds (registry.emitNamed named).result) ∧
      ∀ named ∈ registry.entries, Succeeds (registry.model named).result := by
  obtain ⟨registry, entered, emitted, known, worded⟩ : ∃ registry,
      (Registry.ofSchemas none
        (contactDocument (textOr "#/components/schemas/Contacts")).schemas).result = .ok registry ∧
      (∀ named ∈ registry.entries, Succeeds (registry.emitNamed named).result) ∧
      (∀ named ∈ registry.entries, registry.Knows named.schema) ∧
      ∀ named ∈ registry.entries, named.schema.keywords.description.IsWording := by
    refine ⟨_, rfl, List.forall_mem_cons.mpr ⟨?_, List.forall_mem_singleton.mpr ?_⟩,
      List.forall_mem_cons.mpr ⟨?_, List.forall_mem_singleton.mpr ?_⟩,
      List.forall_mem_cons.mpr ⟨?_, List.forall_mem_singleton.mpr ?_⟩⟩
    · exact ⟨_, rfl⟩
    · exact ⟨_, rfl⟩
    · exact Registry.knows_iff.mpr ⟨["Contacts"], rfl, List.forall_mem_singleton.mpr ⟨_, rfl⟩⟩
    · exact Registry.knows_iff.mpr ⟨["Contact"], rfl, List.forall_mem_singleton.mpr ⟨_, rfl⟩⟩
    · exact fun given => absurd given (by decide)
    · exact fun given => absurd given (by decide)
  exact ⟨registry, entered, emitted, (Registry.models_made_iff entered emitted).mpr ⟨known, worded⟩⟩

/-- All schemas of the document are emitted, but for the problem the model of one of them is not made. -/
def ApiDocument.Unmade (document : ApiDocument) (name : String) (problem : Problem) : Prop :=
  ∃ registry named, (Registry.ofSchemas none document.schemas).result = .ok registry ∧
    (∀ other ∈ registry.entries, Succeeds (registry.emitNamed other).result) ∧
    registry.get name = .ok named ∧
    (registry.model named).result = .error (.within name (.ofProblem problem))

/-- A member of a union, what a schema extends and the other members of a class: emission looks at none of them,
and a reference in any of them fails the model. -/
theorem contact_unmade :
    (contactDocument (textOr "addresses.yaml#/Address")).Unmade "Contact"
      (.unsupportedReference "addresses.yaml#/Address") ∧
    (contactDocument (extended "#/components/schemas/Person")).Unmade "Contact"
      (.unknownReference "#/components/schemas/Person") ∧
    (contactDocument (openRecord "#/components/schemas/Person")).Unmade "Contact"
      (.unknownReference "#/components/schemas/Person") := by
  refine ⟨⟨_, _, rfl, ?_, rfl, rfl⟩, ⟨_, _, rfl, ?_, rfl, rfl⟩, ⟨_, _, rfl, ?_, rfl, rfl⟩⟩
  · exact List.forall_mem_cons.mpr ⟨⟨_, rfl⟩, List.forall_mem_singleton.mpr ⟨_, rfl⟩⟩
  · exact List.forall_mem_cons.mpr ⟨⟨_, rfl⟩, List.forall_mem_singleton.mpr ⟨_, rfl⟩⟩
  · exact List.forall_mem_cons.mpr ⟨⟨_, rfl⟩, List.forall_mem_singleton.mpr ⟨_, rfl⟩⟩

end OpenApiClient
