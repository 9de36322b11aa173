import OpenApiClient.Proofs.EmittedTypes
import OpenApiClient.Proofs.FieldReferences
import OpenApiClient.Proofs.GenerationErrors

/-! Where emission stops. -/

namespace OpenApiClient

open InScope

def Filled (suggested : Option String) : Prop := ∃ name, suggested = some name ∧ name ≠ ""

variable {error : GenerationError}

/-- An object goes without a name only where it has no title and no name is suggested for it. -/
theorem structName_stops {keywords : Keywords} {suggested : Option String}
    (stops : Stops (structName keywords suggested) error) :
    error = ⟨.missingTypeName, none⟩ ∧ ¬Filled suggested := by
  unfold structName at stops
  split at stops
  · exact absurd (stops_bind_pure.mp stops) stops_liftMalformed
  · split at stops
    · exact ⟨stops_ofProblem.mp stops, by simp [Filled]⟩
    · exact ⟨stops_ofProblem.mp stops, by simp [Filled]⟩
    · cases stops

/-- What a typing can stop with: it has no place yet, and it is not about a missing name if one is suggested. -/
structure GenerationError.OfTyping (suggested : Option String) (error : GenerationError) : Prop where
  unlocated : error.location = none
  named : Filled suggested → error.problem ≠ .missingTypeName

theorem GenerationError.OfReference.ofTyping (own : error.OfReference) (suggested : Option String) :
    error.OfTyping suggested := by
  refine ⟨own.unlocated, fun _ missing => ?_⟩
  obtain ⟨reference, unknown | unsupported⟩ := own.about
  · cases missing.symm.trans unknown
  · cases missing.symm.trans unsupported

namespace Registry

variable {registry : Registry}

theorem typeOf_stops {suggested : Option String} {schema : Schema}
    (stops : (registry.typeOf suggested schema).Stops error) : error.OfTyping suggested := by
  -- Along the arms of the typing: an item, a value or a single member stops it as it stops itself.
  fun_induction Registry.typeOf registry suggested schema with
  | case1 keywords items properties additional anyOf oneOf allOf reference =>
      have resolving := Traced.stops_bind_pure.mp stops
      exact (registry.resolveValue_stopsForReferences _ error resolving).ofTyping suggested
  | case2 | case3 => exact absurd (Traced.stops_bind_pure.mp stops) Traced.stops_liftMalformed
  | case4 | case5 | case6 | case11 | case14 | case17 => exact absurd stops Traced.stops_pure
  | case7 =>
      obtain rfl := Traced.stops_fail.mp stops
      exact ⟨rfl, by simp⟩
  | case8 keywords properties additional anyOf oneOf allOf reference kind items ih =>
      exact ih (Traced.stops_bind_pure.mp stops)
  | case9 keywords items anyOf oneOf allOf reference kind properties additional =>
      rcases Traced.stops_bind.mp stops with unnamed | ⟨name, -, finished⟩
      · obtain ⟨rfl, unfilled⟩ := structName_stops unnamed
        exact ⟨rfl, fun filled => absurd filled unfilled⟩
      · cases additional with
        | unrestricted => exact absurd (Traced.stops_write_bind.mp finished) Traced.stops_pure
        | forbidden | typed => exact absurd finished Traced.stops_pure
  | case10 keywords items anyOf oneOf allOf reference kind value ih => exact ih (Traced.stops_bind_pure.mp stops)
  | case12 keywords items properties additional oneOf allOf reference kind member ih => exact ih stops
  | case15 keywords items properties additional oneOf allOf reference kind member ih => exact ih stops
  | case13 | case16 => exact absurd (Traced.stops_write_bind.mp stops) Traced.stops_pure

end Registry

/-! One step: a class body is opened, and in it one property after the other. -/

theorem declareStruct_stops {start : String} {declare : String → InScope ClassDeclaration} {scope : NamingScope} :
    (declareStruct start declare).Stops scope error ↔
      scope.ownName start ∉ scope.names ∧
        (declare (scope.ownName start)).Stops (scope.child (scope.ownName start)) error := by
  rw [declareStruct, stops_read_bind]
  dsimp only
  split
  · rename_i present
    rw [stops_write_bind]
    exact iff_of_false InScope.stops_pure fun stops => stops.1 (NamingScope.contains_iff.mp present)
  · rename_i absent
    rw [stops_update_bind, InScope.stops_bind_pure]
    exact (and_iff_right fun present => absent (NamingScope.contains_iff.mpr present)).symm

theorem declareWith_stops {description : Value} {additional : AdditionalMembers Schema}
    {properties : List (Value × Schema)} {name : String}
    {body : String → List String → InScope (List ClassDeclaration × List FieldDeclaration)} {scope : NamingScope} :
    (declareWith description additional properties name body).Stops (scope.child name) error ↔
      ∃ names, fieldNames properties = .ok names ∧
        (body (scope.qualify name) names).Stops ((scope.child name).reserve names) error := by
  rw [declareWith, stops_liftMalformed_bind]
  refine exists_congr fun names => and_congr_right fun _ => ?_
  rw [stops_update_bind, stops_read_bind, NamingScope.ownerOr_child]
  dsimp only
  split
  · rw [stops_write_bind]
    exact InScope.stops_bind_pure
  · exact InScope.stops_bind_pure

structure PropertyPlace where
  owner : String
  property : String

def PropertyPlace.text (place : PropertyPlace) : String := place.owner ++ "." ++ place.property

inductive Emission
  | ofSchema (suggested : Option String) (schema : Schema)
  | ofFields (owner : String) (required : List Value) (names : List String) (properties : List (Value × Schema))

def Emission.IsNamed : Emission → Prop
  | .ofSchema suggested _ => Filled suggested
  | .ofFields .. => True

inductive Builds (object : Schema) (name : String) (scope : NamingScope) : Emission → NamingScope → Prop
  | body {names : List String} : fieldNames (object.properties.getD []) = .ok names →
      Builds object name scope
        (.ofFields (scope.qualify name) object.keywords.required names (object.properties.getD []))
        ((scope.child name).reserve names)

theorem Builds.isNamed {object : Schema} {name : String} {scope own : NamingScope} {body : Emission}
    (builds : Builds object name scope body own) : body.IsNamed := by
  cases builds
  trivial

/-- The emission of a schema opens the body of a class: that of the object it leads to, unless a class of this name
is there already. -/
def Opens (suggested : Option String) (schema : Schema) (scope : NamingScope) (body : Emission)
    (own : NamingScope) : Prop :=
  ∃ object start, schema.object? = some object ∧ structName object.keywords suggested = .ok start ∧
    scope.ownName start ∉ scope.names ∧ Builds object (scope.ownName start) scope body own

theorem Schema.sizeOf_object?_property {schema object : Schema} (leads : schema.object? = some object)
    {entry : Value × Schema} (member : entry ∈ object.properties.getD []) : sizeOf entry.2 < sizeOf schema := by
  refine object?_induction (fun properties shape => ?_) (fun schema inner wraps small => ?_) leads
  · have found := (emissionShape_struct shape).2.2
    exact sizeOf_property found (by simpa [found] using member)
  · exact small.trans (sizeOf_walkedPart wraps.walkedParts)

theorem Opens.wrapped_iff {suggested : Option String} {schema inner : Schema} {scope own : NamingScope}
    {body : Emission} (wraps : schema.Wraps inner) :
    Opens suggested schema scope body own ↔ Opens suggested inner scope body own := by
  rw [Opens, Opens, wraps.object?]

theorem not_opens {suggested : Option String} {schema : Schema} {scope own : NamingScope} {body : Emission}
    (none : schema.object? = none) : ¬Opens suggested schema scope body own := by
  rintro ⟨object, start, leads, -⟩
  cases none.symm.trans leads

namespace Registry

variable {registry : Registry}

def EmissionStops (registry : Registry) (emission : Emission) (scope : NamingScope) (error : GenerationError) :
    Prop :=
  match emission with
  | .ofSchema suggested schema => (registry.emit suggested schema).Stops scope error
  | .ofFields owner required names properties =>
      (registry.emitFields owner required names properties).Stops scope error

theorem declareWith_builds {description : Value} {additional : AdditionalMembers Schema} {object : Schema}
    {name : String} {scope : NamingScope} :
    (declareWith description additional (object.properties.getD []) name fun owner names =>
      registry.emitFields owner object.keywords.required names (object.properties.getD [])).Stops (scope.child name)
        error ↔
      ∃ body own, Builds object name scope body own ∧ registry.EmissionStops body own error := by
  rw [declareWith_stops]
  constructor
  · rintro ⟨names, named, stops⟩
    exact ⟨_, _, .body named, stops⟩
  · rintro ⟨_, _, ⟨named⟩, stops⟩
    exact ⟨_, named, stops⟩

theorem buildClass_stops {schema : Schema} {name : String} {scope : NamingScope} {description : Option String} :
    (registry.buildClass schema name (scope.child name) description).Stops error ↔
      ∃ body own, Builds schema name scope body own ∧ registry.EmissionStops body own error :=
  declareWith_builds

section

variable {suggested : Option String} {schema : Schema} {scope : NamingScope}

theorem emit_struct_stops {properties : List (Value × Schema)} (shape : schema.emissionShape = .struct properties) :
    (registry.emit suggested schema).Stops scope error ↔
      (registry.typeOf suggested schema).Stops error ∨
        ∃ body own, Opens suggested schema scope body own ∧ registry.EmissionStops body own error := by
  have leads : schema.object? = some schema := by rw [Schema.object?_eq, shape]
  have typing : (registry.typeOf suggested schema).Stops error ↔
      Stops (structName schema.keywords suggested) error := by
    rw [Traced.Stops, typeOf_struct shape, stops_map]
  obtain rfl : schema.properties.getD [] = properties := by
    rw [(Schema.emissionShape_struct shape).2.2, Option.getD_some]
  rw [typing, emit_eq, shape, stops_lift_bind]
  refine or_congr_right ?_
  simp only [declareStruct_stops, declareWith_builds, Opens, leads]
  constructor
  · rintro ⟨start, named, new, body, own, builds, stops⟩
    exact ⟨body, own, ⟨schema, start, rfl, named, new, builds⟩, stops⟩
  · rintro ⟨body, own, ⟨_, start, ⟨⟩, named, new, builds⟩, stops⟩
    exact ⟨start, named, new, body, own, builds, stops⟩

theorem emit_wrapper_stops {inner : Schema} (wraps : schema.Wraps inner)
    (typed : (registry.typeOf suggested schema).Stops error ↔ (registry.typeOf suggested inner).Stops error)
    (emitted : (registry.emit suggested schema).Stops scope error ↔
      (registry.emit suggested inner).Stops scope error)
    (own : (registry.emit suggested inner).Stops scope error ↔
      (registry.typeOf suggested inner).Stops error ∨
        ∃ body own, Opens suggested inner scope body own ∧ registry.EmissionStops body own error) :
    (registry.emit suggested schema).Stops scope error ↔
      (registry.typeOf suggested schema).Stops error ∨
        ∃ body own, Opens suggested schema scope body own ∧ registry.EmissionStops body own error := by
  simp only [emitted, typed, own, Opens.wrapped_iff wraps]

/-- The emission of a schema stops where it has no type, or else in the class body that it opens. -/
theorem emit_stops_iff : (registry.emit suggested schema).Stops scope error ↔
    (registry.typeOf suggested schema).Stops error ∨
      ∃ body own, Opens suggested schema scope body own ∧ registry.EmissionStops body own error := by
  induction schema using Schema.emissionShape_induction with
  | leaf schema shape =>
      have closed : schema.object? = none := by rw [Schema.object?_eq, shape]
      simp only [not_opens closed, false_and, exists_false, or_false]
      rw [emit_eq, shape]
      exact InScope.stops_bind_pure
  | struct schema properties shape _ => exact emit_struct_stops shape
  | map schema value shape ih =>
      refine emit_wrapper_stops (.map shape) ?_ ?_ ih
      · rw [Traced.Stops, typeOf_map shape, stops_map]
        rfl
      · rw [emit_eq, shape]
        exact InScope.stops_bind_pure
  | array schema items shape ih =>
      refine emit_wrapper_stops (.array shape) ?_ ?_ ih
      · rw [Traced.Stops, typeOf_array shape, stops_map]
        rfl
      · rw [emit_eq, shape]
        exact InScope.stops_bind_pure
  | incomplete schema shape =>
      have closed : schema.object? = none := by rw [Schema.object?_eq, shape]
      simp only [not_opens closed, false_and, exists_false, or_false]
      rw [emit_eq, shape, Traced.Stops, typeOf_incomplete shape]
      exact Traced.stops_fail.trans stops_ofProblem.symm
  | union schema member shape ih =>
      have spec := schema.emissionShape_spec
      simp only [shape] at spec
      refine emit_wrapper_stops (.union shape) ?_ ?_ ih
      · rw [typeOf_union spec.1 (.inl spec.2.1) spec.2.2]
      · rw [emit_eq, shape]

end

variable {owner : String} {required : List Value} {names : List String} {scope between : NamingScope}

theorem emitFields_cons_stops {name : String} {key : Value} {schema : Schema} {rest : List (Value × Schema)} :
    (registry.emitFields owner required (name :: names) ((key, schema) :: rest)).Stops scope error ↔
      ∃ property, key = .string property ∧
        ((∃ own, (registry.emit (some (Naming.toIdentifierCamel property)) schema).Stops scope own ∧
          error = ⟨own.problem, some (own.location.getD (PropertyPlace.text ⟨owner, property⟩))⟩) ∨
        ∃ result middle,
          Yields (registry.emit (some (Naming.toIdentifierCamel property)) schema) scope result middle ∧
          (registry.emitFields owner required names rest).Stops middle error) := by
  rw [Registry.emitFields, stops_liftMalformed_bind]
  simp only [Value.asPattern_ok]
  refine exists_congr fun property => and_congr_right fun _ => ?_
  rw [InScope.stops_bind, InScope.stops_locate]
  refine or_congr_right (exists_congr fun result => exists_congr fun between => ?_)
  rw [yields_mapFailure, InScope.stops_bind_pure]

theorem emitFields_finished_stops {properties : List (Value × Schema)} (finished : names = [] ∨ properties = []) :
    ¬(registry.emitFields owner required names properties).Stops scope error := by
  rw [Registry.emitFields]
  · exact InScope.stops_pure
  · rintro name rest key schema others rfl rfl
    rcases finished with none | none <;> cases none

theorem emitFields_cons_of_yields {name property : String} {schema : Schema} {rest : List (Value × Schema)}
    {after : NamingScope} {result : List ClassDeclaration × TypeExpression}
    {others : List ClassDeclaration × List FieldDeclaration}
    (emitted : Yields (registry.emit (some (Naming.toIdentifierCamel property)) schema) scope result between)
    (later : Yields (registry.emitFields owner required names rest) between others after) :
    Yields (registry.emitFields owner required (name :: names) ((.string property, schema) :: rest)) scope
      (result.1 ++ others.1, fieldFor name property required schema result.2 :: others.2) after := by
  rw [Registry.emitFields]
  refine yields_bind.mpr ⟨property, scope, yields_liftMalformed.mpr ⟨rfl, rfl⟩, ?_⟩
  refine yields_bind.mpr ⟨result, between, yields_mapFailure.mpr emitted, ?_⟩
  exact yields_bind.mpr ⟨others, after, later, yields_pure.mpr ⟨rfl, rfl⟩⟩

/-- The properties in front of this one are emitted, and leave this scope for it. -/
def ComesTo (registry : Registry) (owner : String) (required : List Value) (names : List String)
    (properties : List (Value × Schema)) (scope : NamingScope) (property : String) (schema : Schema)
    (between : NamingScope) : Prop :=
  ∃ before after result, properties = before ++ (.string property, schema) :: after ∧ before.length < names.length ∧
    Yields (registry.emitFields owner required names before) scope result between

theorem comesTo_cons {name property : String} {key : Value} {head schema : Schema} {rest : List (Value × Schema)} :
    registry.ComesTo owner required (name :: names) ((key, head) :: rest) scope property schema between ↔
      (key = .string property ∧ head = schema ∧ scope = between) ∨
      ∃ first result middle, key = .string first ∧
        Yields (registry.emit (some (Naming.toIdentifierCamel first)) head) scope result middle ∧
        registry.ComesTo owner required names rest middle property schema between := by
  constructor
  · rintro ⟨before, after, ⟨inner, fields⟩, split, few, yields⟩
    cases before with
    | nil =>
        obtain ⟨same, rfl⟩ := List.cons.inj split
        obtain ⟨rfl, rfl⟩ := Prod.mk.inj same
        obtain ⟨-, -, rfl⟩ := emitFields_nil_yields (.inr rfl) yields
        exact .inl ⟨rfl, rfl, rfl⟩
    | cons entry before =>
        obtain ⟨rfl, rfl⟩ := List.cons.inj split
        obtain ⟨first, declared, type, middle, others, otherFields, rfl, emitted, later, -, -⟩ :=
          emitFields_cons_yields yields
        exact .inr ⟨first, _, middle, rfl, emitted, before, after, _, rfl, by simpa using few, later⟩
  · rintro (⟨rfl, rfl, rfl⟩ | ⟨first, result, middle, rfl, emitted, before, after, others, rfl, few, later⟩)
    · refine ⟨[], rest, ([], []), rfl, by simp, ?_⟩
      rw [Registry.emitFields]
      · exact yields_pure.mpr ⟨rfl, rfl⟩
      · rintro _ _ _ _ _ _ ⟨⟩
    · exact ⟨(.string first, head) :: before, after, _, rfl, by simpa using few,
        emitFields_cons_of_yields emitted later⟩

theorem comesTo_finished {properties : List (Value × Schema)} {property : String} {schema : Schema}
    (finished : names = [] ∨ properties = []) :
    ¬registry.ComesTo owner required names properties scope property schema between := by
  rintro ⟨before, after, result, rfl, few, -⟩
  rcases finished with rfl | none
  · exact absurd few (by simp)
  · simp at none

/-- The properties of a class stop at the first of them that does; the error gets its place unless it has one. -/
theorem emitFields_stops_iff {properties : List (Value × Schema)} :
    (registry.emitFields owner required names properties).Stops scope error ↔
      ∃ property schema between own,
        registry.ComesTo owner required names properties scope property schema between ∧
        (registry.emit (some (Naming.toIdentifierCamel property)) schema).Stops between own ∧
        error = ⟨own.problem, some (own.location.getD (PropertyPlace.text ⟨owner, property⟩))⟩ := by
  induction properties generalizing names scope with
  | nil => simp [emitFields_finished_stops, comesTo_finished]
  | cons entry rest ih =>
      obtain ⟨key, head⟩ := entry
      cases names with
      | nil => simp [emitFields_finished_stops, comesTo_finished]
      | cons name names =>
          simp only [emitFields_cons_stops, comesTo_cons, ih]
          constructor
          · rintro ⟨property, rfl, ⟨own, stops, rfl⟩ | ⟨result, middle, emitted, later⟩⟩
            · exact ⟨property, head, scope, own, .inl ⟨rfl, rfl, rfl⟩, stops, rfl⟩
            · obtain ⟨other, schema, between, own, comes, stops, rfl⟩ := later
              exact ⟨other, schema, between, own, .inr ⟨property, result, middle, rfl, emitted, comes⟩, stops, rfl⟩
          · rintro ⟨property, schema, between, own, ⟨rfl, rfl, rfl⟩ | ⟨first, result, middle, rfl, emitted, comes⟩,
              stops, rfl⟩
            · exact ⟨property, rfl, .inl ⟨own, stops, rfl⟩⟩
            · exact ⟨first, rfl, .inr ⟨result, middle, emitted, property, schema, between, own, comes, stops, rfl⟩⟩

/-- Where a problem arises in an emission: at a schema that has no type, or in a class body, while one of its
properties is emitted. The place is the innermost such property; outside of all class bodies there is none. -/
inductive Arises (registry : Registry) (problem : Problem) : Emission → NamingScope → Option PropertyPlace → Prop
  | untyped {suggested : Option String} {schema : Schema} {scope : NamingScope} :
      (registry.typeOf suggested schema).result = .error (.ofProblem problem) →
      Arises registry problem (.ofSchema suggested schema) scope none
  | inside {suggested : Option String} {schema : Schema} {scope own : NamingScope} {body : Emission}
      {place : Option PropertyPlace} : Opens suggested schema scope body own →
      Arises registry problem body own place → Arises registry problem (.ofSchema suggested schema) scope place
  | property {owner property : String} {required : List Value} {names : List String}
      {properties : List (Value × Schema)} {schema : Schema} {scope between : NamingScope}
      {deeper : Option PropertyPlace} :
      registry.ComesTo owner required names properties scope property schema between →
      Arises registry problem (.ofSchema (some (Naming.toIdentifierCamel property)) schema) between deeper →
      Arises registry problem (.ofFields owner required names properties) scope
        (some (deeper.getD ⟨owner, property⟩))

theorem Arises.stops {problem : Problem} {emission : Emission} {scope : NamingScope} {place : Option PropertyPlace}
    (arises : registry.Arises problem emission scope place) :
    registry.EmissionStops emission scope ⟨problem, place.map PropertyPlace.text⟩ := by
  induction arises with
  | untyped typing => exact emit_stops_iff.mpr (.inl typing)
  | inside opens _ ih => exact emit_stops_iff.mpr (.inr ⟨_, _, opens, ih⟩)
  | @property _ _ _ _ _ _ _ _ deeper comes _ ih =>
      refine emitFields_stops_iff.mpr ⟨_, _, _, _, comes, ih, ?_⟩
      cases deeper <;> rfl

/-- The properties of a class stop where one of them does, at its own place unless it has one within. -/
theorem arises_of_fields {owner : String} {required : List Value} {names : List String}
    {properties : List (Value × Schema)} {scope : NamingScope} {problem : Problem} {location : Option String}
    (each : ∀ entry ∈ properties, ∀ suggested scope location,
      (registry.emit suggested entry.2).Stops scope ⟨problem, location⟩ →
        ∃ place, registry.Arises problem (.ofSchema suggested entry.2) scope place ∧
          location = place.map PropertyPlace.text)
    (stops : (registry.emitFields owner required names properties).Stops scope ⟨problem, location⟩) :
    ∃ place, registry.Arises problem (.ofFields owner required names properties) scope place ∧
      location = place.map PropertyPlace.text := by
  obtain ⟨property, schema, between, own, comes, inner, same⟩ := emitFields_stops_iff.mp stops
  obtain ⟨rfl, rfl⟩ := GenerationError.mk.inj same
  have member : (.string property, schema) ∈ properties := by
    obtain ⟨before, after, _, rfl, -⟩ := comes
    simp
  obtain ⟨deeper, arises, located⟩ := each _ member _ _ _ inner
  refine ⟨_, .property comes arises, ?_⟩
  rw [located]
  cases deeper <;> rfl

theorem arises_of_schema {suggested : Option String} {schema : Schema} {scope : NamingScope} {problem : Problem}
    {location : Option String} (stops : (registry.emit suggested schema).Stops scope ⟨problem, location⟩) :
    ∃ place, registry.Arises problem (.ofSchema suggested schema) scope place ∧
      location = place.map PropertyPlace.text := by
  induction size : sizeOf schema using Nat.strongRecOn generalizing suggested schema scope location with
  | ind size smaller =>
      subst size
      rcases emit_stops_iff.mp stops with untyped | ⟨body, own, opens, inner⟩
      · obtain rfl : location = none := (typeOf_stops untyped).unlocated
        exact ⟨none, .untyped untyped, rfl⟩
      · obtain ⟨place, arises, located⟩ : ∃ place, registry.Arises problem body own place ∧
            location = place.map PropertyPlace.text := by
          obtain ⟨object, start, leads, -, -, ⟨-⟩⟩ := opens
          refine arises_of_fields (fun entry member suggested scope location stops => ?_) inner
          exact smaller _ (Schema.sizeOf_object?_property leads member) stops rfl
        exact ⟨place, .inside opens arises, located⟩

/-- An emission stops with a problem exactly where the problem arises, and with the place of it. -/
theorem emissionStops_iff {emission : Emission} {scope : NamingScope} {error : GenerationError} :
    registry.EmissionStops emission scope error ↔
      ∃ place, registry.Arises error.problem emission scope place ∧
        error.location = place.map PropertyPlace.text := by
  obtain ⟨problem, location⟩ := error
  constructor
  · intro stops
    cases emission with
    | ofSchema suggested schema => exact arises_of_schema stops
    | ofFields owner required names properties =>
        exact arises_of_fields (fun _ _ _ _ _ inner => arises_of_schema inner) stops
  · rintro ⟨place, arises, rfl⟩
    exact arises.stops

/-! A property suggests a name for what is emitted for it, so that a name is missing nowhere below one. -/

theorem Arises.unnamed {emission : Emission} {scope : NamingScope} {place : Option PropertyPlace}
    (arises : registry.Arises .missingTypeName emission scope place) : ¬emission.IsNamed := by
  induction arises with
  | untyped typing => exact fun filled => (typeOf_stops typing).named filled rfl
  | inside opens _ ih =>
      obtain ⟨_, _, -, -, -, builds⟩ := opens
      exact absurd builds.isNamed ih
  | property _ _ ih =>
      exact absurd ⟨_, rfl, Naming.toIdentifierCamel_ne_empty _⟩ ih

end Registry
end OpenApiClient
