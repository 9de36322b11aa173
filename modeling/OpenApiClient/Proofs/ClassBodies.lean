import OpenApiClient.Proofs.DeclaredClasses

/-! The bodies of declared classes, at any depth. A class has the fields of an object and inside it the classes
that the properties of the object lead to. A class whose name is that of a field is called by it and an
underscore, without a second look: so it has the name of a field after all where the object has a property for
that name too. -/

namespace OpenApiClient

open InScope

inductive ClassDeclaration.Holds : ClassDeclaration → ClassDeclaration → Prop
  | self (own : ClassDeclaration) : own.Holds own
  | inner {own inner deep : ClassDeclaration} : inner ∈ own.inner → inner.Holds deep → own.Holds deep

/-- No class directly inside the class has the name of one of its fields. -/
def ClassDeclaration.BodyClear (own : ClassDeclaration) : Prop :=
  ∀ inner ∈ own.inner, ∀ field ∈ own.fields, inner.name ≠ field.name

def StartsAmong (properties : List (Value × Schema)) (start : String) : Prop :=
  ∃ jsonName schema object, (.string jsonName, schema) ∈ properties ∧
    schema.LeadsTo (some (Naming.toIdentifierCamel jsonName)) object start

/-- A property leads to a class that starts from the name of a field, and the name with an underscore is that of a
field as well. -/
def Schema.Crowded (object : Schema) : Prop :=
  ∃ names start, fieldNames (object.properties.getD []) = .ok names ∧
    StartsAmong (object.properties.getD []) start ∧ start ∈ names ∧ start ++ "_" ∈ names

def bodyName (fields : List String) (start : String) : String := if start ∈ fields then start ++ "_" else start

structure ClassDeclaration.BodyOf (own : ClassDeclaration) (object : Schema) : Prop where
  fields : fieldNames (object.properties.getD []) = .ok (own.fields.map FieldDeclaration.name)
  inner : ∀ name, name ∈ own.inner.map ClassDeclaration.name ↔
    ∃ start, StartsAmong (object.properties.getD []) start ∧
      name = bodyName (own.fields.map FieldDeclaration.name) start

theorem ClassDeclaration.BodyOf.clear_iff {own : ClassDeclaration} {object : Schema} (body : own.BodyOf object) :
    own.BodyClear ↔ ¬object.Crowded := by
  constructor
  · rintro clear ⟨names, start, found, starts, taken, again⟩
    obtain rfl := Except.ok.inj (found.symm.trans body.fields)
    have named : start ++ "_" ∈ own.inner.map ClassDeclaration.name := by
      refine (body.inner _).mpr ⟨start, starts, ?_⟩
      rw [bodyName, if_pos taken]
    obtain ⟨inner, innerMember, innerName⟩ := List.mem_map.mp named
    obtain ⟨field, fieldMember, fieldName⟩ := List.mem_map.mp again
    exact clear inner innerMember field fieldMember (innerName.trans fieldName.symm)
  · intro free inner innerMember field fieldMember same
    have isField : inner.name ∈ own.fields.map FieldDeclaration.name := same ▸ List.mem_map_of_mem fieldMember
    obtain ⟨start, starts, named⟩ := (body.inner _).mp (List.mem_map_of_mem innerMember)
    rw [named, bodyName] at isField
    split at isField
    · rename_i taken
      exact free ⟨_, start, body.fields, starts, taken, isField⟩
    · contradiction

/-- An object for which a class may be declared when the schema is emitted: the one that the schema leads to, or one
that a property of it reaches. -/
inductive Schema.Reaches : Schema → Schema → Prop
  | here {schema object : Schema} : schema.object? = some object → schema.Reaches object
  | inside {schema between object : Schema} {entry : Value × Schema} : schema.object? = some between →
      entry ∈ between.properties.getD [] → entry.2.Reaches object → schema.Reaches object

namespace Schema

variable {schema object : Schema}

/-- An object is reached from itself and what else is reached is reached from its properties. -/
theorem reaches_iff (self : schema.object? = some schema) :
    schema.Reaches object ↔ object = schema ∨ ∃ entry ∈ schema.properties.getD [], entry.2.Reaches object := by
  constructor
  · intro reach
    cases reach with
    | here leads => exact .inl (Option.some.inj (leads.symm.trans self))
    | inside leads member deeper =>
        obtain rfl := Option.some.inj (leads.symm.trans self)
        exact .inr ⟨_, member, deeper⟩
  · rintro (rfl | ⟨entry, member, deeper⟩)
    · exact .here self
    · exact .inside self member deeper

theorem not_reaches (none : schema.object? = none) : ¬schema.Reaches object := by
  intro reach
  cases reach with
  | here leads => cases none.symm.trans leads
  | inside leads => cases none.symm.trans leads

theorem Reaches.eq_of_leaves (reach : schema.Reaches object) (self : schema.object? = some schema)
    (leaves : ∀ entry ∈ schema.properties.getD [], entry.2.object? = none) : object = schema := by
  rcases (reaches_iff self).mp reach with same | ⟨entry, member, deeper⟩
  · exact same
  · exact absurd deeper (not_reaches (leaves entry member))

end Schema

def DescribedFrom (describes : ClassDeclaration → Schema → Prop) (reached : Schema → Prop)
    (declared : List ClassDeclaration) : Prop :=
  ∀ own ∈ declared, ∀ deep, own.Holds deep → ∃ object, reached object ∧ describes deep object

section

variable {describes : ClassDeclaration → Schema → Prop} {reached wider : Schema → Prop}
  {declared others : List ClassDeclaration}

theorem DescribedFrom.imp (implies : ∀ object, reached object → wider object)
    (described : DescribedFrom describes reached declared) : DescribedFrom describes wider declared := by
  intro own member deep holds
  obtain ⟨object, reach, describing⟩ := described own member deep holds
  exact ⟨object, implies object reach, describing⟩

theorem DescribedFrom.append (first : DescribedFrom describes reached declared)
    (rest : DescribedFrom describes reached others) : DescribedFrom describes reached (declared ++ others) :=
  List.forall_mem_append.mpr ⟨first, rest⟩

theorem DescribedFrom.nil : DescribedFrom describes reached [] := by
  simp [DescribedFrom]

theorem DescribedFrom.single {own : ClassDeclaration} {object : Schema} (reach : reached object)
    (describing : describes own object) (inside : DescribedFrom describes reached own.inner) :
    DescribedFrom describes reached [own] := by
  refine List.forall_mem_singleton.mpr ?_
  intro deep holds
  cases holds with
  | self => exact ⟨object, reach, describing⟩
  | inner member deeper => exact inside _ member deep deeper

theorem DescribedFrom.inside {schema : Schema} (self : schema.object? = some schema)
    (described : DescribedFrom describes
      (fun object => ∃ entry ∈ schema.properties.getD [], entry.2.Reaches object) declared) :
    DescribedFrom describes schema.Reaches declared := by
  refine described.imp ?_
  rintro object ⟨entry, member, reach⟩
  exact .inside self member reach

theorem DescribedFrom.property {key : Value} {schema : Schema} {rest : List (Value × Schema)}
    (first : DescribedFrom describes schema.Reaches declared)
    (later : DescribedFrom describes (fun object => ∃ entry ∈ rest, entry.2.Reaches object) others) :
    DescribedFrom describes (fun object => ∃ entry ∈ (key, schema) :: rest, entry.2.Reaches object)
      (declared ++ others) := by
  refine (first.imp ?_).append (later.imp ?_)
  · exact fun object reach => ⟨_, List.mem_cons_self, reach⟩
  · rintro object ⟨entry, member, reach⟩
    exact ⟨entry, List.mem_cons_of_mem _ member, reach⟩

theorem DescribedFrom.of_inner {schema inner : Schema} (same : schema.object? = inner.object?)
    (described : DescribedFrom describes inner.Reaches declared) :
    DescribedFrom describes schema.Reaches declared := by
  refine described.imp ?_
  intro object reach
  cases reach with
  | here leads => exact .here (same.trans leads)
  | inside leads member deeper => exact .inside (same.trans leads) member deeper

end

def BodiesFrom (reached : Schema → Prop) (declared : List ClassDeclaration) : Prop :=
  ∀ own ∈ declared, ∀ deep, own.Holds deep → ∃ object, reached object ∧ deep.BodyOf object

section

variable {reached wider : Schema → Prop} {declared others : List ClassDeclaration}

theorem BodiesFrom.imp (implies : ∀ object, reached object → wider object) (bodies : BodiesFrom reached declared) :
    BodiesFrom wider declared :=
  DescribedFrom.imp implies bodies

theorem BodiesFrom.append (first : BodiesFrom reached declared) (rest : BodiesFrom reached others) :
    BodiesFrom reached (declared ++ others) :=
  DescribedFrom.append first rest

theorem BodiesFrom.nil : BodiesFrom reached [] :=
  DescribedFrom.nil

end

namespace Registry

variable {registry : Registry} {suggested : Option String} {schema : Schema} {scope after : NamingScope}
  {declared inner : List ClassDeclaration} {type : TypeExpression} {fields : List FieldDeclaration}

/-- After an emission the scope has the name of the class that the schema leads to, declared now or before. -/
theorem emit_names (yields : Yields (registry.emit suggested schema) scope (declared, type) after) (name : String) :
    name ∈ after.names ↔
      name ∈ scope.names ∨ ∃ object start, schema.LeadsTo suggested object start ∧ name = scope.ownName start := by
  have growth := emit_grows yields
  have spec := emit_declares yields
  rw [growth.names, List.mem_append]
  cases found : schema.object? with
  | none =>
      simp only [Declares, found] at spec
      simp [spec, Schema.LeadsTo, found]
  | some object =>
      simp only [Declares, found] at spec
      obtain ⟨start, named, declaring⟩ := spec
      have only : (∃ other begin, schema.LeadsTo suggested other begin ∧ name = scope.ownName begin) ↔
          name = scope.ownName start := by
        simp [Schema.LeadsTo, found, named]
      rw [only]
      rcases declaring with ⟨known, rfl⟩ | ⟨own, rfl, ownName, -⟩
      · simp only [List.map_nil, List.not_mem_nil, or_false]
        constructor
        · exact .inl
        · rintro (present | rfl)
          · exact present
          · exact known
      · simp [ownName]

structure BodyEmitted (names : List String) (properties : List (Value × Schema)) (scope : NamingScope)
    (inner : List ClassDeclaration) (fields : List FieldDeclaration) (after : NamingScope) : Prop where
  grows : scope.Grows inner after
  named : fields.map FieldDeclaration.name = names
  taken : ∀ name, name ∈ after.names ↔
    name ∈ scope.names ∨ ∃ start, StartsAmong properties start ∧ name = scope.ownName start
  bodies : BodiesFrom (fun object => ∃ entry ∈ properties, entry.2.Reaches object) inner

theorem BodyEmitted.nil (scope : NamingScope) : BodyEmitted [] [] scope [] [] scope where
  grows := .refl scope
  named := rfl
  taken := by simp [StartsAmong]
  bodies := .nil

theorem BodyEmitted.cons {name jsonName : String} {names : List String} {required : List Value}
    {rest : List (Value × Schema)} {between : NamingScope}
    (yields : Yields (registry.emit (some (Naming.toIdentifierCamel jsonName)) schema) scope (declared, type) between)
    (first : BodiesFrom schema.Reaches declared) (later : BodyEmitted names rest between inner fields after) :
    BodyEmitted (name :: names) ((.string jsonName, schema) :: rest) scope (declared ++ inner)
      (fieldFor name jsonName required schema type :: fields) after where
  grows := (emit_grows yields).trans later.grows
  named := congrArg (name :: ·) later.named
  taken := by
    intro taken
    have same : ∀ start, between.ownName start = scope.ownName start :=
      NamingScope.ownName_of_reserved (emit_grows yields).reserved
    rw [later.taken, emit_names yields, or_assoc]
    refine or_congr_right ?_
    constructor
    · rintro (⟨object, start, leads, rfl⟩ | ⟨start, ⟨other, part, object, member, leads⟩, rfl⟩)
      · exact ⟨start, ⟨jsonName, schema, object, List.mem_cons_self, leads⟩, rfl⟩
      · exact ⟨start, ⟨other, part, object, List.mem_cons_of_mem _ member, leads⟩, same start⟩
    · rintro ⟨start, ⟨other, part, object, member, leads⟩, rfl⟩
      rcases List.mem_cons.mp member with this | member
      · cases this
        exact .inl ⟨object, start, leads, rfl⟩
      · exact .inr ⟨start, ⟨other, part, object, member, leads⟩, (same start).symm⟩
  bodies := DescribedFrom.property first later.bodies

/-- A class whose body is emitted for the properties of an object has the body of the object. -/
theorem BodyEmitted.class_bodies {names : List String} {name qualifiedName : String} {description : Value}
    {openEnded : Bool} (self : schema.object? = some schema)
    (found : fieldNames (schema.properties.getD []) = .ok names)
    (body : BodyEmitted names (schema.properties.getD []) ((scope.child name).reserve names) inner fields after) :
    BodiesFrom schema.Reaches [⟨name, qualifiedName, description, fields, inner, openEnded⟩] := by
  refine DescribedFrom.single (.here self) ⟨?_, ?_⟩ (DescribedFrom.inside self body.bodies)
  · rw [body.named]
    exact found
  · intro other
    -- The scope of a body begins without names, so that those it ends with are the names of the classes inside.
    have emitted := body.taken other
    rw [body.grows.names, List.mem_append] at emitted
    have empty : other ∉ ((scope.child name).reserve names).names := List.not_mem_nil
    rw [or_iff_right empty, or_iff_right empty] at emitted
    rw [emitted]
    refine exists_congr fun begin => and_congr_right fun _ => ?_
    rw [NamingScope.ownName_eq, bodyName, body.named]
    simp [NamingScope.mem_reserve, NamingScope.child]

theorem emit_bodies (yields : Yields (registry.emit suggested schema) scope (declared, type) after) :
    BodiesFrom schema.Reaches declared := by
  refine registry.emit_induction (fun _ schema _ declared _ _ => BodiesFrom schema.Reaches declared)
    (fun _ _ names properties scope inner fields after => names.length = properties.length →
      BodyEmitted names properties scope inner fields after)
    ?leaf ?present ?absent ?map ?array ?union ?done ?property
    suggested schema scope declared type after yields
  case leaf | present =>
    intros
    exact .nil
  case absent =>
    intro _ schema properties _ _ _ _ _ _ shape _ _ found body
    obtain ⟨-, -, given⟩ := Schema.emissionShape_struct shape
    obtain rfl : schema.properties.getD [] = properties := by rw [given, Option.getD_some]
    have self : schema.object? = some schema := by rw [schema.object?_eq, shape]
    exact (body (fieldNames_length found)).class_bodies self found
  case map | array | union =>
    intro _ schema inner _ _ _ _ shape ih
    exact DescribedFrom.of_inner (by rw [schema.object?_eq, shape]) ih
  case done =>
    intro _ _ names properties scope finished count
    obtain rfl := properties_eq_nil finished count
    obtain rfl := List.length_eq_zero_iff.mp count
    exact .nil scope
  case property =>
    intro _ _ _ _ _ _ _ _ _ _ _ _ _ _ emitted first ih count
    exact .cons emitted first (ih (Nat.succ.inj count))

theorem emitFields_emitted {owner : String} {required : List Value} {names : List String}
    {properties : List (Value × Schema)} (count : names.length = properties.length)
    (yields : Yields (registry.emitFields owner required names properties) scope (inner, fields) after) :
    BodyEmitted names properties scope inner fields after := by
  induction properties generalizing names scope inner fields with
  | nil =>
      obtain ⟨rfl, rfl, rfl⟩ := emitFields_nil_yields (.inr rfl) yields
      obtain rfl := List.length_eq_zero_iff.mp count
      exact .nil _
  | cons entry rest ih =>
      cases names with
      | nil => contradiction
      | cons name names =>
          obtain ⟨key, part⟩ := entry
          obtain ⟨jsonName, _, _, _, _, _, rfl, emitted, following, rfl, rfl⟩ := emitFields_cons_yields yields
          exact .cons emitted (emit_bodies emitted) (ih (Nat.succ.inj count) following)

theorem buildClass_fields {name : String} {description : Option String} {own : ClassDeclaration}
    (built : (registry.buildClass schema name (scope.child name) description).result = .ok own) :
    List.Forall₂ (FieldDeclaration.StandsFor schema.keywords.required) (schema.properties.getD []) own.fields ∧
      (own.fields.map FieldDeclaration.name).Nodup := by
  obtain ⟨last, yields⟩ := inside_ok.mp built
  obtain ⟨names, inner, fields, found, body, rfl⟩ := declareWith_yields yields
  have count := fieldNames_length found
  refine ⟨emitFields_standing count body, ?_⟩
  rw [(emitFields_emitted count body).named]
  exact fieldNames_nodup found

theorem buildClass_bodies {name : String} {description : Option String} {own : ClassDeclaration}
    (self : schema.object? = some schema)
    (built : (registry.buildClass schema name (scope.child name) description).result = .ok own) :
    BodiesFrom schema.Reaches [own] := by
  obtain ⟨last, yields⟩ := inside_ok.mp built
  obtain ⟨names, inner, fields, found, body, rfl⟩ := declareWith_yields yields
  exact (emitFields_emitted (fieldNames_length found) body).class_bodies self found

theorem emitNamed_bodies {named : NamedSchema}
    (emitted : (registry.emitNamed named).result = .ok (declared, type)) :
    BodiesFrom named.schema.Reaches declared := by
  unfold emitNamed at emitted
  split at emitted
  · rename_i struct
    obtain ⟨own, built, same⟩ := Traced.bind_ok.mp emitted
    obtain ⟨rfl, -⟩ := Prod.mk.inj (Traced.pure_ok.mp same)
    obtain ⟨properties, -, shape⟩ := Schema.emissionShape_of_isStruct struct
    have self : named.schema.object? = some named.schema := by rw [named.schema.object?_eq, shape]
    exact buildClass_bodies self built
  · obtain ⟨last, yields⟩ := inside_ok.mp emitted
    exact emit_bodies yields

end Registry

end OpenApiClient
