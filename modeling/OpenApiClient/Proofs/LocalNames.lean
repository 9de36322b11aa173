import OpenApiClient.Proofs.Naming
import OpenApiClient.Proofs.References
import OpenApiClient.Proofs.ScopeGrowth

/-! The local names of declarations. A name in a type stands for a class that is declared, except where the
type of a schema is one that is not known and its only alternative leads to an object. -/

namespace OpenApiClient

open InScope

inductive ClassDeclaration.Closed : ClassDeclaration → Prop
  | intro {declared : ClassDeclaration} :
      (∀ field ∈ declared.fields, ∀ name ∈ field.type.localNames,
        name ∈ declared.inner.map ClassDeclaration.qualifiedName) →
      (∀ inner ∈ declared.inner, inner.Closed) → declared.Closed

/-- No local name dangles: those of the type are declared or known in the scope, and the classes that are
declared are closed. -/
def NoneDangling (scope : NamingScope) (declared : List ClassDeclaration) (type : TypeExpression) : Prop :=
  (∀ name ∈ type.localNames,
    name ∈ declared.map (fun own => scope.qualify own.name) ∨ name ∈ scope.visible) ∧
    ∀ own ∈ declared, own.Closed

def NoneDanglingInBody (scope : NamingScope) (inner : List ClassDeclaration)
    (fields : List FieldDeclaration) : Prop :=
  (∀ field ∈ fields, ∀ name ∈ field.type.localNames,
    name ∈ inner.map (fun own => scope.qualify own.name) ∨ name ∈ scope.visible) ∧
    ∀ own ∈ inner, own.Closed

namespace Registry

mutual

/-- The emission of a schema comes to a place where a local name is used and no class is declared for it: the
type of a schema there is not known, and its only alternative is taken for its type. -/
inductive Unbound (registry : Registry) :
    Option String → Schema → NamingScope → String → NamingScope → Prop
  | unknownType {suggested schema member type scope name} : schema.keywords.isReference = false →
      schema.typeName = .other → schema.anyOf = some [member] →
      (registry.typeOf suggested member).result = .ok type → name ∈ type.localNames →
      Unbound registry suggested schema scope name scope
  | items {suggested schema items scope name place} : schema.emissionShape = .array items →
      Unbound registry suggested items scope name place → Unbound registry suggested schema scope name place
  | value {suggested schema value scope name place} : schema.emissionShape = .map value →
      Unbound registry suggested value scope name place → Unbound registry suggested schema scope name place
  | member {suggested schema member scope name place} : schema.emissionShape = .union member →
      Unbound registry suggested member scope name place → Unbound registry suggested schema scope name place
  | property {suggested schema properties scope start names name place} :
      schema.emissionShape = .struct properties → structName schema.keywords suggested = .ok start →
      scope.ownName start ∉ scope.names → fieldNames properties = .ok names →
      UnboundInBody registry properties ((scope.child (scope.ownName start)).reserve names) name place →
      Unbound registry suggested schema scope name place

inductive UnboundInBody (registry : Registry) :
    List (Value × Schema) → NamingScope → String → NamingScope → Prop
  | here {jsonName schema rest scope name place} :
      Unbound registry (some (Naming.toIdentifierCamel jsonName)) schema scope name place →
      UnboundInBody registry ((.string jsonName, schema) :: rest) scope name place
  | later {jsonName schema rest scope declared type between name place} :
      Yields (registry.emit (some (Naming.toIdentifierCamel jsonName)) schema) scope (declared, type)
        between →
      UnboundInBody registry rest between name place →
      UnboundInBody registry ((.string jsonName, schema) :: rest) scope name place

end

variable {registry : Registry} {suggested : Option String} {schema : Schema} {type : TypeExpression}

theorem structName_cases {keywords : Keywords} {name : String}
    (found : structName keywords suggested = .ok name) :
    (∃ title, keywords.title = .string title ∧ title ≠ "" ∧ name = Naming.toIdentifierCamel title) ∨
      keywords.title.truth = false ∧ suggested = some name ∧ name ≠ "" := by
  unfold structName at found
  split at found
  · rename_i given
    obtain ⟨title, read, same⟩ := except_bind_ok.mp found
    have text := Value.asPattern_ok.mp (except_lift_ok.mp read)
    rw [text] at given
    exact .inl ⟨title, text, by simpa [Value.truth] using given, (except_pure_ok.mp same).symm⟩
  · rename_i untitled
    split at found
    · cases found
    · cases found
    · rename_i filled
      obtain rfl := Except.ok.inj found
      exact .inr ⟨by simpa using untitled, rfl, fun empty => filled (by rw [empty])⟩

theorem structName_untitled {keywords : Keywords} {name : String} (untitled : keywords.title.truth = false)
    (filled : name ≠ "") : structName keywords (some name) = .ok name := by
  unfold structName
  simp only [untitled, Bool.false_eq_true, ↓reduceIte]

theorem structName_ne_empty {keywords : Keywords} {name : String}
    (found : structName keywords suggested = .ok name) : name ≠ "" := by
  rcases structName_cases found with ⟨title, -, -, rfl⟩ | ⟨-, -, filled⟩
  · exact Naming.toIdentifierCamel_ne_empty title
  · exact filled

def Dotless (suggested : Option String) : Prop := ∀ name, suggested = some name → '.' ∉ name.toList

theorem dotless_camel (name : String) : Dotless (some (Naming.toIdentifierCamel name)) := by
  rintro _ ⟨⟩
  exact Naming.toIdentifierCamel_dotless name

theorem structName_dotless {keywords : Keywords} {name : String} (dotless : Dotless suggested)
    (found : structName keywords suggested = .ok name) : '.' ∉ name.toList := by
  rcases structName_cases found with ⟨title, -, -, rfl⟩ | ⟨-, same, -⟩
  · exact Naming.toIdentifierCamel_dotless title
  · exact dotless name same

theorem HasType.dotless (typed : registry.HasType suggested schema type) (dotless : Dotless suggested) :
    ∀ name ∈ type.localNames, '.' ∉ name.toList := by
  induction typed with
  | reference => simp [TypeExpression.localNames]
  | plain _ none => simp [none]
  | struct _ found => simpa [TypeExpression.localNames] using structName_dotless dotless found
  | array _ _ _ _ ih | map _ _ _ _ _ ih | union _ _ _ _ ih => exact ih

theorem typeOf_union {member : Schema} (plain : schema.keywords.isReference = false)
    (kind : schema.typeName = .absent ∨ schema.typeName = .other) (found : schema.anyOf = some [member]) :
    registry.typeOf suggested schema = registry.typeOf suggested member := by
  obtain ⟨keywords, items, properties, additional, _, oneOf, allOf⟩ := schema
  change keywords.typeName = _ ∨ keywords.typeName = _ at kind
  subst found
  rw [typeOf.eq_def]
  rcases kind with kind | kind <;> simp [plain, kind]

theorem HasType.of_leaf (typed : registry.HasType suggested schema type)
    (shape : schema.emissionShape = .leaf) {name : String} (used : name ∈ type.localNames) :
    schema.keywords.isReference = false ∧ schema.typeName = .other ∧
      ∃ member, schema.anyOf = some [member] := by
  cases typed with
  | reference => simp [TypeExpression.localNames] at used
  | plain _ none => simp [none] at used
  | struct struct =>
      obtain ⟨properties, -, other⟩ := Schema.emissionShape_of_isStruct struct
      simp [other] at shape
  | array plain kind found =>
      obtain ⟨keywords, items, properties, additional, anyOf, oneOf, allOf⟩ := schema
      simp_all [Schema.emissionShape, Schema.typeName]
  | map plain kind absent found =>
      obtain ⟨keywords, items, properties, additional, anyOf, oneOf, allOf⟩ := schema
      simp_all [Schema.emissionShape, Schema.typeName]
  | union plain kind found =>
      refine ⟨plain, kind.resolve_left fun kind => ?_, _, found⟩
      obtain ⟨keywords, items, properties, additional, anyOf, oneOf, allOf⟩ := schema
      simp_all [Schema.emissionShape, Schema.typeName]

theorem unbound_leaf_iff {scope place : NamingScope} {name : String} (shape : schema.emissionShape = .leaf)
    (typing : (registry.typeOf suggested schema).result = .ok type) :
    registry.Unbound suggested schema scope name place ↔ name ∈ type.localNames ∧ place = scope := by
  constructor
  · intro unbound
    cases unbound with
    | unknownType plain kind found typed used =>
        rw [typeOf_union plain (.inr kind) found] at typing
        obtain rfl := Except.ok.inj (typing.symm.trans typed)
        exact ⟨used, rfl⟩
    | items other | value other | member other | property other => simp [other] at shape
  · rintro ⟨used, rfl⟩
    obtain ⟨plain, kind, member, found⟩ := (typeOf_hasType typing).of_leaf shape used
    rw [typeOf_union plain (.inr kind) found] at typing
    exact .unknownType plain kind found typing used

/-- A local name of a type is declared, or known in the scope, or has no dot. -/
theorem emit_localNames {scope after : NamingScope} {declared : List ClassDeclaration}
    (yields : Yields (registry.emit suggested schema) scope (declared, type) after)
    (dotless : Dotless suggested) {name : String} (used : name ∈ type.localNames) :
    name ∈ declared.map (fun own => scope.qualify own.name) ∨ name ∈ scope.visible ∨ '.' ∉ name.toList := by
  revert dotless used
  refine registry.emit_induction
    (fun suggested _ scope declared type _ => Dotless suggested → name ∈ type.localNames →
      name ∈ declared.map (fun own => scope.qualify own.name) ∨ name ∈ scope.visible ∨ '.' ∉ name.toList)
    (fun _ _ _ _ _ _ _ _ => True) ?leaf ?present ?absent ?map ?array ?union ?done ?property
    suggested schema scope declared type after yields
  case leaf =>
    exact fun _ _ _ _ _ typing dotless used => .inr (.inr ((typeOf_hasType typing).dotless dotless name used))
  case present =>
    intro _ _ _ scope _ _ _ known _ used
    obtain rfl := List.mem_singleton.mp used
    exact .inr (.inl (List.mem_map_of_mem known))
  case absent => exact fun _ _ _ _ _ _ _ _ _ _ _ _ _ _ _ used => .inl used
  case map | array | union => exact fun _ _ _ _ _ _ _ _ ih => ih
  case done | property => simp

variable {scope between after place : NamingScope} {declared inner : List ClassDeclaration}
  {fields : List FieldDeclaration} {name : String}

theorem qualify_dotted {owner : String} (owned : scope.owner = some owner) (filled : owner ≠ "")
    (name : String) : '.' ∈ (scope.qualify name).toList := by
  unfold NamingScope.qualify
  split
  · simp_all
  · simp_all
  · simp

/-- A class body is closed when the type of its first property is and the rest of the body is. -/
theorem noneDanglingInBody_cons {jsonName : String} {field : FieldDeclaration}
    (emitted : Yields (registry.emit (some (Naming.toIdentifierCamel jsonName)) schema) scope (declared, type)
      between)
    (dotted : ∀ name, '.' ∈ (scope.qualify name).toList) (typed : field.type = type) :
    NoneDanglingInBody scope (declared ++ inner) (field :: fields) ↔
      NoneDangling scope declared type ∧ NoneDanglingInBody between inner fields := by
  have growth := emit_grows emitted
  simp only [NoneDanglingInBody, NoneDangling, List.forall_mem_cons, typed,
    growth.visible, growth.qualify, List.map_append, List.mem_append]
  constructor
  · rintro ⟨⟨first, rest⟩, closed⟩
    refine ⟨⟨fun name used => ?_, fun own member => closed own (.inl member)⟩,
      fun field member name used => ?_, fun own member => closed own (.inr member)⟩
    · rcases emit_localNames emitted (dotless_camel jsonName) used with own | known | dotless
      · exact .inl own
      · exact .inr known
      · rcases first name used with (own | later) | known
        · exact .inl own
        · obtain ⟨own, -, rfl⟩ := List.mem_map.mp later
          exact absurd (dotted own.name) dotless
        · exact .inr known
    · rcases rest field member name used with (own | later) | known
      · exact .inr (.inr own)
      · exact .inl later
      · exact .inr (.inl known)
  · rintro ⟨⟨first, closedFirst⟩, rest, closedRest⟩
    refine ⟨⟨fun name used => ?_, fun field member name used => ?_⟩,
      fun own member => member.elim (closedFirst own) (closedRest own)⟩
    · exact (first name used).imp_left .inl
    · rcases rest field member name used with later | known | own
      · exact .inl (.inr later)
      · exact .inr known
      · exact .inl (.inl own)

theorem unboundInBody_cons {jsonName : String} {rest : List (Value × Schema)}
    (emitted : Yields (registry.emit (some (Naming.toIdentifierCamel jsonName)) schema) scope (declared, type)
      between) :
    registry.UnboundInBody ((.string jsonName, schema) :: rest) scope name place ↔
      registry.Unbound (some (Naming.toIdentifierCamel jsonName)) schema scope name place ∨
        registry.UnboundInBody rest between name place := by
  constructor
  · intro unbound
    cases unbound with
    | here unbound => exact .inl unbound
    | later again unbound =>
        obtain ⟨-, rfl⟩ := emitted.unique again
        exact .inr unbound
  · rintro (unbound | unbound)
    · exact .here unbound
    · exact .later emitted unbound

theorem unbound_struct {properties : List (Value × Schema)} {start : String}
    (shape : schema.emissionShape = .struct properties)
    (named : structName schema.keywords suggested = .ok start)
    (unbound : registry.Unbound suggested schema scope name place) :
    scope.ownName start ∉ scope.names ∧
      ∃ names, fieldNames properties = .ok names ∧
        registry.UnboundInBody properties ((scope.child (scope.ownName start)).reserve names) name place := by
  cases unbound with
  | property other again absent found unbound =>
      obtain rfl := EmissionShape.struct.inj (shape.symm.trans other)
      obtain rfl := Except.ok.inj (named.symm.trans again)
      exact ⟨absent, _, found, unbound⟩
  | unknownType plain kind => simp [Schema.emissionShape_of_other kind] at shape
  | items other | value other | member other => simp [other] at shape

theorem unbound_wraps_iff {part : Schema} (wraps : schema.Wraps part) :
    registry.Unbound suggested schema scope name place ↔
      registry.Unbound suggested part scope name place := by
  constructor
  · intro unbound
    cases unbound with
    | items other inner | value other inner | member other inner =>
        rcases wraps with shape | shape | shape <;> cases shape.symm.trans other
        exact inner
    | property other => rcases wraps with shape | shape | shape <;> simp [other] at shape
    | unknownType plain kind =>
        rcases wraps with shape | shape | shape <;> simp [Schema.emissionShape_of_other kind] at shape
  · intro inner
    cases wraps with
    | map shape => exact .value shape inner
    | array shape => exact .items shape inner
    | union shape => exact .member shape inner

theorem ownName_ne_empty {start : String} (filled : start ≠ "") : scope.ownName start ≠ "" := by
  unfold NamingScope.ownName
  split
  · simp
  · exact filled

theorem closed_iff (own : ClassDeclaration) {body : NamingScope} (empty : body.names = [])
    (growth : body.Grows own.inner after) :
    own.Closed ↔ NoneDanglingInBody body own.inner own.fields := by
  have same : own.inner.map (fun inner => body.qualify inner.name) =
      own.inner.map ClassDeclaration.qualifiedName :=
    List.map_congr_left fun inner member => (growth.qualified inner member).symm
  have unseen : body.visible = [] := by simp [NamingScope.visible, empty]
  simp only [NoneDanglingInBody, same, unseen, List.not_mem_nil, or_false]
  constructor
  · rintro ⟨bound, closed⟩
    exact ⟨bound, closed⟩
  · rintro ⟨bound, closed⟩
    exact .intro bound closed

/-- After an emission no local name dangles, exactly when every place without a class of its own finds one in
the scope there. -/
theorem emit_noneDangling_iff
    (yields : Yields (registry.emit suggested schema) scope (declared, type) after) :
    NoneDangling scope declared type ↔
      ∀ name place, registry.Unbound suggested schema scope name place → name ∈ place.visible := by
  refine registry.emit_induction
    (fun suggested schema scope declared type _ => NoneDangling scope declared type ↔
      ∀ name place, registry.Unbound suggested schema scope name place → name ∈ place.visible)
    (fun _ _ names properties scope inner fields after => names.length = properties.length →
      (∀ name, '.' ∈ (scope.qualify name).toList) → scope.Grows inner after ∧
        (NoneDanglingInBody scope inner fields ↔
          ∀ name place, registry.UnboundInBody properties scope name place → name ∈ place.visible))
    ?leaf ?present ?absent ?map ?array ?union ?done ?property
    suggested schema scope declared type after yields
  case leaf =>
    intro suggested schema scope type shape typing
    simp [NoneDangling, unbound_leaf_iff shape typing]
  case present =>
    intro suggested schema properties scope start shape named known
    refine ⟨fun _ _ _ unbound => absurd known (unbound_struct shape named unbound).1, fun _ => ⟨?_, by simp⟩⟩
    exact List.forall_mem_singleton.mpr (.inr (List.mem_map_of_mem known))
  case absent =>
    intro suggested schema properties scope start names inner fields last shape named fresh found body
    have filled : scope.qualify (scope.ownName start) ≠ "" := fun empty =>
      ownName_ne_empty (structName_ne_empty named) (NamingScope.eq_of_qualify_empty empty)
    obtain ⟨growth, closed⟩ := body (fieldNames_length found) (qualify_dotted rfl filled)
    have entered : ∀ name place, registry.Unbound suggested schema scope name place ↔
        registry.UnboundInBody properties ((scope.child (scope.ownName start)).reserve names) name place := by
      refine fun name place => ⟨fun unbound => ?_, .property shape named fresh found⟩
      obtain ⟨-, others, again, unbound⟩ := unbound_struct shape named unbound
      obtain rfl := Except.ok.inj (found.symm.trans again)
      exact unbound
    simp only [entered, ← closed]
    rw [NoneDangling, List.forall_mem_singleton]
    refine (and_iff_right ?_).trans (closed_iff _ rfl growth)
    exact List.forall_mem_singleton.mpr (.inl (List.mem_singleton_self _))
  case map =>
    intro _ _ _ _ _ _ _ shape ih
    simp only [unbound_wraps_iff (.map shape)]
    exact ih
  case array =>
    intro _ _ _ _ _ _ _ shape ih
    simp only [unbound_wraps_iff (.array shape)]
    exact ih
  case union =>
    intro _ _ _ _ _ _ _ shape ih
    simp only [unbound_wraps_iff (.union shape)]
    exact ih
  case done =>
    intro owner required names properties scope finished same dotted
    obtain rfl := properties_eq_nil finished same
    refine ⟨.refl scope, ⟨fun _ _ _ unbound => ?_, fun _ => ⟨by simp, by simp⟩⟩⟩
    cases unbound
  case property =>
    intro _ _ _ _ jsonName schema rest scope declared type between _ _ _ emitted first ih same dotted
    have growth := emit_grows emitted
    obtain ⟨restGrowth, closed⟩ := ih (Nat.succ.inj same) fun name => (growth.qualify name).symm ▸ dotted name
    refine ⟨growth.trans restGrowth, ?_⟩
    rw [noneDanglingInBody_cons emitted dotted rfl, first, closed]
    simp only [unboundInBody_cons emitted, or_imp, forall_and]

def folder : Schema where
  keywords := { type := .string "object" }
  properties := some [(.string "owner", { keywords := { type := .string "object" }, properties := some [] })]

theorem folder_noneDangling :
    ∃ declared type after,
      Yields ((Registry.empty none).close.emit (some "Folder") folder) {} (declared, type) after ∧
        declared.map (fun own => (own.qualifiedName, own.inner.map ClassDeclaration.qualifiedName)) =
          [("Folder", ["Folder.Owner"])] ∧
        NoneDangling {} declared type := by
  obtain ⟨declared, type, after, yields, classes⟩ : ∃ declared type after,
      Yields ((Registry.empty none).close.emit (some "Folder") folder) {} (declared, type) after ∧
        declared.map (fun own => (own.qualifiedName, own.inner.map ClassDeclaration.qualifiedName)) =
          [("Folder", ["Folder.Owner"])] := ⟨_, _, _, ⟨rfl, rfl⟩, rfl⟩
  refine ⟨declared, type, after, yields, classes, (emit_noneDangling_iff yields).mpr ?_⟩
  intro name place unbound
  obtain ⟨-, _, -, inFolder⟩ := unbound_struct rfl rfl unbound
  cases inFolder with
  | here unbound =>
      obtain ⟨-, _, -, inOwner⟩ := unbound_struct rfl rfl unbound
      cases inOwner
  | later _ inFolder => cases inFolder

def upload : Schema where
  keywords := { type := .string "file" }
  anyOf := some [{ keywords := { type := .string "object" }, properties := some [] }]

theorem upload_dangles :
    Yields ((Registry.empty none).close.emit (some "Upload") upload) {} ([], .named none "Upload") {} ∧
      ¬NoneDangling {} [] (.named none "Upload") := by
  refine ⟨⟨rfl, rfl⟩, fun sound => ?_⟩
  simpa [NamingScope.visible] using sound.1 "Upload" (List.mem_singleton_self _)

end Registry
end OpenApiClient
