import Mathlib
import OpenApiClient.Proofs.Records

/-! Writing a record and reading it back. What is lost on the way is a null in a field that has no default:
nothing is written for it, and then there is nothing to make the record of. -/

namespace OpenApiClient.Client

namespace DataType

inductive AtMostOptional : DataType → Prop
  | single {type : DataType} : (∀ members, type ≠ .union members) → AtMostOptional type
  | optional {type : DataType} : (∀ members, type ≠ .union members) → type.isNothing = false →
      AtMostOptional (.union [type, .nothing])

theorem AtMostOptional.oneOf {type : DataType} (simple : type.AtMostOptional) :
    (DataType.oneOf [type, .nothing]).AtMostOptional ∧
      (DataType.oneOf [type, .nothing]).essence = type.essence := by
  cases simple with
  | single plain =>
      cases type with
      | nothing => exact ⟨.single (by simp [DataType.oneOf, distinct, alternatives, same]), rfl⟩
      | union members => exact absurd rfl (plain members)
      | _ => exact ⟨.optional plain rfl, rfl⟩
  | @optional type plain filled =>
      cases type with
      | nothing => cases filled
      | union members => exact absurd rfl (plain members)
      | _ => exact ⟨.optional plain rfl, rfl⟩

/-- The values of a type that is not made of others. Where the type does not say what there is, the values
are JSON data. -/
def Holds : DataType → Value → Prop
  | .text, .string _ | .truth, .bool _ | .integer, .int _ | .integer, .bool _ | .float, .float _ => True
  | .any, data => data.IsJson
  | .array, .array items => (Value.array items).IsJson
  | .object, .object members => (Value.object members).IsJson
  | _, _ => False

theorem Holds.isJson {type : DataType} {value : Value} (holds : type.Holds value) : value.IsJson := by
  unfold Holds at holds
  split at holds
  · exact .string _
  · exact .bool _
  · exact .int _
  · exact .bool _
  · exact .float _
  · exact holds
  · exact holds
  · exact holds
  · contradiction

end DataType

namespace WrittenType

/-- Annotations as the generator writes them: types that are known by name, null, and lists, maps and
optional ones of annotations. -/
def isKnown (classes : Classes) : WrittenType → Bool
  | .named name => ((builtinTypes ++ importedTypes).lookup name).isSome || (classes.find? name).isSome
  | .null => true
  | .list item | .map item | .optional item => item.isKnown classes
  | .union _ | .alternatives _ => false

end WrittenType

theorem namedType_single (name : String) : ∀ members, namedType name ≠ .union members := by
  intro members union
  have known : ∀ pair ∈ builtinTypes ++ importedTypes, ∀ members, pair.2 ≠ .union members := by
    simp [builtinTypes, importedTypes]
  unfold namedType at union
  cases found : (builtinTypes ++ importedTypes).lookup name with
  | none =>
      rw [found] at union
      cases union
  | some type =>
      obtain ⟨before, after, split, -⟩ := List.lookup_eq_some_iff.mp found
      rw [found, Option.getD_some] at union
      exact known (name, type) (by simp [split]) members union

namespace Classes

/-- A table of classes as the generator declares them, all in the modules of one package. -/
structure Generated (classes : Classes) : Prop where
  regular : ∀ recordClass ∈ classes.list, recordClass.Regular
  packaged : ∀ recordClass ∈ classes.list, recordClass.surroundings = .package ∧ recordClass.shared = true
  annotated : ∀ recordClass ∈ classes.list, ∀ field ∈ recordClass.fields,
    field.type.isKnown classes = true

inductive Inhabits (classes : Classes) : WrittenType → Value → Prop
  | plain {name : String} {value : Value} : (namedType name).Holds value → Inhabits classes (.named name) value
  | record {name : String} {recordClass : RecordClass} {value : RecordField → Value} :
      namedType name = .record name → classes.find? name = some recordClass →
      (∀ field ∈ recordClass.fields, Inhabits classes field.type (value field)) →
      Inhabits classes (.named name)
        (.record name (recordClass.fields.map fun field => (field.name, value field)))
  | null : Inhabits classes .null .null
  | list {item : WrittenType} {items : List Value} : (∀ value ∈ items, Inhabits classes item value) →
      Inhabits classes (.list item) (.array items)
  | map {item : WrittenType} {members : List (String × Value)} : (members.map Prod.fst).Nodup →
      (∀ member ∈ members, Inhabits classes item member.2) →
      Inhabits classes (.map item) (.ofMembers members)
  | absent {item : WrittenType} : Inhabits classes (.optional item) .null
  | present {item : WrittenType} {value : Value} : Inhabits classes item value →
      Inhabits classes (.optional item) value

theorem Inhabits.ofFields {classes : Classes} {name : String} {recordClass : RecordClass}
    {fields : List (String × Value)} (single : namedType name = .record name)
    (found : classes.find? name = some recordClass)
    (listed : fields = recordClass.fields.map fun field =>
      (field.name, (Entries.find? field.name fields).getD .null))
    (each : ∀ field ∈ recordClass.fields,
      classes.Inhabits field.type ((Entries.find? field.name fields).getD .null)) :
    classes.Inhabits (.named name) (.record name fields) := by
  rw [listed]
  exact .record single found each

/-- The keys of a value that an annotation stands for are texts, so that the value has a JSON form. -/
theorem Inhabits.jsonForm {classes : Classes} {written : WrittenType} {value : Value}
    (inhabits : classes.Inhabits written value) : classes.jsonForm value = .ok (classes.toJson value) := by
  have keyed : value.hasLongKey = false := by
    induction inhabits with
    | plain holds => exact holds.isJson.hasLongKey
    | record _ _ _ ih => exact Value.hasLongKey_record (List.forall_mem_map.mpr ih)
    | null | absent => rfl
    | list _ ih => exact Value.hasLongKey_array ih
    | map _ _ ih => exact Value.hasLongKey_ofMembers ih
    | present _ ih => exact ih
  rw [Classes.jsonForm, keyed]
  rfl

/-- Somewhere in the value is a record with null in a field that has no default. -/
inductive HidesNull (classes : Classes) : Value → Prop
  | here {name : String} {recordClass : RecordClass} {field : RecordField} {fields : List (String × Value)} :
      classes.find? name = some recordClass → field ∈ recordClass.fields → field.default = none →
      (field.name, .null) ∈ fields → HidesNull classes (.record name fields)
  | inField {name fieldName : String} {fields : List (String × Value)} {value : Value} :
      (fieldName, value) ∈ fields → HidesNull classes value → HidesNull classes (.record name fields)
  | inItem {items : List Value} {item : Value} : item ∈ items → HidesNull classes item →
      HidesNull classes (.array items)
  | inMember {members : List (Value × Value)} {key value : Value} : (key, value) ∈ members →
      HidesNull classes value → HidesNull classes (.object members)

variable {classes : Classes} {name : String} {type itemType : DataType} {value : Value}

theorem hidesNull_array_iff {items : List Value} :
    classes.HidesNull (.array items) ↔ ∃ item ∈ items, classes.HidesNull item := by
  constructor
  · rintro (_ | _ | ⟨among, hides⟩ | _)
    exact ⟨_, among, hides⟩
  · rintro ⟨item, among, hides⟩
    exact .inItem among hides

theorem hidesNull_ofMembers_iff {members : List (String × Value)} :
    classes.HidesNull (.ofMembers members) ↔ ∃ member ∈ members, classes.HidesNull member.2 := by
  rw [Value.ofMembers]
  constructor
  · rintro (_ | _ | _ | ⟨among, hides⟩)
    obtain ⟨⟨text, value⟩, present, same⟩ := List.mem_map.mp among
    obtain ⟨-, rfl⟩ := Prod.mk.inj same
    exact ⟨(text, value), present, hides⟩
  · rintro ⟨⟨text, value⟩, among, hides⟩
    have present : (Value.string text, value) ∈ members.map fun member => (Value.string member.1, member.2) :=
      List.mem_map.mpr ⟨(text, value), among, rfl⟩
    exact .inMember present hides

theorem hidesNull_record_iff {recordClass : RecordClass} (regular : recordClass.Regular)
    (found : classes.find? name = some recordClass) {value : RecordField → Value} :
    classes.HidesNull (.record name (recordClass.fields.map fun field => (field.name, value field))) ↔
      ∃ field ∈ recordClass.fields,
        field.default = none ∧ value field = .null ∨ classes.HidesNull (value field) := by
  constructor
  · rintro (⟨known, member, required, among⟩ | ⟨among, hides⟩ | _ | _)
    · obtain rfl := Option.some.inj (found.symm.trans known)
      obtain ⟨own, present, same⟩ := List.mem_map.mp among
      obtain rfl := List.inj_on_of_nodup_map regular.names present member (congrArg Prod.fst same)
      exact ⟨own, member, .inl ⟨required, congrArg Prod.snd same⟩⟩
    · obtain ⟨own, present, same⟩ := List.mem_map.mp among
      obtain rfl : value own = _ := congrArg Prod.snd same
      exact ⟨own, present, .inr hides⟩
  · rintro ⟨field, member, ⟨required, null⟩ | hides⟩
    · exact .here found member required (List.mem_map.mpr ⟨field, member, by rw [null]⟩)
    · exact .inField (List.mem_map.mpr ⟨field, member, rfl⟩) hides

theorem not_hidesNull_of_isJson (json : value.IsJson) : ¬classes.HidesNull value := by
  induction json with
  | null | bool | int | float | string => intro hides; cases hides
  | array _ ih =>
      rw [hidesNull_array_iff]
      rintro ⟨item, among, hides⟩
      exact ih item among hides
  | object _ _ ih =>
      rw [hidesNull_ofMembers_iff]
      rintro ⟨member, among, hides⟩
      exact ih member among hides

/-! What an annotation of the table denotes. -/

theorem sees_named (generated : classes.Generated) {viewer : RecordClass} (member : viewer ∈ classes.list)
    (known : (WrittenType.named name).isKnown classes = true) : classes.sees viewer name = true := by
  obtain ⟨packaged, -⟩ := generated.packaged viewer member
  simp only [WrittenType.isKnown, List.lookup_append, Bool.or_eq_true] at known
  simp only [sees, packaged, isBuiltin, isImported, Bool.or_eq_true, List.any_eq_true, Bool.and_eq_true,
    beq_iff_eq]
  rcases known with known | known
  · cases builtin : builtinTypes.lookup name with
    | none =>
        rw [builtin, Option.none_or] at known
        exact .inr (.inl (.inl (.inl known)))
    | some type => exact .inl rfl
  · obtain ⟨recordClass, found⟩ := Option.isSome_iff_exists.mp known
    obtain ⟨among, named⟩ := find?_some found
    exact .inr (.inr ⟨recordClass, among, (generated.packaged recordClass among).2, named⟩)

theorem see_ok {visible : String → Bool} (seen : visible name = true) : see visible name = .ok () :=
  if_pos seen

theorem denote_known (generated : classes.Generated) {viewer : RecordClass}
    (member : viewer ∈ classes.list) : ∀ written : WrittenType, written.isKnown classes = true →
      ∃ type, written.denote (classes.sees viewer) = .ok type
  | .named name, known => by
      refine ⟨namedType name, ?_⟩
      rw [WrittenType.denote, see_ok (sees_named generated member known)]
      rfl
  | .null, _ => ⟨.nothing, rfl⟩
  | .list item, known => by
      obtain ⟨type, denoted⟩ := denote_known generated member item known
      refine ⟨.list type, ?_⟩
      rw [WrittenType.denote, see_ok (by simp [sees, isBuiltin, builtinTypes]), denoted]
      rfl
  | .map item, known => by
      obtain ⟨type, denoted⟩ := denote_known generated member item known
      refine ⟨.map type, ?_⟩
      rw [WrittenType.denote, see_ok (by simp [sees, isBuiltin, builtinTypes]),
        see_ok (by simp [sees, isBuiltin, builtinTypes]), denoted]
      rfl
  | .optional item, known => by
      obtain ⟨type, denoted⟩ := denote_known generated member item known
      obtain ⟨packaged, -⟩ := generated.packaged viewer member
      refine ⟨.oneOf [type, .nothing], ?_⟩
      rw [WrittenType.denote, see_ok (by simp [sees, packaged, isImported, importedForms]), denoted]
      rfl

theorem fieldTypes_generated (generated : classes.Generated) {recordClass : RecordClass}
    (member : recordClass ∈ classes.list) : ∃ typed, classes.fieldTypes recordClass = .ok typed := by
  refine succeeds_mapM.mpr fun field among => ?_
  obtain ⟨type, denoted⟩ :=
    denote_known generated member field.type (generated.annotated recordClass member field among)
  exact ⟨(field, type), by rw [denoted]⟩

theorem denote_atMostOptional {visible : String → Bool} : ∀ (written : WrittenType) {type : DataType},
    written.isKnown classes = true → written.denote visible = .ok type → type.AtMostOptional
  | .named name, type, _, denoted => by
      obtain ⟨_, -, same⟩ := except_bind_ok.mp denoted
      obtain rfl := except_pure_ok.mp same
      exact .single (namedType_single name)
  | .null, type, _, denoted => by
      obtain rfl := Except.ok.inj denoted
      exact .single (by simp)
  | .list item, type, _, denoted => by
      obtain ⟨_, -, denoted⟩ := except_bind_ok.mp denoted
      obtain ⟨_, -, rfl⟩ := except_map_ok.mp denoted
      exact .single (by simp)
  | .map item, type, _, denoted => by
      obtain ⟨_, -, denoted⟩ := except_bind_ok.mp denoted
      obtain ⟨_, -, denoted⟩ := except_bind_ok.mp denoted
      obtain ⟨_, -, rfl⟩ := except_map_ok.mp denoted
      exact .single (by simp)
  | .optional item, type, known, denoted => by
      obtain ⟨_, -, denoted⟩ := except_bind_ok.mp denoted
      obtain ⟨own, inner, same⟩ := except_bind_ok.mp denoted
      obtain rfl := except_pure_ok.mp same
      exact (denote_atMostOptional item known inner).oneOf.1

/-! A value comes back from its JSON form, by the annotation that it is a value of. -/

/-- The value comes back as the type, unless it hides a null, and then nothing does. -/
structure RoundTrips (classes : Classes) (value : Value) (type : DataType) : Prop where
  returns : ¬classes.HidesNull value → classes.ofJson (classes.toJson value) type = .ok value
  refuses : ∀ back, classes.ofJson (classes.toJson value) type = .ok back → ¬classes.HidesNull value

theorem ofJson_null (type : DataType) : classes.ofJson .null type = .ok .null := by
  rw [ofJson]

/-- How data is read depends on the essence of the type alone. -/
theorem ofJson_essence {other : DataType} (same : type.essence = other.essence) (data : Value) :
    classes.ofJson data type = classes.ofJson data other := by
  cases data <;> simp only [ofJson, same]

theorem roundTrips_of_isJson (json : value.IsJson) (read : classes.ofJson value type = .ok value) :
    classes.RoundTrips value type where
  returns _ := by rwa [toJson_of_isJson json]
  refuses _ _ := not_hidesNull_of_isJson json

theorem ofJson_holds (holds : type.Holds value) : classes.ofJson value type = .ok value := by
  unfold DataType.Holds at holds
  split at holds
  · rfl
  · rfl
  · rfl
  · rfl
  · rfl
  · cases value <;> rfl
  · rfl
  · rfl
  · contradiction

theorem roundTrips_list {items : List Value}
    (each : ∀ value ∈ items, classes.RoundTrips value itemType) :
    classes.RoundTrips (.array items) (.list itemType) where
  returns kept := by
    rw [hidesNull_array_iff] at kept
    rw [toJson_array]
    refine (ofJson_list_ok rfl).mpr ⟨items, ?_, rfl⟩
    rw [List.forall₂_map_left_iff, List.forall₂_same]
    exact fun value among => (each value among).returns fun hides => kept ⟨value, among, hides⟩
  refuses back read := by
    rw [toJson_array] at read
    obtain ⟨values, all, -⟩ := (ofJson_list_ok rfl).mp read
    rw [List.forall₂_map_left_iff] at all
    rw [hidesNull_array_iff]
    rintro ⟨value, among, hides⟩
    obtain ⟨own, -, done⟩ := forall₂_of_mem_left all among
    exact (each value among).refuses own done hides

theorem roundTrips_map {members : List (String × Value)} (nodup : (members.map Prod.fst).Nodup)
    (each : ∀ member ∈ members, classes.RoundTrips member.2 itemType) :
    classes.RoundTrips (.ofMembers members) (.map itemType) where
  returns kept := by
    rw [hidesNull_ofMembers_iff] at kept
    rw [toJson_ofMembers nodup]
    refine (ofJson_map_ok rfl).mpr ⟨members, ?_, rfl⟩
    rw [List.forall₂_map_left_iff, List.forall₂_same]
    exact fun member among => ⟨rfl, (each member among).returns fun hides => kept ⟨member, among, hides⟩⟩
  refuses back read := by
    rw [toJson_ofMembers nodup] at read
    obtain ⟨entries, all, -⟩ := (ofJson_map_ok rfl).mp read
    rw [List.forall₂_map_left_iff] at all
    rw [hidesNull_ofMembers_iff]
    rintro ⟨member, among, hides⟩
    obtain ⟨entry, -, -, done⟩ := forall₂_of_mem_left all among
    exact (each member among).refuses entry.2 done hides

/-- The members that a record is written as give a field its value back: by the member of its key, or by the
default when the value is null. -/
theorem takes_written_iff {recordClass : RecordClass} (regular : recordClass.Regular)
    {value : RecordField → Value} {pair : RecordField × DataType} (member : pair.1 ∈ recordClass.fields)
    {back : Value} :
    classes.Takes (classes.writtenMembers recordClass value) pair back ↔
      if (value pair.1).isNull then pair.1.default = some back
      else classes.ofJson (classes.toJson (value pair.1)) pair.2 = .ok back := by
  rw [Takes, find?_writtenMembers regular value member]
  cases (value pair.1).isNull <;> simp

theorem roundTrips_record {recordClass : RecordClass} (regular : recordClass.Regular)
    (found : classes.find? name = some recordClass) {typed : List (RecordField × DataType)}
    (types : classes.fieldTypes recordClass = .ok typed) {value : RecordField → Value}
    (each : ∀ pair ∈ typed, classes.RoundTrips (value pair.1) pair.2) :
    classes.RoundTrips (.record name (recordClass.fields.map fun field => (field.name, value field)))
      (.record name) where
  returns kept := by
    rw [hidesNull_record_iff regular found] at kept
    rw [toJson_record regular found]
    refine (ofJson_record_ok regular found rfl).mpr ⟨typed, value, types, fun pair among => ?_, rfl⟩
    have member : pair.1 ∈ recordClass.fields := fieldTypes_fields types ▸ List.mem_map_of_mem among
    rw [takes_written_iff regular member]
    by_cases null : (value pair.1).isNull
    · rw [if_pos null, Value.isNull_iff.mp null]
      refine (regular.defaults pair.1 member).resolve_left fun required => ?_
      exact kept ⟨pair.1, member, .inl ⟨required, Value.isNull_iff.mp null⟩⟩
    · rw [if_neg null]
      exact (each pair among).returns fun hides => kept ⟨pair.1, member, .inr hides⟩
  refuses back read := by
    rw [toJson_record regular found] at read
    obtain ⟨again, values, same, takes, -⟩ := (ofJson_record_ok regular found rfl).mp read
    obtain rfl := Except.ok.inj (types.symm.trans same)
    rw [hidesNull_record_iff regular found]
    rintro ⟨field, member, hides⟩
    obtain ⟨pair, among, rfl⟩ := List.mem_map.mp (fieldTypes_fields types ▸ member)
    have taken := (takes_written_iff regular member).mp (takes pair among)
    rcases hides with ⟨required, null⟩ | hides
    · rw [if_pos (Value.isNull_iff.mpr null), required] at taken
      cases taken
    · by_cases null : (value pair.1).isNull
      · rw [Value.isNull_iff.mp null] at hides
        cases hides
      · rw [if_neg null] at taken
        exact (each pair among).refuses _ taken hides

/-- By induction on how a value is one of its annotation: each step of it goes through one of the lemmas
above. -/
theorem Inhabits.roundTrips (generated : classes.Generated) {written : WrittenType}
    (inhabits : classes.Inhabits written value) : ∀ {visible : String → Bool} {type : DataType},
      written.isKnown classes = true → written.denote visible = .ok type →
        classes.RoundTrips value type := by
  induction inhabits with
  | @plain name value holds =>
      intro visible type _ denoted
      obtain ⟨_, -, same⟩ := except_bind_ok.mp denoted
      obtain rfl := except_pure_ok.mp same
      exact roundTrips_of_isJson holds.isJson (ofJson_holds holds)
  | @record name recordClass value single found _ ih =>
      intro visible type _ denoted
      obtain ⟨_, -, same⟩ := except_bind_ok.mp denoted
      obtain rfl := except_pure_ok.mp same
      have member := (find?_some found).1
      obtain ⟨typed, types⟩ := fieldTypes_generated generated member
      rw [single]
      refine roundTrips_record (generated.regular recordClass member) found types fun pair among => ?_
      have own : pair.1 ∈ recordClass.fields := fieldTypes_fields types ▸ List.mem_map_of_mem among
      obtain ⟨field, -, rfl, denoted⟩ := forall₂_of_mem_right (fieldTypes_ok.mp types) among
      exact ih pair.1 own (generated.annotated recordClass member pair.1 own) denoted
  | null =>
      intro visible type _ denoted
      exact roundTrips_of_isJson .null (ofJson_null type)
  | @list item items _ ih =>
      intro visible type known denoted
      obtain ⟨_, -, denoted⟩ := except_bind_ok.mp denoted
      obtain ⟨itemType, inner, rfl⟩ := except_map_ok.mp denoted
      exact roundTrips_list fun value among => ih value among known inner
  | @map item members nodup _ ih =>
      intro visible type known denoted
      obtain ⟨_, -, denoted⟩ := except_bind_ok.mp denoted
      obtain ⟨_, -, denoted⟩ := except_bind_ok.mp denoted
      obtain ⟨itemType, inner, rfl⟩ := except_map_ok.mp denoted
      exact roundTrips_map nodup fun member among => ih member among known inner
  | absent =>
      intro visible type _ denoted
      exact roundTrips_of_isJson .null (ofJson_null type)
  | @present item value _ ih =>
      intro visible type known denoted
      obtain ⟨_, -, denoted⟩ := except_bind_ok.mp denoted
      obtain ⟨own, inner, same⟩ := except_bind_ok.mp denoted
      obtain rfl := except_pure_ok.mp same
      have essence := (denote_atMostOptional item known inner).oneOf.2
      have trip := ih known inner
      constructor
      · rw [ofJson_essence essence]
        exact trip.returns
      · rw [ofJson_essence essence]
        exact trip.refuses

/-- A record comes back from its JSON form as it was exactly when it hides no null. -/
theorem record_roundTrip_iff (generated : classes.Generated) {fields : List (String × Value)}
    (inhabits : classes.Inhabits (.named name) (.record name fields)) :
    classes.ofJson (classes.toJson (.record name fields)) (.record name) = .ok (.record name fields) ↔
      ¬classes.HidesNull (.record name fields) := by
  obtain ⟨single, declared⟩ : namedType name = .record name ∧ (classes.find? name).isSome = true := by
    cases inhabits with
    | plain holds => cases holds.isJson
    | record single found => exact ⟨single, by rw [found]; rfl⟩
  have known : (WrittenType.named name).isKnown classes = true := by
    rw [WrittenType.isKnown, declared, Bool.or_true]
  have denoted : (WrittenType.named name).denote (fun _ => true) = .ok (.record name) := by
    rw [← single]
    rfl
  have trip := inhabits.roundTrips generated known denoted
  exact ⟨trip.refuses _, trip.returns⟩

end Classes

def partClass : RecordClass where
  name := "Part"
  fields := [
    ⟨"serial", "serial", .named "str", none, true⟩,
    ⟨"weight", "weight", .optional (.named "Float64"), some .null, true⟩]
  shared := true
  surroundings := .package

def machineClass : RecordClass where
  name := "Machine"
  fields := [
    ⟨"name", "name", .named "str", none, true⟩,
    ⟨"class_", "class", .optional (.named "str"), none, true⟩,
    ⟨"parts", "parts", .optional (.list (.named "Part")), some .null, true⟩,
    ⟨"successor", "successor", .optional (.named "Machine"), some .null, true⟩,
    ⟨"extra", "extra", .named "Any", some .null, true⟩]
  shared := true
  surroundings := .package

def machineClasses : Classes := ⟨[partClass, machineClass]⟩

theorem machineClasses_generated : machineClasses.Generated where
  regular := by
    refine List.forall_mem_cons.mpr ⟨⟨?_, ?_, ?_, ?_⟩, List.forall_mem_singleton.mpr ⟨?_, ?_, ?_, ?_⟩⟩
    all_goals simp [partClass, machineClass]
  packaged := by simp [machineClasses, partClass, machineClass]
  annotated := by decide

def partFields (serial : String) : List (String × Value) :=
  [("serial", .string serial), ("weight", .float (.finite false 5629499534213120 (-51)))]

def machineFields (kind successor : Value) : List (String × Value) := [
  ("name", .string "press"), ("class_", kind),
  ("parts", .array [.record "Part" (partFields "p1"), .record "Part" (partFields "p2")]),
  ("successor", successor), ("extra", .array [.null, .int 3])]

theorem partFields_inhabits (serial : String) :
    machineClasses.Inhabits (.named "Part") (.record "Part" (partFields serial)) := by
  have found : machineClasses.find? "Part" = some partClass := rfl
  refine .ofFields rfl found rfl ?_
  refine List.forall_mem_cons.mpr ⟨.plain trivial, List.forall_mem_singleton.mpr ?_⟩
  exact .present (.plain trivial)

theorem machineFields_inhabits {kind successor : Value}
    (ofKind : machineClasses.Inhabits (.optional (.named "str")) kind)
    (ofSuccessor : machineClasses.Inhabits (.optional (.named "Machine")) successor) :
    machineClasses.Inhabits (.named "Machine") (.record "Machine" (machineFields kind successor)) := by
  have found : machineClasses.find? "Machine" = some machineClass := rfl
  refine .ofFields rfl found rfl ?_
  refine List.forall_mem_cons.mpr ⟨.plain trivial, List.forall_mem_cons.mpr ⟨ofKind, ?_⟩⟩
  refine List.forall_mem_cons.mpr ⟨.present (.list ?_), List.forall_mem_cons.mpr ⟨ofSuccessor, ?_⟩⟩
  · refine List.forall_mem_cons.mpr ⟨partFields_inhabits "p1", ?_⟩
    exact List.forall_mem_singleton.mpr (partFields_inhabits "p2")
  · refine List.forall_mem_singleton.mpr (.plain (.array ?_))
    exact List.forall_mem_cons.mpr ⟨.null, List.forall_mem_singleton.mpr (.int 3)⟩

/-- A machine whose successor is a machine, both of a class that is known, comes back as it was. -/
theorem machine_roundTrips :
    ∃ fields, fields = machineFields (.string "heavy") (.record "Machine" (machineFields (.string "old") .null)) ∧
      machineClasses.Generated ∧ machineClasses.Inhabits (.named "Machine") (.record "Machine" fields) ∧
      machineClasses.ofJson (machineClasses.toJson (.record "Machine" fields)) (.record "Machine") =
        .ok (.record "Machine" fields) ∧
      ¬machineClasses.HidesNull (.record "Machine" fields) := by
  have text (own : String) : machineClasses.Inhabits (.optional (.named "str")) (.string own) :=
    .present (.plain trivial)
  have inhabits := machineFields_inhabits (text "heavy") (.present (machineFields_inhabits (text "old") .absent))
  refine ⟨_, rfl, machineClasses_generated, inhabits, ?_⟩
  have trip := Classes.record_roundTrip_iff machineClasses_generated inhabits
  have returns : machineClasses.ofJson (machineClasses.toJson (.record "Machine" (machineFields (.string "heavy")
      (.record "Machine" (machineFields (.string "old") .null))))) (.record "Machine") =
        .ok (.record "Machine" (machineFields (.string "heavy")
          (.record "Machine" (machineFields (.string "old") .null)))) := by cbv
  exact ⟨returns, trip.mp returns⟩

/-- A machine whose required class is null is written without it and cannot be read back. -/
theorem machine_nullLost :
    machineClasses.Generated ∧
      machineClasses.Inhabits (.named "Machine") (.record "Machine" (machineFields .null .null)) ∧
      machineClasses.ofJson (machineClasses.toJson (.record "Machine" (machineFields .null .null)))
        (.record "Machine") = .error (.missingFields "Machine" ["class_"]) := by
  refine ⟨machineClasses_generated, machineFields_inhabits .absent .absent, ?_⟩
  cbv

end OpenApiClient.Client
