import Mathlib
import OpenApiClient.Proofs.Records

/-! Reading data and writing it again. What comes out is the data in a normal form that the type decides: of
an object that is read as a class, the members that no field asks for and those that are null are left out,
and where a float is asked for a whole number becomes one. All other data stays as it is. -/

namespace OpenApiClient

namespace Value

/-- The same data, though the members of objects may stand in another order. -/
inductive Rearranged : Value → Value → Prop
  | refl (value : Value) : Rearranged value value
  | array {items others : List Value} : List.Forall₂ Rearranged items others →
      Rearranged (.array items) (.array others)
  | object {members arranged others : List (String × Value)} :
      members.map Prod.fst = arranged.map Prod.fst →
      List.Forall₂ Rearranged (members.map Prod.snd) (arranged.map Prod.snd) →
      arranged.Perm others → Rearranged (.ofMembers members) (.ofMembers others)

theorem Rearranged.isNull {value other : Value} (rearranged : value.Rearranged other) :
    value.isNull = other.isNull := by
  cases rearranged <;> rfl

mutual

theorem same_refl : ∀ value : Value, value.same value = true
  | .null => by rw [same]
  | .bool truth => by simp [same]
  | .int number => by simp [same, integral?]
  | .float number => by simp [same]
  | .string text => by simp [same]
  | .bytes octets => by simp [same]
  | .date year month day => by simp [same]
  | .array items | .tuple items => by
      rw [same]
      exact sameItems_refl items
  | .object members => by
      rw [same, beq_self_eq_true, Bool.true_and]
      exact sameMembers_of_subset members members (List.Subset.refl members)
  | .record className fields => by
      rw [same, beq_self_eq_true, Bool.true_and]
      exact sameFields_refl fields

theorem sameItems_refl : ∀ items : List Value, sameItems items items = true
  | [] => by rw [sameItems]
  | item :: items => by rw [sameItems, same_refl item, sameItems_refl items, Bool.and_self]

theorem sameMembers_of_subset : ∀ members others : List (Value × Value), members ⊆ others →
    sameMembers members others = true
  | [], others, _ => by rw [sameMembers]
  | (key, value) :: members, others, subset => by
      obtain ⟨among, rest⟩ := List.cons_subset.mp subset
      rw [sameMembers, sameMembers_of_subset members others rest, Bool.and_true, List.any_eq_true]
      exact ⟨(key, value), among, by simp [same_refl key, same_refl value]⟩

theorem sameFields_refl : ∀ fields : List (String × Value), sameFields fields fields = true
  | [] => by rw [sameFields]
  | (name, value) :: fields => by
      rw [sameFields, beq_self_eq_true, same_refl value, sameFields_refl fields]
      rfl

end

theorem sameItems_of_forall₂ {items others : List Value}
    (pairs : List.Forall₂ (fun item other => item.same other = true) items others) :
    sameItems items others = true := by
  induction pairs with
  | nil => rw [sameItems]
  | cons first _ ih => rw [sameItems, first, ih, Bool.and_self]

theorem sameMembers_iff {members others : List (Value × Value)} :
    sameMembers members others = true ↔ ∀ member ∈ members, ∃ other ∈ others,
      member.1.same other.1 = true ∧ member.2.same other.2 = true := by
  induction members with
  | nil => simp [sameMembers]
  | cons member rest ih =>
      rw [sameMembers, Bool.and_eq_true, ih, List.forall_mem_cons, List.any_eq_true]
      simp only [Bool.and_eq_true]

theorem sizeOf_item {items : List Value} {item : Value} (member : item ∈ items) :
    sizeOf item < sizeOf (Value.array items) := by
  have within := List.sizeOf_lt_of_mem member
  simp only [Value.array.sizeOf_spec]
  omega

theorem sizeOf_member {members : List (String × Value)} {member : String × Value} (among : member ∈ members) :
    sizeOf member.2 < sizeOf (Value.ofMembers members) := by
  have present : (Value.string member.1, member.2) ∈
      members.map fun member => (Value.string member.1, member.2) := List.mem_map.mpr ⟨member, among, rfl⟩
  have within := List.sizeOf_lt_of_mem present
  simp only [Value.ofMembers, Value.object.sizeOf_spec, Prod.mk.sizeOf_spec] at within ⊢
  omega

theorem rearranged_partner {members arranged : List (String × Value)}
    (keys : members.map Prod.fst = arranged.map Prod.fst)
    (values : List.Forall₂ Rearranged (members.map Prod.snd) (arranged.map Prod.snd))
    {member : String × Value} (among : member ∈ members) :
    ∃ other ∈ arranged, member.1 = other.1 ∧ member.2.Rearranged other.2 := by
  rw [← List.forall₂_eq_eq_eq, List.forall₂_map_left_iff, List.forall₂_map_right_iff] at keys
  rw [List.forall₂_map_left_iff, List.forall₂_map_right_iff] at values
  induction keys with
  | nil => contradiction
  | cons same _ ih =>
      obtain ⟨own, others⟩ := List.forall₂_cons.mp values
      rcases List.mem_cons.mp among with rfl | among
      · exact ⟨_, List.mem_cons_self, same, own⟩
      · obtain ⟨other, present, both⟩ := ih others among
        exact ⟨other, List.mem_cons_of_mem _ present, both⟩

/-- Data that is rearranged is the same to every comparison. -/
theorem Rearranged.same {value other : Value} (rearranged : value.Rearranged other) :
    value.same other = true := by
  cases rearranged with
  | refl => exact same_refl value
  | array pairs =>
      rw [Value.same]
      exact sameItems_of_forall₂ (forall₂_imp_of_mem pairs fun item member other ih => ih.same)
  | @object members arranged others keys pairs perm =>
      have count : members.length = others.length := by
        rw [← perm.length_eq, ← List.length_map Prod.fst, keys, List.length_map]
      simp only [Value.ofMembers]
      rw [Value.same, List.length_map, List.length_map, count, beq_self_eq_true, Bool.true_and,
        sameMembers_iff]
      intro member among
      obtain ⟨own, present, rfl⟩ := List.mem_map.mp among
      obtain ⟨partner, arrangedMember, key, value⟩ := rearranged_partner keys pairs present
      refine ⟨(.string partner.1, partner.2), ?_, ?_, value.same⟩
      · exact List.mem_map.mpr ⟨partner, perm.mem_iff.mp arrangedMember, rfl⟩
      · rw [key]
        exact same_refl _
termination_by sizeOf value
decreasing_by
  · exact sizeOf_item member
  · exact sizeOf_member present

end Value

namespace Client.Classes

def memberType (classes : Classes) (className : String) (key : Value) : Option DataType :=
  match classes.find? className with
  | none => none
  | some recordClass =>
      match classes.fieldTypes recordClass with
      | .error _ => none
      | .ok typed => (typed.find? fun pair => key.same (.string pair.1.key)).map Prod.snd

mutual

def normal (classes : Classes) : Value → DataType → Value
  | .int number, type =>
      match type.essence with
      | .float => ((Binary64.ofInt? number).map Value.float).getD (.int number)
      | _ => .int number
  | .array items, type =>
      match type.essence with
      | .list itemType => .array (normalItems classes items itemType)
      | _ => .array items
  | .object members, type =>
      match type.essence with
      | .map itemType => .object (normalMembers classes members itemType)
      | .record className => .object (normalFields classes members (classes.memberType className))
      | _ => .object members
  | other, _ => other

def normalItems (classes : Classes) : List Value → DataType → List Value
  | [], _ => []
  | item :: items, type => classes.normal item type :: normalItems classes items type

def normalMembers (classes : Classes) : List (Value × Value) → DataType → List (Value × Value)
  | [], _ => []
  | (key, value) :: members, type =>
      (key, classes.normal value type) :: normalMembers classes members type

def normalFields (classes : Classes) :
    List (Value × Value) → (Value → Option DataType) → List (Value × Value)
  | [], _ => []
  | (key, value) :: members, typeOf =>
      match typeOf key with
      | none => normalFields classes members typeOf
      | some type =>
          if value.isNull then normalFields classes members typeOf
          else (key, classes.normal value type) :: normalFields classes members typeOf

end

variable {classes : Classes} {className : String} {recordClass : RecordClass} {type : DataType} {data back : Value}
  {members : List (String × Value)} {typed : List (RecordField × DataType)}

/-! Neither writing nor the normal form makes something of null or null of something. -/

theorem toJson_isNull (value : Value) : (classes.toJson value).isNull = value.isNull := by
  cases value <;> simp [toJson, Value.isNull]

theorem normal_isNull (data : Value) (type : DataType) : (classes.normal data type).isNull = data.isNull := by
  cases data with
  | int number =>
      rw [normal]
      split
      · cases Binary64.ofInt? number <;> rfl
      · rfl
  | array items | object members => rw [normal]; split <;> rfl
  | _ => rw [normal] <;> simp

/-! The normal form of what is read as a container or as a class. -/

theorem normalItems_eq (items : List Value) (type : DataType) :
    classes.normalItems items type = items.map fun item => classes.normal item type := by
  induction items with
  | nil => rw [normalItems]; rfl
  | cons item rest ih => rw [normalItems, ih, List.map_cons]

theorem normal_list {items : List Value} {itemType : DataType} (reads : type.essence = .list itemType) :
    classes.normal (.array items) type = .array (items.map fun item => classes.normal item itemType) := by
  rw [normal, reads]
  exact congrArg Value.array (normalItems_eq items itemType)

theorem normalMembers_texts (members : List (String × Value)) (type : DataType) :
    classes.normalMembers (members.map fun member => (Value.string member.1, member.2)) type =
      (members.map fun member => (member.1, classes.normal member.2 type)).map
        fun member => (Value.string member.1, member.2) := by
  induction members with
  | nil => rw [List.map_nil, normalMembers]; rfl
  | cons member rest ih => rw [List.map_cons, normalMembers, ih]; rfl

theorem normal_map {itemType : DataType} (reads : type.essence = .map itemType) :
    classes.normal (.ofMembers members) type =
      .ofMembers (members.map fun member => (member.1, classes.normal member.2 itemType)) := by
  rw [Value.ofMembers, normal, reads]
  exact congrArg Value.object (normalMembers_texts members itemType)

def keptMembers (classes : Classes) (className : String) (members : List (String × Value)) :
    List (String × Value) :=
  members.filterMap fun member =>
    match classes.memberType className (.string member.1) with
    | none => none
    | some type => if member.2.isNull then none else some (member.1, classes.normal member.2 type)

theorem normalFields_texts (members : List (String × Value)) :
    classes.normalFields (members.map fun member => (Value.string member.1, member.2))
        (classes.memberType className) =
      (classes.keptMembers className members).map fun member => (Value.string member.1, member.2) := by
  induction members with
  | nil => rw [List.map_nil, normalFields]; rfl
  | cons member rest ih =>
      rw [keptMembers] at ih ⊢
      rw [List.map_cons, normalFields, List.filterMap_cons, ih]
      cases classes.memberType className (.string member.1) with
      | none => rfl
      | some type => cases member.2.isNull <;> rfl

theorem normal_record (reads : type.essence = .record className) :
    classes.normal (.ofMembers members) type = .ofMembers (classes.keptMembers className members) := by
  rw [Value.ofMembers, normal, reads]
  exact congrArg Value.object (normalFields_texts members)

theorem mem_keptMembers {entry : String × Value} :
    entry ∈ classes.keptMembers className members ↔
      ∃ member ∈ members, ∃ type, classes.memberType className (.string member.1) = some type ∧
        member.2.isNull = false ∧ entry = (member.1, classes.normal member.2 type) := by
  rw [keptMembers, List.mem_filterMap]
  refine exists_congr fun member => and_congr_right fun _ => ?_
  cases classes.memberType className (.string member.1) with
  | none => simp
  | some type => cases member.2.isNull <;> simp [eq_comm]

theorem keptMembers_keys : ((classes.keptMembers className members).map Prod.fst).Sublist
    (members.map Prod.fst) := by
  induction members with
  | nil => exact List.Sublist.slnil
  | cons member rest ih =>
      rw [keptMembers] at ih ⊢
      rw [List.filterMap_cons, List.map_cons]
      cases classes.memberType className (.string member.1) with
      | none => exact ih.cons _
      | some type =>
          cases null : member.2.isNull with
          | true => exact ih.cons _
          | false => exact ih.cons_cons _

theorem memberType_text (found : classes.find? className = some recordClass)
    (types : classes.fieldTypes recordClass = .ok typed) (regular : recordClass.Regular) {key : String} :
    classes.memberType className (.string key) = some type ↔ ∃ pair ∈ typed, pair.1.key = key ∧ pair.2 = type := by
  have keys : (typed.map fun pair => pair.1.key).Nodup := by
    have own := regular.keys
    rwa [← fieldTypes_fields types, List.map_map] at own
  simp only [memberType, found, types, Value.same, Option.map_eq_some_iff]
  constructor
  · rintro ⟨pair, first, rfl⟩
    exact ⟨pair, List.mem_of_find?_eq_some first, (by simpa using List.find?_some first : key = _).symm, rfl⟩
  · rintro ⟨pair, among, rfl, rfl⟩
    exact ⟨pair, find?_of_key keys among fun other => beq_iff_eq.trans eq_comm, rfl⟩

def ReadsNormal (classes : Classes) (data : Value) : Prop :=
  ∀ type back, classes.ofJson data type = .ok back → (classes.toJson back).Rearranged (classes.normal data type)

theorem ReadsNormal.isNull (reads : classes.ReadsNormal data) (read : classes.ofJson data type = .ok back) :
    back.isNull = data.isNull := by
  have written : (classes.toJson back).isNull = back.isNull := toJson_isNull back
  rw [← written, (reads type back read).isNull, normal_isNull]

theorem takes_isNull {pair : RecordField × DataType}
    (default : pair.1.default = none ∨ pair.1.default = some .null)
    (each : ∀ member ∈ members, classes.ReadsNormal member.2) (takes : classes.Takes members pair back) :
    back.isNull = false ↔ ∃ data, Entries.find? pair.1.key members = some data ∧ data.isNull = false := by
  rw [Takes] at takes
  cases searched : Entries.find? pair.1.key members with
  | none =>
      rw [searched] at takes
      obtain rfl : back = .null := by simpa [takes] using default
      simp [Value.isNull]
  | some data =>
      rw [searched] at takes
      rw [(each _ (Entries.mem_of_find? searched)).isNull takes]
      simp

theorem readsNormal_list {items : List Value} {itemType : DataType}
    (each : ∀ item ∈ items, classes.ReadsNormal item) (reads : type.essence = .list itemType)
    (read : classes.ofJson (.array items) type = .ok back) :
    (classes.toJson back).Rearranged (classes.normal (.array items) type) := by
  obtain ⟨values, all, rfl⟩ := (ofJson_list_ok reads).mp read
  rw [toJson_array, normal_list reads]
  refine .array ?_
  rw [List.forall₂_map_left_iff, List.forall₂_map_right_iff]
  exact (forall₂_imp_of_mem all fun item among value own => each item among itemType value own).flip

theorem readsNormal_map (nodup : (members.map Prod.fst).Nodup)
    (each : ∀ member ∈ members, classes.ReadsNormal member.2) {itemType : DataType}
    (reads : type.essence = .map itemType) (read : classes.ofJson (.ofMembers members) type = .ok back) :
    (classes.toJson back).Rearranged (classes.normal (.ofMembers members) type) := by
  obtain ⟨entries, all, rfl⟩ := (ofJson_map_ok reads).mp read
  have keys : members.map Prod.fst = entries.map Prod.fst :=
    map_eq_of_forall₂ (all.imp fun member entry both => both.1)
  rw [toJson_ofMembers (keys ▸ nodup), normal_map reads]
  refine .object ?_ ?_ (List.Perm.refl _)
  · rw [List.map_map, List.map_map]
    exact keys.symm
  · rw [List.map_map, List.map_map, List.forall₂_map_left_iff, List.forall₂_map_right_iff]
    exact (forall₂_imp_of_mem all fun member among entry both =>
      each member among itemType entry.2 both.2).flip

def normalMember (classes : Classes) (members : List (String × Value)) (pair : RecordField × DataType) :
    String × Value :=
  (pair.1.key, classes.normal ((Entries.find? pair.1.key members).getD .null) pair.2)

/-- The members that are kept are those of the fields that find data other than null. -/
theorem normalMembers_perm_kept (regular : recordClass.Regular)
    (found : classes.find? className = some recordClass) (types : classes.fieldTypes recordClass = .ok typed)
    (nodup : (members.map Prod.fst).Nodup) {written : List (RecordField × DataType)}
    (keys : (written.map fun pair => pair.1.key).Nodup)
    (finds : ∀ pair, pair ∈ written ↔
      pair ∈ typed ∧ ∃ data, Entries.find? pair.1.key members = some data ∧ data.isNull = false) :
    (written.map (classes.normalMember members)).Perm (classes.keptMembers className members) := by
  refine (List.perm_ext_iff_of_nodup ?_ ?_).mpr fun entry => ?_
  · refine List.Nodup.of_map Prod.fst ?_
    rwa [List.map_map]
  · exact List.Nodup.of_map Prod.fst (nodup.sublist keptMembers_keys)
  · rw [List.mem_map, mem_keptMembers]
    constructor
    · rintro ⟨pair, kept, rfl⟩
      obtain ⟨among, data, searched, filled⟩ := (finds pair).mp kept
      have own := (memberType_text found types regular).mpr ⟨pair, among, rfl, rfl⟩
      exact ⟨(pair.1.key, data), Entries.mem_of_find? searched, pair.2, own, filled, by
        rw [normalMember, searched, Option.getD_some]⟩
    · rintro ⟨member, present, type, own, filled, rfl⟩
      obtain ⟨pair, among, key, rfl⟩ := (memberType_text found types regular).mp own
      have searched : Entries.find? pair.1.key members = some member.2 := key ▸ Entries.find?_of_mem nodup present
      refine ⟨pair, (finds pair).mpr ⟨among, member.2, searched, filled⟩, ?_⟩
      rw [normalMember, searched, Option.getD_some, key]

/-- The fields that are written have, in the order of the class, the members that are kept. -/
theorem readsNormal_record (regular : ∀ recordClass ∈ classes.list, recordClass.Regular)
    (nodup : (members.map Prod.fst).Nodup) (each : ∀ member ∈ members, classes.ReadsNormal member.2)
    (reads : type.essence = .record className) (read : classes.ofJson (.ofMembers members) type = .ok back) :
    (classes.toJson back).Rearranged (classes.normal (.ofMembers members) type) := by
  obtain ⟨recordClass, found⟩ := find?_of_ofJson reads read
  have own := regular recordClass (find?_some found).1
  obtain ⟨typed, value, types, takes, rfl⟩ := (ofJson_record_ok own found reads).mp read
  have fields := fieldTypes_fields types
  have isNull {pair : RecordField × DataType} (among : pair ∈ typed) :=
    takes_isNull (own.defaults pair.1 (fields ▸ List.mem_map_of_mem among)) each (takes pair among)
  obtain ⟨written, same⟩ : ∃ written, written = typed.filter fun pair => !(value pair.1).isNull := ⟨_, rfl⟩
  have finds (pair : RecordField × DataType) : pair ∈ written ↔
      pair ∈ typed ∧ ∃ data, Entries.find? pair.1.key members = some data ∧ data.isNull = false := by
    rw [same, List.mem_filter, Bool.not_eq_true']
    exact and_congr_right isNull
  have members_eq : classes.writtenMembers recordClass value =
      written.map fun pair => (pair.1.key, classes.toJson (value pair.1)) := by
    rw [writtenMembers, ← fields, List.filter_map, List.map_map, same]
    rfl
  have keys : (written.map fun pair => pair.1.key).Nodup := by
    have nodupKeys : ((classes.writtenMembers recordClass value).map Prod.fst).Nodup :=
      writtenMembers_nodup own value
    rwa [members_eq, List.map_map] at nodupKeys
  rw [toJson_record own found, normal_record reads, members_eq]
  refine .object ?_ ?_ (normalMembers_perm_kept own found types nodup keys finds)
  · rw [List.map_map, List.map_map]
    rfl
  · rw [List.map_map, List.map_map, List.forall₂_map_left_iff, List.forall₂_map_right_iff, List.forall₂_same]
    intro pair kept
    obtain ⟨among, data, searched, -⟩ := (finds pair).mp kept
    have taken := takes pair among
    simp only [Takes, searched] at taken
    simpa [normalMember, searched] using each _ (Entries.mem_of_find? searched) pair.2 _ taken

theorem rearranged_of_same (json : data.IsJson) (same : classes.normal data type = data)
    (read : Except.ok (ε := RecordFault) data = .ok back) :
    (classes.toJson back).Rearranged (classes.normal data type) := by
  obtain rfl := Except.ok.inj read
  rw [same, toJson_of_isJson json]
  exact .refl data

theorem readsNormal_scalar (json : data.IsJson) (same : ∀ type, classes.normal data type = data)
    (reads : ∀ type, classes.ofJson data type =
      match type.essence with
      | .record className => .error (.notObject className data.kindName)
      | _ => .ok data) : classes.ReadsNormal data := by
  intro type back read
  rw [reads] at read
  split at read
  · cases read
  · exact rearranged_of_same json (same type) read

theorem readsNormal_int (number : Int) : classes.ReadsNormal (.int number) := by
  intro type back read
  cases essence : type.essence with
  | float =>
      simp only [ofJson, essence] at read
      rw [normal, essence]
      cases nearest : Binary64.ofInt? number with
      | none => simp [nearest] at read
      | some float =>
          rw [nearest] at read
          obtain rfl := Except.ok.inj read
          exact .refl (.float float)
  | record className => simp [ofJson, essence] at read
  | _ =>
      simp only [ofJson, essence] at read
      exact rearranged_of_same (.int number) (by simp [normal, essence]) read

/-- By induction on the data: the containers go through the lemmas above, and all else is taken as it is but
a whole number where a float is asked for. -/
theorem readsNormal (regular : ∀ recordClass ∈ classes.list, recordClass.Regular) (json : data.IsJson) :
    classes.ReadsNormal data := by
  induction json with
  | null =>
      intro type back read
      rw [ofJson] at read
      exact rearranged_of_same .null (by simp [normal]) read
  | int number => exact readsNormal_int number
  | bool | float | string =>
      refine readsNormal_scalar (by constructor) (by simp [normal]) fun type => ?_
      cases essence : type.essence <;> simp only [ofJson, essence]
  | @array items all each =>
      intro type back read
      cases essence : type.essence with
      | list itemType => exact readsNormal_list each essence read
      | record className => simp [ofJson, essence] at read
      | _ =>
          simp only [ofJson, essence] at read
          exact rearranged_of_same (.array all) (by simp [normal, essence]) read
  | @object members nodup all each =>
      intro type back read
      cases essence : type.essence with
      | map itemType => exact readsNormal_map nodup each essence read
      | record className => exact readsNormal_record regular nodup each essence read
      | _ =>
          simp only [Value.ofMembers, ofJson, essence] at read
          exact rearranged_of_same (.object nodup all) (by simp [Value.ofMembers, normal, essence]) read

/-- Data that is read and written again is its normal form, though the members of an object that was read as
a class stand in the order of its fields. -/
theorem toJson_ofJson (regular : ∀ recordClass ∈ classes.list, recordClass.Regular) (json : data.IsJson)
    (read : classes.ofJson data type = .ok back) :
    (classes.toJson back).Rearranged (classes.normal data type) ∧
      (classes.toJson back).same (classes.normal data type) = true := by
  have rearranged := readsNormal regular json type back read
  exact ⟨rearranged, rearranged.same⟩

end Client.Classes

namespace Client

def sensorClass : RecordClass where
  name := "Sensor"
  fields := [
    ⟨"kind", "kind", .named "str", none, true⟩,
    ⟨"offset", "offset", .optional (.named "Float64"), some .null, true⟩]
  shared := true
  surroundings := .package

def stationClass : RecordClass where
  name := "Station"
  fields := [
    ⟨"name", "name", .named "str", none, true⟩,
    ⟨"sensors", "sensors", .optional (.list (.named "Sensor")), some .null, true⟩,
    ⟨"limits", "limits", .optional (.map (.named "Float64")), some .null, true⟩,
    ⟨"note", "note", .named "Any", some .null, true⟩]
  shared := true
  surroundings := .package

def stationClasses : Classes := ⟨[sensorClass, stationClass]⟩

theorem stationClasses_regular : ∀ recordClass ∈ stationClasses.list, recordClass.Regular := by
  refine List.forall_mem_cons.mpr ⟨⟨?_, ?_, ?_, ?_⟩, List.forall_mem_singleton.mpr ⟨?_, ?_, ?_, ?_⟩⟩
  all_goals simp [sensorClass, stationClass]

/-- Data of sensors: a whole number where a float is asked for, a null and an unknown member, and a null in
place of a sensor. -/
def sensorData : List Value := [
  .ofMembers [("offset", .int 0), ("kind", .string "wind")],
  .ofMembers [("kind", .string "rain"), ("offset", .null), ("unit", .string "mm")],
  .null]

def stationData : Value :=
  .ofMembers [("sensors", .array sensorData), ("owner", .int 7), ("name", .string "north"), ("note", .null),
    ("limits", .ofMembers [("low", .null), ("high", .bool true)])]

def stationRecord : Value :=
  .record "Station" [
    ("name", .string "north"),
    ("sensors", .array [
      .record "Sensor" [("kind", .string "wind"), ("offset", .float (.zero false))],
      .record "Sensor" [("kind", .string "rain"), ("offset", .null)],
      .null]),
    ("limits", .ofMembers [("low", .null), ("high", .bool true)]),
    ("note", .null)]

theorem stationData_isJson : stationData.IsJson := by
  have sensors : ∀ sensor ∈ sensorData, sensor.IsJson := by
    refine List.forall_mem_cons.mpr ⟨.object (by simp) ?_, List.forall_mem_cons.mpr ⟨.object (by simp) ?_, ?_⟩⟩
    · exact List.forall_mem_cons.mpr ⟨.int 0, List.forall_mem_singleton.mpr (.string "wind")⟩
    · refine List.forall_mem_cons.mpr ⟨.string "rain", List.forall_mem_cons.mpr ⟨.null, ?_⟩⟩
      exact List.forall_mem_singleton.mpr (.string "mm")
    · exact List.forall_mem_singleton.mpr .null
  refine .object (by simp) ?_
  refine List.forall_mem_cons.mpr ⟨.array sensors, List.forall_mem_cons.mpr ⟨.int 7, ?_⟩⟩
  refine List.forall_mem_cons.mpr ⟨.string "north", List.forall_mem_cons.mpr ⟨.null, ?_⟩⟩
  refine List.forall_mem_singleton.mpr (.object (by simp) ?_)
  exact List.forall_mem_cons.mpr ⟨.null, List.forall_mem_singleton.mpr (.bool true)⟩

theorem stationData_reads :
    (∀ recordClass ∈ stationClasses.list, recordClass.Regular) ∧ stationData.IsJson ∧
      stationClasses.ofJson stationData (.record "Station") = .ok stationRecord ∧
      (stationClasses.toJson stationRecord).Rearranged (stationClasses.normal stationData (.record "Station")) ∧
      (stationClasses.toJson stationRecord).same (stationClasses.normal stationData (.record "Station")) =
        true := by
  have read : stationClasses.ofJson stationData (.record "Station") = .ok stationRecord := by cbv
  exact ⟨stationClasses_regular, stationData_isJson, read,
    Classes.toJson_ofJson stationClasses_regular stationData_isJson read⟩

example : stationClasses.normal stationData (.record "Station") =
    .ofMembers [
      ("sensors", .array [
        .ofMembers [("offset", .float (.zero false)), ("kind", .string "wind")],
        .ofMembers [("kind", .string "rain")],
        .null]),
      ("name", .string "north"),
      ("limits", .ofMembers [("low", .null), ("high", .bool true)])] := by
  cbv

end Client
end OpenApiClient
