import OpenApiClient.Client.JsonForm
import OpenApiClient.Proofs.WrittenValues

/-! Records read from objects and written to them. A record is read field by field: a field takes the member
of its key, or its default when there is none. It is written the same way, without the fields that are null. -/

namespace OpenApiClient

namespace Value

/-- Data as JSON holds it: the keys of an object are texts, and no two of them are the same. -/
inductive IsJson : Value → Prop
  | null : IsJson .null
  | bool (truth : Bool) : IsJson (.bool truth)
  | int (number : Int) : IsJson (.int number)
  | float (number : Binary64) : IsJson (.float number)
  | string (text : String) : IsJson (.string text)
  | array {items : List Value} : (∀ item ∈ items, IsJson item) → IsJson (.array items)
  | object {members : List (String × Value)} : (members.map Prod.fst).Nodup →
      (∀ member ∈ members, IsJson member.2) → IsJson (.ofMembers members)

theorem IsJson.hasLongKey {value : Value} (json : value.IsJson) : value.hasLongKey = false := by
  induction json with
  | array _ ih => exact hasLongKey_array ih
  | object _ _ ih => exact hasLongKey_ofMembers ih
  | _ => rfl

end Value

namespace Entries

variable {α β ι : Type}

theorem get?_text (key : String) (change : α → β) (entries : List (String × α)) :
    get? Value.same (.string key) (entries.map fun entry => (Value.string entry.1, change entry.2)) =
      (find? key entries).map change := by
  induction entries with
  | nil => rfl
  | cons entry rest ih =>
      by_cases same : entry.1 = key
      · simp [get?, find?, Value.same, same]
      · simpa [get?, find?, Value.same, same] using ih

/-- Some of the items under keys of their own: an item is found under its key if it is one of those kept. -/
theorem find?_kept {items : List ι} {key : ι → String} (nodup : (items.map key).Nodup) (keeps : ι → Bool)
    (value : ι → α) {item : ι} (member : item ∈ items) :
    find? (key item) ((items.filter keeps).map fun item => (key item, value item)) =
      if keeps item then some (value item) else none := by
  by_cases kept : keeps item
  · rw [if_pos kept]
    refine find?_of_mem ?_ (List.mem_map.mpr ⟨item, List.mem_filter.mpr ⟨member, kept⟩, rfl⟩)
    rw [List.map_map]
    exact nodup.sublist (List.filter_sublist.map key)
  · rw [if_neg kept, find?_eq_none]
    intro entry among same
    obtain ⟨other, found, rfl⟩ := List.mem_map.mp among
    obtain ⟨present, keptToo⟩ := List.mem_filter.mp found
    have alike : other = item := List.inj_on_of_nodup_map nodup present member same
    exact kept (alike ▸ keptToo)

end Entries

namespace Client

/-- A class as the generator declares it: fields have names and keys of their own, and each is taken by the
constructor, where its default is null if it has one. -/
structure RecordClass.Regular (recordClass : RecordClass) : Prop where
  names : (recordClass.fields.map RecordField.name).Nodup
  keys : (recordClass.fields.map RecordField.key).Nodup
  settable : ∀ field ∈ recordClass.fields, field.settable = true
  defaults : ∀ field ∈ recordClass.fields, field.default = none ∨ field.default = some .null

namespace Classes

variable {classes : Classes} {className : String} {recordClass : RecordClass} {type : DataType}
  {members : List (String × Value)}

theorem find?_some (found : classes.find? className = some recordClass) :
    recordClass ∈ classes.list ∧ recordClass.name = className :=
  ⟨List.mem_of_find?_eq_some found, by simpa using List.find?_some found⟩

/-! Reading and writing follow lists and objects item by item. -/

theorem itemsToJson_eq (items : List Value) : classes.itemsToJson items = items.map classes.toJson := by
  induction items with
  | nil => rfl
  | cons item rest ih => rw [itemsToJson, ih, List.map_cons]

theorem toJson_array (items : List Value) :
    classes.toJson (.array items) = .array (items.map classes.toJson) := by
  rw [toJson, itemsToJson_eq]

theorem distinct_texts (nodup : (members.map Prod.fst).Nodup) :
    Entries.Distinct Value.same (members.map fun member => (Value.string member.1, member.2)) := by
  rw [Entries.Distinct, List.pairwise_map]
  refine (List.pairwise_map.mp nodup).imp fun apart => ?_
  simpa [Value.same] using apart

theorem membersToJson_texts (members : List (String × Value)) :
    classes.membersToJson (members.map fun member => (Value.string member.1, member.2)) =
      (members.map fun member => (member.1, classes.toJson member.2)).map
        fun member => (Value.string member.1, member.2) := by
  induction members with
  | nil => rfl
  | cons member rest ih =>
      rw [List.map_cons, membersToJson, ih]
      rfl

theorem toJson_ofMembers (nodup : (members.map Prod.fst).Nodup) :
    classes.toJson (.ofMembers members) =
      .ofMembers (members.map fun member => (member.1, classes.toJson member.2)) := by
  have distinct : ((members.map fun member => (member.1, classes.toJson member.2)).map Prod.fst).Nodup := by
    rwa [List.map_map]
  rw [Value.ofMembers, toJson, membersToJson_texts, Entries.ofPairs_of_distinct (distinct_texts distinct)]
  rfl

theorem toJson_of_isJson {data : Value} (json : data.IsJson) : classes.toJson data = data := by
  induction json with
  | null => rfl
  | bool truth => rfl
  | int number => rfl
  | float number => rfl
  | string text => rfl
  | @array items _ ih =>
      rw [toJson_array, List.map_congr_left ih, List.map_id']
  | @object members nodup _ ih =>
      have same : (members.map fun member => (member.1, classes.toJson member.2)) = members := by
        refine (List.map_congr_left fun member among => ?_).trans (List.map_id members)
        rw [ih member among]
        rfl
      rw [toJson_ofMembers nodup, same]

theorem jsonForm_of_isJson {data : Value} (json : data.IsJson) : classes.jsonForm data = .ok data := by
  rw [jsonForm, json.hasLongKey, toJson_of_isJson json]
  rfl

theorem itemsOfJson_eq (items : List Value) (type : DataType) :
    classes.itemsOfJson items type = items.mapM fun item => classes.ofJson item type := by
  induction items with
  | nil => rfl
  | cons item rest ih => rw [itemsOfJson, ih, List.mapM_cons]

theorem ofJson_list_ok {items : List Value} {itemType : DataType} {back : Value}
    (reads : type.essence = .list itemType) :
    classes.ofJson (.array items) type = .ok back ↔
      ∃ values, List.Forall₂ (fun item value => classes.ofJson item itemType = .ok value) items values ∧
        back = .array values := by
  rw [ofJson, reads]
  dsimp only
  rw [except_map_ok, itemsOfJson_eq]
  simp only [mapM_ok_iff]
  exact exists_congr fun values => and_congr_right fun _ => eq_comm

theorem membersOfJson_texts (members : List (String × Value)) (type : DataType) :
    classes.membersOfJson (members.map fun member => (Value.string member.1, member.2)) type =
      (fun entries => entries.map fun (entry : String × Value) => (Value.string entry.1, entry.2)) <$>
        members.mapM fun member => (member.1, ·) <$> classes.ofJson member.2 type := by
  induction members with
  | nil => rfl
  | cons member rest ih =>
      rw [List.map_cons, membersOfJson, ih, List.mapM_cons]
      cases classes.ofJson member.2 type with
      | error fault => rfl
      | ok value =>
          cases rest.mapM fun member => (member.1, ·) <$> classes.ofJson member.2 type <;> rfl

theorem ofJson_map_ok {itemType : DataType} {back : Value} (reads : type.essence = .map itemType) :
    classes.ofJson (.ofMembers members) type = .ok back ↔
      ∃ entries, List.Forall₂ (fun member (entry : String × Value) => member.1 = entry.1 ∧
        classes.ofJson member.2 itemType = .ok entry.2) members entries ∧ back = .ofMembers entries := by
  have step : ∀ (member entry : String × Value),
      (member.1, ·) <$> classes.ofJson member.2 itemType = .ok entry ↔
        member.1 = entry.1 ∧ classes.ofJson member.2 itemType = .ok entry.2 := by
    intro member entry
    rw [except_map_ok]
    constructor
    · rintro ⟨value, read, rfl⟩
      exact ⟨rfl, read⟩
    · rintro ⟨key, read⟩
      exact ⟨entry.2, read, Prod.ext key rfl⟩
  rw [Value.ofMembers, ofJson, reads]
  dsimp only
  rw [except_map_ok, membersOfJson_texts]
  simp only [except_map_ok, mapM_ok_iff, step]
  constructor
  · rintro ⟨_, ⟨entries, read, rfl⟩, rfl⟩
    exact ⟨entries, read, rfl⟩
  · rintro ⟨entries, read, rfl⟩
    exact ⟨_, ⟨entries, read, rfl⟩, rfl⟩

/-! Reading the fields of a class from the members of an object. -/

theorem memberReaders_texts (members : List (String × Value)) :
    classes.memberReaders (members.map fun member => (Value.string member.1, member.2)) =
      members.map fun member => (Value.string member.1, fun type => classes.ofJson member.2 type) := by
  induction members with
  | nil => rfl
  | cons member rest ih => rw [List.map_cons, memberReaders, ih, List.map_cons]

theorem reader_eq (key : String) :
    Entries.get? Value.same (.string key)
        (classes.memberReaders (members.map fun member => (Value.string member.1, member.2))) =
      (Entries.find? key members).map fun data type => classes.ofJson data type := by
  rw [memberReaders_texts]
  exact Entries.get?_text key (fun data type => classes.ofJson data type) members

def Takes (classes : Classes) (members : List (String × Value)) (typed : RecordField × DataType)
    (value : Value) : Prop :=
  match Entries.find? typed.1.key members with
  | none => typed.1.default = some value
  | some data => classes.ofJson data typed.2 = .ok value

structure Gives (classes : Classes) (members : List (String × Value))
    (typed : List (RecordField × DataType)) (given : List (String × Value)) : Prop where
  known : ∀ entry ∈ given, ∃ pair ∈ typed, pair.1.name = entry.1
  absent : ∀ pair ∈ typed, Entries.find? pair.1.key members = none → Entries.find? pair.1.name given = none
  read : ∀ pair ∈ typed, ∀ data, Entries.find? pair.1.key members = some data →
    ∃ value, classes.ofJson data pair.2 = .ok value ∧ Entries.find? pair.1.name given = some value

theorem readFields_gives {typed : List (RecordField × DataType)} {given : List (String × Value)}
    (names : (typed.map fun pair => pair.1.name).Nodup) (settable : ∀ pair ∈ typed, pair.1.settable = true)
    (read : readFields (classes.memberReaders (members.map fun member => (Value.string member.1, member.2)))
      typed = .ok given) : classes.Gives members typed given := by
  induction typed generalizing given with
  | nil =>
      obtain rfl := Except.ok.inj read
      exact ⟨by simp, by simp, by simp⟩
  | cons pair rest ih =>
      obtain ⟨field, type⟩ := pair
      obtain ⟨fresh, names⟩ := List.nodup_cons.mp names
      obtain ⟨own, settable⟩ := List.forall_mem_cons.mp settable
      change field.settable = true at own
      rw [readFields] at read
      simp only [own, ↓reduceIte, reader_eq] at read
      cases found : Entries.find? field.key members with
      | none =>
          simp only [found, Option.map_none] at read
          have later := ih names settable read
          have unnamed : Entries.find? field.name given = none := by
            rw [Entries.find?_eq_none]
            intro entry among same
            obtain ⟨pair, member, named⟩ := later.known entry among
            exact fresh (List.mem_map.mpr ⟨pair, member, named.trans same⟩)
          refine ⟨fun entry among => ?_, ?_, ?_⟩
          · obtain ⟨pair, member, named⟩ := later.known entry among
            exact ⟨pair, List.mem_cons_of_mem _ member, named⟩
          · exact List.forall_mem_cons.mpr ⟨fun _ => unnamed, later.absent⟩
          · exact List.forall_mem_cons.mpr ⟨by simp [found], later.read⟩
      | some data =>
          simp only [found, Option.map_some] at read
          obtain ⟨value, done, read⟩ := except_bind_ok.mp read
          obtain ⟨others, following, same⟩ := except_bind_ok.mp read
          obtain rfl := except_pure_ok.mp same
          have later := ih names settable following
          have apart : ∀ pair ∈ rest, Entries.find? pair.1.name ((field.name, value) :: others) =
              Entries.find? pair.1.name others := by
            intro pair member
            have different : field.name ≠ pair.1.name := fun same =>
              fresh (List.mem_map.mpr ⟨pair, member, same.symm⟩)
            simp [Entries.find?, Entries.get?, different]
          refine ⟨?_, ?_, ?_⟩
          · refine List.forall_mem_cons.mpr ⟨⟨_, List.mem_cons_self, rfl⟩, fun entry among => ?_⟩
            obtain ⟨pair, member, named⟩ := later.known entry among
            exact ⟨pair, List.mem_cons_of_mem _ member, named⟩
          · refine List.forall_mem_cons.mpr ⟨by simp [found], fun pair member missing => ?_⟩
            rw [apart pair member]
            exact later.absent pair member missing
          · refine List.forall_mem_cons.mpr ⟨fun own same => ⟨value, ?_, ?_⟩, fun pair member data same => ?_⟩
            · obtain rfl := Option.some.inj (found.symm.trans same)
              exact done
            · simp [Entries.find?, Entries.get?]
            · rw [apart pair member]
              exact later.read pair member data same

theorem Gives.takes_iff {typed : List (RecordField × DataType)} {given : List (String × Value)}
    (gives : classes.Gives members typed given) {pair : RecordField × DataType} (among : pair ∈ typed)
    {value : Value} : classes.Takes members pair value ↔ RecordClass.fieldValue given pair.1 = some value := by
  unfold Takes RecordClass.fieldValue
  cases searched : Entries.find? pair.1.key members with
  | none => simp [gives.absent pair among searched]
  | some data =>
      obtain ⟨own, done, present⟩ := gives.read pair among data searched
      simp [done, present]

theorem readFields_succeeds {typed : List (RecordField × DataType)}
    (readable : ∀ pair ∈ typed, ∀ data, Entries.find? pair.1.key members = some data →
      ∃ value, classes.ofJson data pair.2 = .ok value) :
    ∃ given, readFields (classes.memberReaders
      (members.map fun member => (Value.string member.1, member.2))) typed = .ok given := by
  induction typed with
  | nil => exact ⟨[], rfl⟩
  | cons pair rest ih =>
      obtain ⟨field, type⟩ := pair
      obtain ⟨own, others⟩ := List.forall_mem_cons.mp readable
      obtain ⟨given, following⟩ := ih others
      rw [readFields, reader_eq]
      split
      · cases found : Entries.find? field.key members with
        | none => exact ⟨given, following⟩
        | some data =>
            obtain ⟨value, done⟩ := own data found
            refine ⟨(field.name, value) :: given, ?_⟩
            simp only [Option.map_some, done, following]
            rfl
      · exact ⟨given, following⟩

/-! Making a record of what is given. -/

theorem accepts_of_mem (regular : recordClass.Regular) {field : RecordField}
    (member : field ∈ recordClass.fields) : recordClass.accepts field.name = true := by
  simp only [RecordClass.accepts, List.any_eq_true, Bool.and_eq_true, beq_iff_eq]
  exact ⟨field, member, regular.settable field member, rfl⟩

theorem missing_eq_nil_iff (regular : recordClass.Regular) {given : List (String × Value)} :
    recordClass.missing given = [] ↔
      ∀ field ∈ recordClass.fields, (RecordClass.fieldValue given field).isSome = true := by
  rw [RecordClass.missing, List.map_eq_nil_iff, List.filter_eq_nil_iff]
  refine forall₂_congr fun field member => ?_
  rw [RecordClass.fieldValue]
  cases Entries.find? field.name given <;> cases field.default <;> simp [regular.settable field member]

/-- A record is made if every field that is given nothing has a default. -/
theorem make_ok (regular : recordClass.Regular) {given : List (String × Value)} {back : Value}
    (known : ∀ entry ∈ given, recordClass.accepts entry.1 = true) :
    recordClass.make given = .ok back ↔
      (∀ field ∈ recordClass.fields, (RecordClass.fieldValue given field).isSome = true) ∧
        back = .record recordClass.name (recordClass.fields.map fun field =>
          (field.name, (RecordClass.fieldValue given field).getD .null)) := by
  have expected : given.find? (fun pair => !recordClass.accepts pair.1) = none := by
    rw [List.find?_eq_none]
    intro entry among
    simp [known entry among]
  have values (filled : ∀ field ∈ recordClass.fields, (RecordClass.fieldValue given field).isSome = true) :
      (recordClass.fields.filterMap fun field => (field.name, ·) <$> RecordClass.fieldValue given field) =
        recordClass.fields.map fun field =>
          (field.name, (RecordClass.fieldValue given field).getD .null) := by
    rw [← List.filterMap_eq_map]
    refine List.filterMap_congr fun field member => ?_
    obtain ⟨value, found⟩ := Option.isSome_iff_exists.mp (filled field member)
    simp [found]
  rw [RecordClass.make, expected]
  dsimp only
  constructor
  · intro made
    split at made
    · rename_i none
      have filled := (missing_eq_nil_iff regular).mp none
      refine ⟨filled, ?_⟩
      rw [← values filled]
      exact (Except.ok.inj made).symm
    · cases made
  · rintro ⟨filled, rfl⟩
    rw [(missing_eq_nil_iff regular).mpr filled]
    dsimp only
    rw [values filled]

theorem checkSortable_texts (texts : List Value) (all : ∀ key ∈ texts, ∃ text, key = .string text) :
    checkSortable texts = .ok () := by
  induction texts with
  | nil => rfl
  | cons first rest ih =>
      cases rest with
      | nil => rfl
      | cons second rest =>
          obtain ⟨⟨own, rfl⟩, others⟩ := List.forall_mem_cons.mp all
          obtain ⟨⟨next, rfl⟩, -⟩ := List.forall_mem_cons.mp others
          simpa [checkSortable, unordered?] using ih others

theorem fieldTypes_ok {typed : List (RecordField × DataType)} :
    classes.fieldTypes recordClass = .ok typed ↔
      List.Forall₂ (fun field pair => pair.1 = field ∧
        field.type.denote (classes.sees recordClass) = .ok pair.2) recordClass.fields typed := by
  rw [fieldTypes, mapM_ok_iff]
  refine iff_of_eq (congrArg (fun related => List.Forall₂ related recordClass.fields typed) ?_)
  funext field pair
  cases field.type.denote (classes.sees recordClass) with
  | error fault => simp
  | ok type => simp [Prod.ext_iff, eq_comm]

theorem fieldTypes_fields {typed : List (RecordField × DataType)}
    (types : classes.fieldTypes recordClass = .ok typed) : typed.map Prod.fst = recordClass.fields := by
  have same : recordClass.fields.map id = typed.map Prod.fst :=
    map_eq_of_forall₂ ((fieldTypes_ok.mp types).imp fun field pair both => both.1.symm)
  rw [← same, List.map_id]

theorem sortable_texts (accepts : Value → Bool) :
    checkSortable (((classes.memberReaders
      (members.map fun member => (Value.string member.1, member.2))).map Prod.fst).filter accepts) =
        .ok () := by
  refine checkSortable_texts _ fun key kept => ?_
  rw [memberReaders_texts, List.map_map] at kept
  obtain ⟨member, -, rfl⟩ := List.mem_map.mp (List.mem_filter.mp kept).1
  exact ⟨member.1, rfl⟩

theorem recordFields_gives (regular : recordClass.Regular) {typed : List (RecordField × DataType)}
    (types : classes.fieldTypes recordClass = .ok typed) {given : List (String × Value)}
    (read : readFields (classes.memberReaders (members.map fun member => (Value.string member.1, member.2)))
      typed = .ok given) :
    classes.Gives members typed given ∧ ∀ entry ∈ given, recordClass.accepts entry.1 = true := by
  have same := fieldTypes_fields types
  have member {pair : RecordField × DataType} (among : pair ∈ typed) : pair.1 ∈ recordClass.fields :=
    same ▸ List.mem_map_of_mem among
  have names : (typed.map fun pair => pair.1.name).Nodup := by
    have own := regular.names
    rwa [← same, List.map_map] at own
  have gives := readFields_gives names (fun pair among => regular.settable pair.1 (member among)) read
  refine ⟨gives, fun entry among => ?_⟩
  obtain ⟨pair, present, name⟩ := gives.known entry among
  rw [← name]
  exact accepts_of_mem regular (member present)

theorem find?_of_ofJson (reads : type.essence = .record className) {back : Value}
    (read : classes.ofJson (.ofMembers members) type = .ok back) :
    ∃ recordClass, classes.find? className = some recordClass := by
  rw [Value.ofMembers, ofJson, reads] at read
  dsimp only at read
  rw [recordOf] at read
  split at read
  · cases read
  · rename_i recordClass found
    exact ⟨recordClass, found⟩

/-- Reading an object as a class: the fields take what they find, and the members of no field are left out. -/
theorem ofJson_record_ok (regular : recordClass.Regular) (found : classes.find? className = some recordClass)
    (reads : type.essence = .record className) {back : Value} :
    classes.ofJson (.ofMembers members) type = .ok back ↔
      ∃ typed, ∃ value : RecordField → Value, classes.fieldTypes recordClass = .ok typed ∧
        (∀ pair ∈ typed, classes.Takes members pair (value pair.1)) ∧
        back = .record className (recordClass.fields.map fun field => (field.name, value field)) := by
  obtain ⟨-, named⟩ := find?_some found
  rw [Value.ofMembers, ofJson, reads]
  dsimp only
  rw [recordOf, found]
  dsimp only
  constructor
  · intro read
    obtain ⟨typed, types, read⟩ := except_bind_ok.mp read
    obtain ⟨given, fields, read⟩ := except_bind_ok.mp read
    obtain ⟨_, -, made⟩ := except_bind_ok.mp read
    obtain ⟨gives, known⟩ := recordFields_gives regular types fields
    obtain ⟨filled, written⟩ := (make_ok regular known).mp made
    refine ⟨typed, fun field => (RecordClass.fieldValue given field).getD .null, types, ?_, ?_⟩
    · intro pair among
      have member : pair.1 ∈ recordClass.fields := fieldTypes_fields types ▸ List.mem_map_of_mem among
      obtain ⟨value, taken⟩ := Option.isSome_iff_exists.mp (filled pair.1 member)
      rw [gives.takes_iff among]
      simp [taken]
    · rw [written, named]
  · rintro ⟨typed, value, types, takes, rfl⟩
    have readable : ∀ pair ∈ typed, ∀ data, Entries.find? pair.1.key members = some data →
        ∃ value, classes.ofJson data pair.2 = .ok value := by
      intro pair among data searched
      have taken := takes pair among
      simp only [Takes, searched] at taken
      exact ⟨value pair.1, taken⟩
    obtain ⟨given, fields⟩ := readFields_succeeds readable
    obtain ⟨gives, known⟩ := recordFields_gives regular types fields
    have taken : ∀ field ∈ recordClass.fields, RecordClass.fieldValue given field = some (value field) := by
      intro field member
      rw [← fieldTypes_fields types] at member
      obtain ⟨pair, among, rfl⟩ := List.mem_map.mp member
      exact (gives.takes_iff among).mp (takes pair among)
    have made : recordClass.make given =
        .ok (.record className (recordClass.fields.map fun field => (field.name, value field))) := by
      refine (make_ok regular known).mpr ⟨fun field member => by simp [taken field member], ?_⟩
      rw [named]
      congr 1
      exact List.map_congr_left fun field member => by rw [taken field member, Option.getD_some]
    refine except_bind_ok.mpr ⟨typed, types, except_bind_ok.mpr ⟨given, fields, ?_⟩⟩
    exact except_bind_ok.mpr ⟨(), sortable_texts _, made⟩

/-! Writing a record: its members are those of the fields that are not null. -/

theorem keyOf_field (regular : recordClass.Regular) (found : classes.find? className = some recordClass)
    {field : RecordField} (member : field ∈ recordClass.fields) :
    classes.keyOf className field.name = field.key := by
  have first : recordClass.fields.find? (fun declared => declared.name == field.name) = some field :=
    find?_of_key regular.names member fun other => beq_iff_eq
  simp only [keyOf, found, first]

def writtenMembers (classes : Classes) (recordClass : RecordClass) (value : RecordField → Value) :
    List (String × Value) :=
  (recordClass.fields.filter fun field => !(value field).isNull).map fun field =>
    (field.key, classes.toJson (value field))

theorem writtenMembers_nodup (regular : recordClass.Regular) (value : RecordField → Value) :
    ((classes.writtenMembers recordClass value).map Prod.fst).Nodup := by
  rw [writtenMembers, List.map_map]
  exact regular.keys.sublist (List.filter_sublist.map RecordField.key)

theorem find?_writtenMembers (regular : recordClass.Regular) (value : RecordField → Value)
    {field : RecordField} (member : field ∈ recordClass.fields) :
    Entries.find? field.key (classes.writtenMembers recordClass value) =
      if (value field).isNull then none else some (classes.toJson (value field)) := by
  have kept := Entries.find?_kept regular.keys (fun field => !(value field).isNull)
    (fun field => classes.toJson (value field)) member
  rw [writtenMembers, kept]
  cases (value field).isNull <;> rfl

theorem fieldsToJson_eq (keyOf : String → String) (fields : List (String × Value)) :
    classes.fieldsToJson keyOf fields =
      (fields.filter fun entry => !entry.2.isNull).map fun entry =>
        (Value.string (keyOf entry.1), classes.toJson entry.2) := by
  induction fields with
  | nil => rfl
  | cons entry rest ih =>
      rw [fieldsToJson, ih]
      cases null : entry.2.isNull <;> simp [null]

theorem toJson_record (regular : recordClass.Regular) (found : classes.find? className = some recordClass)
    (value : RecordField → Value) :
    classes.toJson (.record className (recordClass.fields.map fun field => (field.name, value field))) =
      .ofMembers (classes.writtenMembers recordClass value) := by
  have written : classes.fieldsToJson (classes.keyOf className)
      (recordClass.fields.map fun field => (field.name, value field)) =
        (classes.writtenMembers recordClass value).map fun member => (Value.string member.1, member.2) := by
    rw [fieldsToJson_eq, List.filter_map, List.map_map, writtenMembers, List.map_map]
    refine List.map_congr_left fun field kept => ?_
    have key := keyOf_field regular found (List.mem_filter.mp kept).1
    exact congrArg (fun own => (Value.string own, classes.toJson (value field))) key
  rw [toJson, written, Entries.ofPairs_of_distinct (distinct_texts (writtenMembers_nodup regular value))]
  rfl

end Classes
end Client
end OpenApiClient
