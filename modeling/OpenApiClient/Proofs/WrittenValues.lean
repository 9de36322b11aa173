import OpenApiClient.Client.Request
import OpenApiClient.Proofs.Outcome

/-! Values that can be written. A text is missing for a value exactly if an integer beyond the limit is among its
parts, whatever the value is written for; and where there is none, parameters are set without a fault. -/

namespace OpenApiClient

namespace Value

/-! An integer beyond the limit, among parts. -/

theorem itemsHaveLongInteger_eq (items : List Value) : itemsHaveLongInteger items = items.any hasLongInteger := by
  induction items with
  | nil => rfl
  | cons item rest ih => rw [itemsHaveLongInteger, ih, List.any_cons]

theorem membersHaveLongInteger_eq (members : List (Value × Value)) :
    membersHaveLongInteger members =
      members.any fun member => member.1.hasLongInteger || member.2.hasLongInteger := by
  induction members with
  | nil => rfl
  | cons member rest ih => rw [membersHaveLongInteger, ih, List.any_cons]

theorem itemsHaveLongKey_eq (items : List Value) : itemsHaveLongKey items = items.any hasLongKey := by
  induction items with
  | nil => rfl
  | cons item rest ih => rw [itemsHaveLongKey, ih, List.any_cons]

theorem membersHaveLongKey_eq (members : List (Value × Value)) :
    membersHaveLongKey members = members.any fun member => member.1.hasLongInteger || member.2.hasLongKey := by
  induction members with
  | nil => rfl
  | cons member rest ih => rw [membersHaveLongKey, ih, List.any_cons]

theorem fieldsHaveLongKey_eq (fields : List (String × Value)) :
    fieldsHaveLongKey fields = fields.any fun field => field.2.hasLongKey := by
  induction fields with
  | nil => rfl
  | cons field rest ih => rw [fieldsHaveLongKey, ih, List.any_cons]

theorem hasLongKey_array {items : List Value} (each : ∀ item ∈ items, item.hasLongKey = false) :
    (array items).hasLongKey = false := by
  rw [hasLongKey, itemsHaveLongKey_eq, List.any_eq_false]
  exact fun item among => by simp [each item among]

theorem hasLongKey_ofMembers {members : List (String × Value)}
    (each : ∀ member ∈ members, member.2.hasLongKey = false) : (ofMembers members).hasLongKey = false := by
  rw [ofMembers, hasLongKey, membersHaveLongKey_eq, List.any_map, List.any_eq_false]
  exact fun member among => by simp [each member among]

theorem hasLongKey_record {className : String} {fields : List (String × Value)}
    (each : ∀ field ∈ fields, field.2.hasLongKey = false) : (record className fields).hasLongKey = false := by
  rw [hasLongKey, fieldsHaveLongKey_eq, List.any_eq_false]
  exact fun field among => by simp [each field among]

mutual

theorem hasLongKey_of_short : ∀ {value : Value}, value.hasLongInteger = false → value.hasLongKey = false
  | .array _, short | .tuple _, short => itemsHaveLongKey_of_short short
  | .object _, short => membersHaveLongKey_of_short short
  | .record _ _, short => fieldsHaveLongKey_of_short short
  | .null, _ | .bool _, _ | .int _, _ | .float _, _ | .string _, _ | .bytes _, _ | .date _ _ _, _ => rfl

theorem itemsHaveLongKey_of_short :
    ∀ {items : List Value}, itemsHaveLongInteger items = false → itemsHaveLongKey items = false
  | [], _ => rfl
  | item :: rest, short => by
      rw [itemsHaveLongInteger, Bool.or_eq_false_iff] at short
      rw [itemsHaveLongKey, hasLongKey_of_short short.1, itemsHaveLongKey_of_short short.2]
      rfl

theorem membersHaveLongKey_of_short :
    ∀ {members : List (Value × Value)}, membersHaveLongInteger members = false → membersHaveLongKey members = false
  | [], _ => rfl
  | (key, value) :: rest, short => by
      rw [membersHaveLongInteger, Bool.or_eq_false_iff, Bool.or_eq_false_iff] at short
      rw [membersHaveLongKey, short.1.1, hasLongKey_of_short short.1.2, membersHaveLongKey_of_short short.2]
      rfl

theorem fieldsHaveLongKey_of_short :
    ∀ {fields : List (String × Value)}, fieldsHaveLongInteger fields = false → fieldsHaveLongKey fields = false
  | [], _ => rfl
  | (name, value) :: rest, short => by
      rw [fieldsHaveLongInteger, Bool.or_eq_false_iff] at short
      rw [fieldsHaveLongKey, hasLongKey_of_short short.1, fieldsHaveLongKey_of_short short.2]
      rfl

end

theorem succeeds_written {value : Value} : Succeeds value.written ↔ value.hasLongInteger = false := by
  rw [written]
  cases value.hasLongInteger <;> simp [Succeeds]

end Value

namespace Client

open Value

theorem succeeds_formatValue {value : Value} : Succeeds (formatValue value) ↔ value.hasLongInteger = false := by
  cases value with
  | null | bool => simp [Succeeds, formatValue, hasLongInteger]
  | _ => exact succeeds_written

theorem hasLongInteger_of_blank {value : Value} (blank : isBlankLeaf value = true) : value.hasLongInteger = false := by
  cases value <;> first | rfl | cases blank

/-! The fields of a value have texts exactly if the value has one. -/

mutual

theorem succeeds_leaves (key : String) :
    ∀ value : Value, Succeeds (leaves key value) ↔ value.hasLongInteger = false
  | .array items | .tuple items => succeeds_itemLeaves (some key) 0 items
  | .object members => succeeds_memberLeaves (some key) members
  | .null | .bool _ | .int _ | .float _ | .string _ | .bytes _ | .date _ _ _ | .record _ _ => by
      rw [leaves]
      · split
        · rename_i blank
          exact iff_of_true ⟨_, rfl⟩ (hasLongInteger_of_blank blank)
        · rw [succeeds_map, succeeds_formatValue]
      all_goals simp

theorem succeeds_memberLeaves (key : Option String) :
    ∀ members : List (Value × Value), Succeeds (memberLeaves key members) ↔ membersHaveLongInteger members = false
  | [] => iff_of_true ⟨_, rfl⟩ rfl
  | (name, value) :: rest => by
      rw [memberLeaves, membersHaveLongInteger, Bool.or_eq_false_iff, Bool.or_eq_false_iff, and_assoc,
        ← succeeds_written, ← succeeds_memberLeaves key rest]
      apply succeeds_bind
      intro text
      rw [← succeeds_leaves (childKey key text) value]
      exact succeeds_bind fun _ => succeeds_bind_pure

theorem succeeds_itemLeaves (key : Option String) (index : Nat) :
    ∀ items : List Value, Succeeds (itemLeaves key index items) ↔ itemsHaveLongInteger items = false
  | [] => iff_of_true ⟨_, rfl⟩ rfl
  | item :: rest => by
      rw [itemLeaves, itemsHaveLongInteger, Bool.or_eq_false_iff, ← succeeds_itemLeaves key (index + 1) rest,
        ← succeeds_leaves (childKey key (toString index)) item]
      exact succeeds_bind fun _ => succeeds_bind_pure

end

/-! The JSON form of a value keeps it within the limit. -/

namespace Classes

variable {classes : Classes}

theorem hasLongInteger_ofPairs {pairs : List (Value × Value)} (short : membersHaveLongInteger pairs = false) :
    (Value.object (Entries.ofPairs Value.same pairs)).hasLongInteger = false := by
  rw [membersHaveLongInteger_eq, List.any_eq_false] at short
  rw [hasLongInteger, membersHaveLongInteger_eq, List.any_eq_false]
  have kept := Entries.forall_mem_ofPairs Value.same (hasLongInteger · = false) (hasLongInteger · = false)
    fun pair among => by simpa using short pair among
  intro entry among
  simpa using kept entry among

mutual

theorem toJson_short : ∀ {value : Value}, value.hasLongInteger = false → (classes.toJson value).hasLongInteger = false
  | .array _, short | .tuple _, short => itemsToJson_short short
  | .object _, short => hasLongInteger_ofPairs (membersToJson_short short)
  | .record _ _, short => hasLongInteger_ofPairs (fieldsToJson_short _ short)
  | .int _, short => short
  | .null, _ | .bool _, _ | .float _, _ | .string _, _ | .bytes _, _ | .date _ _ _, _ => rfl

theorem itemsToJson_short :
    ∀ {items : List Value}, itemsHaveLongInteger items = false →
      itemsHaveLongInteger (classes.itemsToJson items) = false
  | [], _ => rfl
  | item :: rest, short => by
      rw [itemsHaveLongInteger, Bool.or_eq_false_iff] at short
      rw [itemsToJson, itemsHaveLongInteger, toJson_short short.1, itemsToJson_short short.2]
      rfl

theorem membersToJson_short : ∀ {members : List (Value × Value)}, membersHaveLongInteger members = false →
    membersHaveLongInteger (classes.membersToJson members) = false
  | [], _ => rfl
  | (key, value) :: rest, short => by
      rw [membersHaveLongInteger, Bool.or_eq_false_iff, Bool.or_eq_false_iff] at short
      rw [membersToJson, membersHaveLongInteger, hasLongInteger_string, toJson_short short.1.2,
        membersToJson_short short.2]
      rfl

theorem fieldsToJson_short (keyOf : String → String) :
    ∀ {fields : List (String × Value)}, fieldsHaveLongInteger fields = false →
      membersHaveLongInteger (classes.fieldsToJson keyOf fields) = false
  | [], _ => rfl
  | (name, value) :: rest, short => by
      rw [fieldsHaveLongInteger, Bool.or_eq_false_iff] at short
      rw [fieldsToJson]
      split
      · exact fieldsToJson_short keyOf short.2
      · rw [membersHaveLongInteger, hasLongInteger_string, toJson_short short.1, fieldsToJson_short keyOf short.2]
        rfl

end

end Classes

/-! Parameters that are set. -/

theorem atOnce_fault {outcome : Except LongInteger (List (String × String))} (done : Succeeds outcome) :
    (Collected.atOnce outcome).fault = none := by
  obtain ⟨fields, rfl⟩ := done
  rfl

theorem oneByOne_fault {fields : List (Except LongInteger (String × String))}
    (done : ∀ field ∈ fields, Succeeds field) : (Collected.oneByOne fields).fault = none := by
  induction fields with
  | nil => rfl
  | cons field rest ih =>
      obtain ⟨⟨own, rfl⟩, others⟩ := List.forall_mem_cons.mp done
      exact ih others

theorem collect_fault (form : QueryForm) (key : String) {data : Value} (short : data.hasLongInteger = false) :
    (form.collect key data).fault = none := by
  unfold QueryForm.collect
  dsimp only
  split
  · exact atOnce_fault ((succeeds_leaves key data).mpr short)
  · split
    · rename_i items
      rw [hasLongInteger, itemsHaveLongInteger_eq, List.any_eq_false] at short
      have each : ∀ item ∈ items, Succeeds (formatValue item) := fun item among =>
        succeeds_formatValue.mpr (by simpa using short item among)
      split
      · apply oneByOne_fault
        rw [List.forall_mem_map]
        exact fun item among => succeeds_map.mpr (each item among)
      · exact atOnce_fault (succeeds_map.mpr (succeeds_mapM.mpr each))
    · rename_i members
      rw [hasLongInteger, membersHaveLongInteger_eq, List.any_eq_false] at short
      have each : ∀ member ∈ members, Succeeds (formatValue member.2) := by
        intro member among
        have own := short member among
        rw [Bool.not_eq_true, Bool.or_eq_false_iff] at own
        exact succeeds_formatValue.mpr own.2
      split
      · apply oneByOne_fault
        rw [List.forall_mem_map]
        exact fun member among => succeeds_map.mpr (each member among)
      · apply atOnce_fault
        exact succeeds_map.mpr (succeeds_mapM.mpr fun member among => succeeds_map.mpr (each member among))
    · exact atOnce_fault (succeeds_map.mpr (succeeds_formatValue.mpr short))

namespace Request

variable {request : Request} {value : Value}

theorem succeeds_setting (store : String → Request) (short : value.hasLongInteger = false) :
    Succeeds (request.setting value store).outcome := by
  unfold setting
  split
  · exact ⟨request, rfl⟩
  · obtain ⟨text, written⟩ := succeeds_formatValue.mpr short
    rw [written]
    exact ⟨store text, rfl⟩

theorem succeeds_addQuery (classes : Classes) (key : String) (form : QueryForm) (short : value.hasLongInteger = false) :
    Succeeds (request.addQuery classes key value form).outcome := by
  unfold addQuery
  split
  · exact ⟨request, rfl⟩
  · rw [Classes.jsonForm, hasLongKey_of_short short, if_neg (by decide)]
    dsimp only
    rw [Setting.outcome, collect_fault form key (Classes.toJson_short short)]
    exact ⟨_, rfl⟩

end Request
end Client
end OpenApiClient
