import Mathlib.Data.List.Permutation
import OpenApiClient.Proofs.FormFields
import OpenApiClient.Proofs.JsonTexts
import OpenApiClient.Proofs.Naming

/-! The deep-object form. A value has one field for each of its leaves that is neither null nor empty, in the
order of the document, and the path of the leaf in brackets is the key of the field. Where no key of an object
has an opening bracket, a path is read back from its text, so that no field overwrites another. -/

namespace OpenApiClient

namespace Value

variable {value leaf : Value} {parts : List (String × Value)}

def parts? : Value → Option (List (String × Value))
  | .object members => some (members.map fun member => (member.1.display, member.2))
  | .array items | .tuple items => some (items.mapIdx fun place item => (toString place, item))
  | _ => none

theorem parts?_ofMembers (members : List (String × Value)) : (ofMembers members).parts? = some members := by
  rw [ofMembers, parts?, List.map_map]
  exact congrArg some (List.map_id members)

theorem mem_items {items : List Value} {part : String × Value}
    (among : part ∈ items.mapIdx fun place item => (toString place, item)) :
    part.2 ∈ items ∧ ∃ place : Nat, part.1 = toString place := by
  obtain ⟨place, bound, rfl⟩ := List.mem_mapIdx.mp among
  exact ⟨List.getElem_mem bound, place, rfl⟩

theorem sizeOf_part {part : String × Value} (made : value.parts? = some parts) (among : part ∈ parts) :
    sizeOf part.2 < sizeOf value := by
  cases value with
  | object members =>
      cases made
      obtain ⟨member, found, rfl⟩ := List.mem_map.mp among
      have smaller := List.sizeOf_lt_of_mem found
      have halves : sizeOf member = 1 + sizeOf member.1 + sizeOf member.2 := rfl
      change sizeOf member.2 < sizeOf (object members)
      rw [object.sizeOf_spec]
      omega
  | array items =>
      cases made
      have smaller := List.sizeOf_lt_of_mem (mem_items among).1
      rw [array.sizeOf_spec]
      omega
  | tuple items =>
      cases made
      have smaller := List.sizeOf_lt_of_mem (mem_items among).1
      rw [tuple.sizeOf_spec]
      omega
  | _ => cases made

inductive HasKey (name : String) : Value → Prop
  | own {members : List (Value × Value)} : .string name ∈ members.map Prod.fst → HasKey name (.object members)
  | inside {value : Value} {parts : List (String × Value)} {part : String × Value} :
      value.parts? = some parts → part ∈ parts → HasKey name part.2 → HasKey name value

theorem not_hasKey_of_scalar {name : String} (scalar : value.parts? = none) : ¬ value.HasKey name := by
  intro key
  cases key with
  | own => cases scalar
  | inside made => exact absurd (scalar.symm.trans made) (by simp)

theorem hasKey_array {name : String} {items : List Value} (key : HasKey name (.array items)) :
    ∃ item ∈ items, item.HasKey name := by
  cases key with
  | inside made among within =>
      cases made
      exact ⟨_, (mem_items among).1, within⟩

theorem hasKey_ofMembers {name : String} {members : List (String × Value)}
    (key : HasKey name (.ofMembers members)) :
    ∃ member ∈ members, name = member.1 ∨ member.2.HasKey name := by
  cases key with
  | own listed =>
      obtain ⟨pair, among, same⟩ := List.mem_map.mp listed
      obtain ⟨member, found, rfl⟩ := List.mem_map.mp among
      exact ⟨member, found, .inl (Value.string.inj same).symm⟩
  | inside made among within =>
      cases (parts?_ofMembers members).symm.trans made
      exact ⟨_, among, .inr within⟩

structure Step where
  place : Nat
  name : String
  deriving DecidableEq, Repr, Inhabited

/-- A leaf is what has no parts, and is reached by its path. -/
inductive LeafAt : Value → List Step → Value → Prop
  | here {leaf : Value} : leaf.parts? = none → LeafAt leaf [] leaf
  | inside {value part leaf : Value} {parts : List (String × Value)} {place : Nat} {name : String}
      {path : List Step} : value.parts? = some parts → parts[place]? = some (name, part) →
      LeafAt part path leaf → LeafAt value (⟨place, name⟩ :: path) leaf

/-- A path comes before another in the document when its places do. -/
def Before (left right : List Step × Value) : Prop :=
  left.1.map Step.place < right.1.map Step.place

theorem leafAt_of_scalar {path : List Step} (scalar : value.parts? = none) :
    LeafAt value path leaf ↔ path = [] ∧ leaf = value := by
  constructor
  · intro found
    cases found with
    | here => exact ⟨rfl, rfl⟩
    | inside made => exact absurd (scalar.symm.trans made) (by simp)
  · rintro ⟨rfl, rfl⟩
    exact .here scalar

theorem leafAt_of_parts {path : List Step} (made : value.parts? = some parts) :
    LeafAt value path leaf ↔ ∃ place name part rest, path = ⟨place, name⟩ :: rest ∧
      parts[place]? = some (name, part) ∧ LeafAt part rest leaf := by
  constructor
  · intro found
    cases found with
    | here scalar => exact absurd (scalar.symm.trans made) (by simp)
    | inside same present within =>
        cases same.symm.trans made
        exact ⟨_, _, _, _, rfl, present, within⟩
  · rintro ⟨place, name, part, rest, rfl, present, within⟩
    exact .inside made present within

theorem LeafAt.rooted_iff {path other : List Step} {another : Value} (found : LeafAt value path leaf)
    (foundToo : LeafAt value other another) : path.map Step.name = [] ↔ other.map Step.name = [] := by
  cases made : value.parts? with
  | none =>
      rw [((leafAt_of_scalar made).mp found).1, ((leafAt_of_scalar made).mp foundToo).1]
  | some parts =>
      obtain ⟨_, _, _, _, rfl, _⟩ := (leafAt_of_parts made).mp found
      obtain ⟨_, _, _, _, rfl, _⟩ := (leafAt_of_parts made).mp foundToo
      simp

/-! What holds of the parts of JSON data. -/

theorem IsJson.part_names (json : value.IsJson) (made : value.parts? = some parts) :
    (parts.map Prod.fst).Nodup := by
  cases json with
  | @array items =>
      cases made
      have counted : (items.mapIdx fun place item => (toString place, item)).map Prod.fst =
          (List.range items.length).map toString := by
        apply List.ext_getElem
        · simp
        · intro place _ _
          simp
      rw [counted]
      exact List.nodup_range.map Naming.toString_injective
  | @object members nodup =>
      cases (parts?_ofMembers members).symm.trans made
      exact nodup
  | _ => cases made

theorem IsJson.within {part : String × Value} (json : value.IsJson) (made : value.parts? = some parts)
    (among : part ∈ parts) : part.2.IsJson := by
  cases json with
  | @array items all =>
      cases made
      exact all _ (mem_items among).1
  | @object members _ all =>
      cases (parts?_ofMembers members).symm.trans made
      exact all part among
  | _ => cases made

theorem LeafAt.isJson {path : List Step} (found : LeafAt value path leaf) (json : value.IsJson) :
    leaf.IsJson := by
  induction found with
  | here => exact json
  | inside made present _ ih => exact ih (json.within made (List.mem_of_getElem? present))

theorem LeafAt.scalar {path : List Step} (found : LeafAt value path leaf) : leaf.parts? = none := by
  induction found with
  | here scalar => exact scalar
  | inside _ _ _ ih => exact ih

/-- Items are named by digits, so that only keys bring an opening bracket into a path. -/
theorem IsJson.part_unbracketed {part : String × Value} (json : value.IsJson)
    (plain : ∀ name, value.HasKey name → '[' ∉ name.toList) (made : value.parts? = some parts)
    (among : part ∈ parts) : '[' ∉ part.1.toList := by
  cases json with
  | @array items =>
      cases made
      obtain ⟨-, place, named⟩ := mem_items among
      intro bracket
      rw [named] at bracket
      have digit := Naming.toString_digits place _ bracket
      exact absurd digit (by decide)
  | @object members =>
      cases (parts?_ofMembers members).symm.trans made
      apply plain part.1
      apply HasKey.own
      rw [List.map_map]
      exact List.mem_map_of_mem among
  | _ => cases made

theorem LeafAt.unbracketed {path : List Step} (found : LeafAt value path leaf) (json : value.IsJson)
    (plain : ∀ name, value.HasKey name → '[' ∉ name.toList) :
    ∀ name ∈ path.map Step.name, '[' ∉ name.toList := by
  induction found with
  | here => simp
  | inside made present _ ih =>
      have among := List.mem_of_getElem? present
      rw [List.map_cons, List.forall_mem_cons]
      constructor
      · exact json.part_unbracketed plain made among
      · apply ih (json.within made among)
        intro name key
        exact plain name (.inside made among key)

/-- Names tell the leaves of JSON data apart. -/
theorem LeafAt.determined {path other : List Step} {another : Value} (found : LeafAt value path leaf)
    (json : value.IsJson) (foundToo : LeafAt value other another)
    (same : path.map Step.name = other.map Step.name) : path = other ∧ leaf = another := by
  induction found generalizing other with
  | here scalar =>
      obtain ⟨rfl, rfl⟩ := (leafAt_of_scalar scalar).mp foundToo
      exact ⟨rfl, rfl⟩
  | @inside value part leaf parts place name path made present _ ih =>
      obtain ⟨place', name', part', rest, rfl, presentToo, within⟩ := (leafAt_of_parts made).mp foundToo
      obtain ⟨rfl, following⟩ := List.cons.inj same
      have places : place = place' := by
        have named : (parts.map Prod.fst)[place]? = (parts.map Prod.fst)[place']? := by
          rw [List.getElem?_map, List.getElem?_map, present, presentToo]
          rfl
        have bound : place < (parts.map Prod.fst).length := by
          rw [List.length_map]
          exact (List.getElem?_eq_some_iff.mp present).1
        exact (List.getElem?_inj bound (json.part_names made)).mp named
      subst places
      cases present.symm.trans presentToo
      obtain ⟨rfl, rfl⟩ := ih (json.within made (List.mem_of_getElem? present)) within following
      exact ⟨rfl, rfl⟩

def HasLongLeaf (value : Value) : Prop :=
  ∃ path number, LeafAt value path (.int number) ∧ Nat.pow 10 integerDigitLimit ≤ number.natAbs

theorem hasLongLeaf_of_scalar (scalar : value.parts? = none) :
    value.HasLongLeaf ↔ ∃ number, value = .int number ∧ Nat.pow 10 integerDigitLimit ≤ number.natAbs := by
  simp only [HasLongLeaf, leafAt_of_scalar scalar]
  constructor
  · rintro ⟨_, number, ⟨-, same⟩, long⟩
    exact ⟨number, same.symm, long⟩
  · rintro ⟨number, same, long⟩
    exact ⟨[], number, ⟨rfl, same.symm⟩, long⟩

theorem hasLongLeaf_of_parts (made : value.parts? = some parts) :
    value.HasLongLeaf ↔ ∃ part ∈ parts, part.2.HasLongLeaf := by
  constructor
  · rintro ⟨path, number, found, long⟩
    obtain ⟨place, name, part, rest, rfl, present, within⟩ := (leafAt_of_parts made).mp found
    exact ⟨(name, part), List.mem_of_getElem? present, rest, number, within, long⟩
  · rintro ⟨⟨name, part⟩, among, path, number, found, long⟩
    obtain ⟨place, present⟩ := List.mem_iff_getElem?.mp among
    exact ⟨_, number, .inside made present found, long⟩

/-- The keys of JSON data are texts, so that only a leaf is beyond the limit. -/
theorem IsJson.hasLongInteger_iff (json : value.IsJson) : value.hasLongInteger = true ↔ value.HasLongLeaf := by
  induction json with
  | int number =>
      rw [hasLongLeaf_of_scalar (by rfl), hasLongInteger, isLongInteger_iff]
      simp
  | null | bool | float | string =>
      rw [hasLongLeaf_of_scalar (by rfl)]
      simp [hasLongInteger]
  | @array items _ ih =>
      rw [hasLongInteger, itemsHaveLongInteger_eq, List.any_eq_true, hasLongLeaf_of_parts rfl]
      constructor
      · rintro ⟨item, among, long⟩
        obtain ⟨place, bound, rfl⟩ := List.getElem_of_mem among
        exact ⟨_, List.mem_mapIdx.mpr ⟨place, bound, rfl⟩, (ih _ among).mp long⟩
      · rintro ⟨part, among, long⟩
        have inside := (mem_items among).1
        exact ⟨part.2, inside, (ih _ inside).mpr long⟩
  | @object members _ _ ih =>
      rw [ofMembers, hasLongInteger, membersHaveLongInteger_eq, List.any_map, List.any_eq_true, ← ofMembers,
        hasLongLeaf_of_parts (parts?_ofMembers members)]
      refine exists_congr fun member => and_congr_right fun among => ?_
      simpa [hasLongInteger] using ih member among

end Value

namespace Client

variable {value : Value} {parts : List (String × Value)}

/-! Paths as they are written. -/

def bracketed (names : List String) : List Char :=
  names.flatMap fun name => '[' :: name.toList ++ [']']

/-- The key of a field. Without a key to begin with, the first name of the path stands bare. -/
def writtenPath (key : Option String) (names : List String) : String :=
  match key, names with
  | some key, names => key ++ String.ofList (bracketed names)
  | none, [] => ""
  | none, first :: rest => first ++ String.ofList (bracketed rest)

theorem writtenPath_childKey (key : Option String) (name : String) (names : List String) :
    writtenPath (some (childKey key name)) names = writtenPath key (name :: names) := by
  cases key with
  | none => rfl
  | some key =>
      apply String.toList_inj.mp
      simp [writtenPath, childKey, bracketed]

theorem splitAt_bracketed {text : List Char} {names : List String} (bare : '[' ∉ text)
    (plain : ∀ name ∈ names, '[' ∉ name.toList) :
    Text.splitAt '[' (text ++ bracketed names) = text :: names.map fun name => name.toList ++ [']'] := by
  induction names generalizing text with
  | nil => simp [bracketed, Text.splitAt_whole bare]
  | cons name names ih =>
      obtain ⟨first, others⟩ := List.forall_mem_cons.mp plain
      have closed : '[' ∉ name.toList ++ [']'] := by simp [first]
      have opened : text ++ bracketed (name :: names) =
          text ++ '[' :: ((name.toList ++ [']']) ++ bracketed names) := by
        simp [bracketed]
      rw [opened, Text.splitAt_append bare, ih closed others, List.map_cons]

/-- Names without an opening bracket are read back, whatever text stands before the first bracket. -/
theorem bracketed_inj {text other : List Char} {names others : List String} (bare : '[' ∉ text)
    (bareToo : '[' ∉ other) (plain : ∀ name ∈ names, '[' ∉ name.toList)
    (plainToo : ∀ name ∈ others, '[' ∉ name.toList)
    (same : text ++ bracketed names = other ++ bracketed others) : text = other ∧ names = others := by
  have parts := congrArg (Text.splitAt '[') same
  rw [splitAt_bracketed bare plain, splitAt_bracketed bareToo plainToo] at parts
  obtain ⟨first, rest⟩ := List.cons.inj parts
  have different : Function.Injective fun name : String => name.toList ++ [']'] := by
    intro left right alike
    exact String.toList_inj.mp (List.append_cancel_right alike)
  exact ⟨first, List.map_injective_iff.mpr different rest⟩

theorem writtenPath_inj {key : Option String} {names others : List String}
    (plain : ∀ name ∈ names, '[' ∉ name.toList) (plainToo : ∀ name ∈ others, '[' ∉ name.toList)
    (rooted : key = none → (names = [] ↔ others = []))
    (same : writtenPath key names = writtenPath key others) : names = others := by
  cases key with
  | some key =>
      have brackets : bracketed names = bracketed others := by
        have texts := congrArg String.toList same
        simpa [writtenPath] using texts
      exact (bracketed_inj List.not_mem_nil List.not_mem_nil plain plainToo brackets).2
  | none =>
      cases names with
      | nil => exact ((rooted rfl).mp rfl).symm
      | cons first names =>
          cases others with
          | nil => exact (rooted rfl).mpr rfl
          | cons second others =>
              obtain ⟨bare, plain⟩ := List.forall_mem_cons.mp plain
              obtain ⟨bareToo, plainToo⟩ := List.forall_mem_cons.mp plainToo
              have texts := congrArg String.toList same
              simp only [writtenPath, String.toList_append, String.toList_ofList] at texts
              obtain ⟨alike, following⟩ := bracketed_inj bare bareToo plain plainToo texts
              rw [String.toList_inj.mp alike, following]

/-! The fields of a value follow its parts. -/

theorem leaves_of_scalar (scalar : value.parts? = none) (key : String) :
    leaves key value =
      if isBlankLeaf value then .ok [] else (fun text => [(key, text)]) <$> formatValue value := by
  cases value with
  | array | tuple | object => cases scalar
  | _ => rfl

def WritesParts (key : Option String) (parts : List (String × Value)) (fields : List (String × String)) : Prop :=
  ∃ lists, List.Forall₂ (fun part own => leaves (childKey key part.1) part.2 = .ok own) parts lists ∧
    fields = lists.flatten

theorem memberLeaves_ok {key : Option String} {members : List (Value × Value)} {fields : List (String × String)}
    (written : memberLeaves key members = .ok fields) :
    WritesParts key (members.map fun member => (member.1.display, member.2)) fields := by
  induction members generalizing fields with
  | nil =>
      cases written
      exact ⟨[], .nil, rfl⟩
  | cons member rest ih =>
      obtain ⟨name, named, written⟩ := except_bind_ok.mp written
      obtain ⟨own, first, written⟩ := except_bind_ok.mp written
      obtain ⟨others, later, written⟩ := except_bind_ok.mp written
      obtain rfl := except_pure_ok.mp written
      obtain ⟨lists, each, rfl⟩ := ih later
      obtain rfl := Value.written_ok named
      exact ⟨own :: lists, .cons first each, rfl⟩

theorem itemLeaves_ok {key : Option String} {place : Nat} {items : List Value} {fields : List (String × String)}
    (written : itemLeaves key place items = .ok fields) :
    WritesParts key (items.mapIdx fun index item => (toString (place + index), item)) fields := by
  induction items generalizing place fields with
  | nil =>
      cases written
      exact ⟨[], .nil, rfl⟩
  | cons item rest ih =>
      obtain ⟨own, first, written⟩ := except_bind_ok.mp written
      obtain ⟨others, later, written⟩ := except_bind_ok.mp written
      obtain rfl := except_pure_ok.mp written
      obtain ⟨lists, each, rfl⟩ := ih later
      refine ⟨own :: lists, ?_, rfl⟩
      rw [List.mapIdx_cons]
      refine .cons first ?_
      simpa only [Nat.add_assoc, Nat.add_comm 1] using each

theorem deepObject_of_parts {key : Option String} {fields : List (String × String)} (made : value.parts? = some parts)
    (written : deepObject key value = .ok fields) : WritesParts key parts fields := by
  have counted : ∀ {items : List Value}, itemLeaves key 0 items = .ok fields →
      WritesParts key (items.mapIdx fun index item => (toString index, item)) fields := by
    intro items written
    simpa using itemLeaves_ok written
  cases value with
  | object members =>
      cases made
      cases key with
      | none => exact memberLeaves_ok (except_mapError_ok.mp written)
      | some key => exact memberLeaves_ok (except_mapError_ok.mp written)
  | array items =>
      cases made
      cases key with
      | none => exact counted (except_mapError_ok.mp written)
      | some key => exact counted (except_mapError_ok.mp written)
  | tuple items =>
      cases made
      cases key with
      | none => exact counted (except_mapError_ok.mp written)
      | some key => exact counted (except_mapError_ok.mp written)
  | _ => cases made

theorem isBlankLeaf_iff : isBlankLeaf value = false ↔ value ≠ .null ∧ value ≠ .string "" := by
  cases value with
  | string text => simp [isBlankLeaf]
  | _ => simp [isBlankLeaf]

theorem deepObject_of_scalar (scalar : value.parts? = none) :
    deepObject none value = if isBlankLeaf value then .ok [] else .error (refuse value) := by
  cases value with
  | array | tuple | object => cases scalar
  | _ => rfl

theorem longInteger_error {outcome : Except LongInteger (List (String × String))}
    (succeeds : Succeeds outcome ↔ value.hasLongInteger = false) (fault : DeepObjectFault) :
    outcome.mapError .longInteger = .error fault ↔ value.hasLongInteger = true ∧ fault = .longInteger ⟨⟩ := by
  cases outcome with
  | ok fields => simp [except_mapError_error, succeeds.mp ⟨fields, rfl⟩]
  | error own =>
      have long : value.hasLongInteger = true := by
        rw [← Bool.not_eq_false, ← succeeds]
        simp [Succeeds]
      rw [except_mapError_error, and_iff_right long]
      constructor
      · rintro ⟨⟨⟩, -, rfl⟩
        rfl
      · rintro rfl
        exact ⟨own, rfl, rfl⟩

/-- A value is refused for an integer beyond the limit, wherever it is in the value, or as a leaf that would be written
and has no key. -/
theorem deepObject_error (key : Option String) (fault : DeepObjectFault) :
    deepObject key value = .error fault ↔
      (value.hasLongInteger = true ∧ fault = .longInteger ⟨⟩) ∨
        (value.hasLongInteger = false ∧ key = none ∧ value.parts? = none ∧ value ≠ .null ∧ value ≠ .string "" ∧
          fault = .bareScalar value) := by
  cases key with
  | some key =>
      rw [deepObject, longInteger_error (succeeds_leaves key value)]
      simp
  | none =>
      cases made : value.parts? with
      | some parts =>
          have refused : deepObject none value = .error fault ↔
              value.hasLongInteger = true ∧ fault = .longInteger ⟨⟩ := by
            cases value with
            | object members => exact longInteger_error (succeeds_memberLeaves none members) fault
            | array items => exact longInteger_error (succeeds_itemLeaves none 0 items) fault
            | tuple items => exact longInteger_error (succeeds_itemLeaves none 0 items) fault
            | _ => cases made
          rw [refused]
          simp
      | none =>
          rw [deepObject_of_scalar made, ← and_assoc (a := value ≠ .null), ← isBlankLeaf_iff, refuse]
          by_cases blank : isBlankLeaf value = true
          · simp [blank, hasLongInteger_of_blank blank]
          · cases value.hasLongInteger <;> simp [blank, eq_comm]

/-! A list of leaves with their paths, put together from the lists of the parts. -/

def IsField (key : Option String) (entry : List Value.Step × Value) (field : String × String) : Prop :=
  field.1 = writtenPath key (entry.1.map Value.Step.name) ∧ formatValue entry.2 = .ok field.2

def placed (found : String × Value → List (List Value.Step × Value)) (place : Nat) :
    List (String × Value) → List (List Value.Step × Value)
  | [] => []
  | part :: rest =>
      (found part).map (fun entry => (⟨place, part.1⟩ :: entry.1, entry.2)) ++ placed found (place + 1) rest

section Placed

variable {found : String × Value → List (List Value.Step × Value)}

theorem mem_placed {place : Nat} {path : List Value.Step} {leaf : Value} :
    (path, leaf) ∈ placed found place parts ↔ ∃ index part rest, parts[index]? = some part ∧
      path = ⟨place + index, part.1⟩ :: rest ∧ (rest, leaf) ∈ found part := by
  induction parts generalizing place with
  | nil => simp [placed]
  | cons first parts ih =>
      rw [placed, List.mem_append, ih, List.mem_map]
      constructor
      · rintro (⟨⟨rest, leaf⟩, within, same⟩ | ⟨index, part, rest, present, rfl, within⟩)
        · cases same
          exact ⟨0, first, rest, rfl, rfl, within⟩
        · exact ⟨index + 1, part, rest, present, by rw [Nat.add_right_comm, Nat.add_assoc], within⟩
      · rintro ⟨index, part, rest, present, rfl, within⟩
        cases index with
        | zero =>
            cases present
            exact .inl ⟨_, within, rfl⟩
        | succ index =>
            refine .inr ⟨index, part, rest, present, ?_, within⟩
            rw [Nat.add_right_comm, Nat.add_assoc]

theorem placed_ordered {place : Nat} (each : ∀ part ∈ parts, (found part).Pairwise Value.Before) :
    (placed found place parts).Pairwise Value.Before := by
  induction parts generalizing place with
  | nil => exact .nil
  | cons first parts ih =>
      obtain ⟨inFirst, later⟩ := List.forall_mem_cons.mp each
      rw [placed, List.pairwise_append, List.pairwise_map]
      refine ⟨inFirst.imp ?_, ih later, ?_⟩
      · intro left right before
        exact List.cons_lt_cons_iff.mpr (.inr ⟨rfl, before⟩)
      · -- Whatever the paths go on with, the places of the parts decide.
        intro left inLeft right inRight
        obtain ⟨entry, _, rfl⟩ := List.mem_map.mp inLeft
        obtain ⟨path, leaf⟩ := right
        obtain ⟨index, part, rest, _, rfl, _⟩ := mem_placed.mp inRight
        apply List.cons_lt_cons_iff.mpr
        left
        change place < place + 1 + index
        omega

theorem placed_fields (key : Option String) (place : Nat) {lists : List (List (String × String))}
    (written : List.Forall₂ (fun part own => leaves (childKey key part.1) part.2 = .ok own) parts lists)
    (each : ∀ part ∈ parts, ∀ key own, leaves key part.2 = .ok own →
      List.Forall₂ (IsField (some key)) (found part) own) :
    List.Forall₂ (IsField key) (placed found place parts) lists.flatten := by
  induction written generalizing place with
  | nil => exact .nil
  | @cons first own parts lists made later ih =>
      obtain ⟨inFirst, others⟩ := List.forall_mem_cons.mp each
      rw [placed, List.flatten_cons]
      apply List.rel_append
      · rw [List.forall₂_map_left_iff]
        refine (inFirst _ own made).imp ?_
        rintro entry field ⟨named, text⟩
        exact ⟨named.trans (writtenPath_childKey _ _ _), text⟩
      · exact ih (place + 1) others

end Placed

structure Lists (value : Value) (found : List (List Value.Step × Value)) : Prop where
  complete : ∀ path leaf, (path, leaf) ∈ found ↔ value.LeafAt path leaf ∧ leaf ≠ .null ∧ leaf ≠ .string ""
  ordered : found.Pairwise Value.Before
  written : ∀ key fields, deepObject key value = .ok fields → List.Forall₂ (IsField key) found fields

theorem lists_of_scalar (scalar : value.parts? = none) :
    Lists value (if isBlankLeaf value then [] else [([], value)]) where
  complete path leaf := by
    rw [Value.leafAt_of_scalar scalar, ← isBlankLeaf_iff]
    by_cases blank : isBlankLeaf value = true
    · rw [if_pos blank]
      simp only [List.not_mem_nil, false_iff]
      rintro ⟨⟨_, rfl⟩, filled⟩
      exact absurd (blank.symm.trans filled) (by decide)
    · rw [if_neg blank, List.mem_singleton, Prod.mk.injEq]
      constructor
      · rintro ⟨rfl, rfl⟩
        exact ⟨⟨rfl, rfl⟩, by simpa using blank⟩
      · exact And.left
  ordered := by
    split
    · exact .nil
    · exact List.pairwise_singleton _ _
  written key fields made := by
    cases key with
    | some key =>
        have made : leaves key value = .ok fields := except_mapError_ok.mp made
        rw [leaves_of_scalar scalar] at made
        split at made
        · cases made
          rw [if_pos (by assumption)]
          exact .nil
        · obtain ⟨text, written, rfl⟩ := except_map_ok.mp made
          rw [if_neg (by assumption)]
          exact .cons ⟨by simp [writtenPath, bracketed], written⟩ .nil
    | none =>
        rw [deepObject_of_scalar scalar] at made
        by_cases blank : isBlankLeaf value = true
        · rw [if_pos blank] at made
          cases made
          rw [if_pos blank]
          exact .nil
        · rw [if_neg blank] at made
          cases made

theorem lists_of_parts {found : String × Value → List (List Value.Step × Value)}
    (made : value.parts? = some parts) (each : ∀ part ∈ parts, Lists part.2 (found part)) :
    Lists value (placed found 0 parts) where
  complete path leaf := by
    rw [mem_placed, Value.leafAt_of_parts made]
    constructor
    · rintro ⟨place, part, rest, present, rfl, within⟩
      have among := List.mem_of_getElem? present
      have ⟨reached, filled⟩ := ((each part among).complete rest leaf).mp within
      exact ⟨⟨place, part.1, part.2, rest, by rw [Nat.zero_add], present, reached⟩, filled⟩
    · rintro ⟨⟨place, name, part, rest, rfl, present, reached⟩, filled⟩
      have among := List.mem_of_getElem? present
      have within := ((each (name, part) among).complete rest leaf).mpr ⟨reached, filled⟩
      exact ⟨place, (name, part), rest, present, by rw [Nat.zero_add], within⟩
  ordered := placed_ordered fun part among => (each part among).ordered
  written key fields written := by
    obtain ⟨lists, each', rfl⟩ := deepObject_of_parts made written
    apply placed_fields key 0 each'
    intro part among key own made
    exact (each part among).written (some key) own (except_mapError_ok.mpr made)

/-- Every value is listed, by recursion into its parts. -/
theorem exists_lists (value : Value) : ∃ found, Lists value found := by
  cases made : value.parts? with
  | none => exact ⟨_, lists_of_scalar made⟩
  | some parts =>
      have each : ∀ part ∈ parts, ∃ found, Lists part.2 found := by
        intro part among
        have smaller := Value.sizeOf_part made among
        exact exists_lists part.2
      choose! found lists using each
      exact ⟨_, lists_of_parts made lists⟩
termination_by sizeOf value

/-! What is written of a leaf. -/

theorem int_text_ne_empty (number : Int) : toString number ≠ "" := by
  rw [Int.toString_eq_repr, Int.repr_eq_if]
  split
  · exact Naming.toString_ne_empty _
  · simp

theorem decimal_text_ne_nil (decimal : Binary64.Decimal) : decimal.text ≠ [] := by
  unfold Binary64.Decimal.text
  dsimp only
  split
  · split <;> simp
  · simp

theorem binary64_text_ne_empty (number : Binary64) : number.text ≠ "" := by
  intro empty
  have none := congrArg String.toList empty
  cases number with
  | nan => exact absurd empty (by decide)
  | infinite negative => cases negative <;> exact absurd empty (by decide)
  | finite negative significand exponent isDouble =>
      rw [Binary64.text, String.toList_ofList] at none
      cases negative with
      | true => cases none
      | false =>
          by_cases zero : significand = 0
          · simp [zero] at none
          · simp [zero, decimal_text_ne_nil] at none

theorem formatValue_ne_empty {leaf : Value} {text : String} (json : leaf.IsJson) (scalar : leaf.parts? = none)
    (filled : leaf ≠ .null ∧ leaf ≠ .string "") (written : formatValue leaf = .ok text) : text ≠ "" := by
  cases json with
  | null => exact absurd rfl filled.1
  | bool truth =>
      cases written
      cases truth <;> decide
  | int number =>
      obtain rfl := Value.written_ok written
      exact int_text_ne_empty number
  | float number =>
      cases written
      exact binary64_text_ne_empty number
  | string text =>
      cases written
      intro empty
      exact filled.2 (congrArg Value.string empty)
  | array | object => cases scalar

/-- Fields hold one entry for each leaf that is neither null nor empty: its path as the key and its text as the
value, in the order of the document. -/
def WritesLeaves (key : Option String) (value : Value) (fields : List (String × String)) : Prop :=
  ∃ leaves : List (List Value.Step × Value),
    (∀ path leaf, (path, leaf) ∈ leaves ↔ value.LeafAt path leaf ∧ leaf ≠ .null ∧ leaf ≠ .string "") ∧
    leaves.Pairwise Value.Before ∧ List.Forall₂ (IsField key) leaves fields

theorem keys_nodup {key : Option String} {found : List (List Value.Step × Value)} {fields : List (String × String)}
    (json : value.IsJson) (plain : ∀ name, value.HasKey name → '[' ∉ name.toList)
    (reached : ∀ entry ∈ found, value.LeafAt entry.1 entry.2) (ordered : found.Pairwise Value.Before)
    (written : List.Forall₂ (IsField key) found fields) : (fields.map Prod.fst).Nodup := by
  have keys : fields.map Prod.fst = found.map fun entry => writtenPath key (entry.1.map Value.Step.name) :=
    (map_eq_of_forall₂ (written.imp fun _ _ own => own.1.symm)).symm
  rw [keys]
  apply List.Nodup.map_on
  · rintro ⟨path, leaf⟩ within ⟨other, another⟩ withinToo same
    have first := reached _ within
    have second := reached _ withinToo
    have names := writtenPath_inj (first.unbracketed json plain) (second.unbracketed json plain)
      (fun _ => first.rooted_iff second) same
    obtain ⟨rfl, rfl⟩ := first.determined json second names
    rfl
  · apply ordered.imp
    rintro left right before rfl
    exact List.lt_irrefl _ before

/-- No text holds this number, in which there is one digit too many. -/
example : deepObject (some "x") (.ofMembers [("n", .int (Nat.pow 10 integerDigitLimit : Nat))]) =
    .error (.longInteger ⟨⟩) := by
  refine (deepObject_error _ _).mpr (.inl ⟨?_, rfl⟩)
  rw [Value.ofMembers, List.map_singleton, Value.hasLongInteger, Value.membersHaveLongInteger, Value.hasLongInteger,
    isLongInteger_iff.mpr (Nat.le_of_eq (Int.natAbs_natCast _).symm)]
  rfl

/-- An empty key, a key of digits, items and leaves that are left out. -/
def orderFilter : Value :=
  .ofMembers [("", .int (-7)), ("0", .array [.string "new", .null, .ofMembers [("", .bool true)], .string ""])]

def orderText : List Char := "\x7b\"\": -7, \"0\": [\"new\", null, \x7b\"\": true\x7d, \"\"]\x7d".toList

theorem orderFilter_isJson : orderFilter.IsJson := by
  apply Value.IsJson.object
  · decide
  · simp only [List.forall_mem_cons, List.not_mem_nil, false_imp_iff, implies_true, and_true]
    refine ⟨.int _, .array ?_⟩
    simp only [List.forall_mem_cons, List.not_mem_nil, false_imp_iff, implies_true, and_true]
    refine ⟨.string _, .null, .object (by decide) ?_, .string _⟩
    simpa using Value.IsJson.bool true

theorem orderFilter_plain : ∀ name, orderFilter.HasKey name → '[' ∉ name.toList := by
  intro name key
  obtain ⟨member, among, named⟩ := Value.hasKey_ofMembers key
  simp only [List.mem_cons, List.not_mem_nil, or_false] at among
  rcases among with rfl | rfl
  · rcases named with rfl | within
    · decide
    · exact absurd within (Value.not_hasKey_of_scalar rfl)
  · rcases named with rfl | within
    · decide
    · obtain ⟨item, inside, further⟩ := Value.hasKey_array within
      simp only [List.mem_cons, List.not_mem_nil, or_false] at inside
      rcases inside with rfl | rfl | rfl | rfl
      · exact absurd further (Value.not_hasKey_of_scalar rfl)
      · exact absurd further (Value.not_hasKey_of_scalar rfl)
      · obtain ⟨flag, only, last⟩ := Value.hasKey_ofMembers further
        cases List.mem_singleton.mp only
        rcases last with rfl | deeper
        · decide
        · exact absurd deeper (Value.not_hasKey_of_scalar rfl)
      · exact absurd further (Value.not_hasKey_of_scalar rfl)

end Client
end OpenApiClient
