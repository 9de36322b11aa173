/-! Ordered entries: lists of pairs in which every key occurs once. Putting a value under a key that is
present keeps the key and its place; a new key goes to the end. -/

namespace OpenApiClient.Entries

variable {κ α : Type}

def get? (same : κ → κ → Bool) (key : κ) : List (κ × α) → Option α
  | [] => none
  | (present, value) :: rest => if same present key then some value else get? same key rest

def put (same : κ → κ → Bool) (key : κ) (value : α) : List (κ × α) → List (κ × α)
  | [] => [(key, value)]
  | (present, old) :: rest =>
      if same present key then (present, value) :: rest else (present, old) :: put same key value rest

def ofPairs (same : κ → κ → Bool) (pairs : List (κ × α)) : List (κ × α) :=
  pairs.foldl (fun entries pair => put same pair.1 pair.2 entries) []

def Distinct (same : κ → κ → Bool) (entries : List (κ × α)) : Prop :=
  entries.Pairwise fun earlier later => same earlier.1 later.1 = false

instance (same : κ → κ → Bool) (entries : List (κ × α)) : Decidable (Distinct same entries) :=
  inferInstanceAs (Decidable (entries.Pairwise _))

def find? (key : String) (entries : List (String × α)) : Option α := get? (· == ·) key entries

def set (key : String) (value : α) (entries : List (String × α)) : List (String × α) :=
  put (· == ·) key value entries

theorem keys_put (same : κ → κ → Bool) (key : κ) (value : α) (entries : List (κ × α)) :
    (put same key value entries).map Prod.fst =
      if entries.any fun entry => same entry.1 key then entries.map Prod.fst
      else entries.map Prod.fst ++ [key] := by
  induction entries with
  | nil => rfl
  | cons entry rest step =>
      by_cases found : same entry.1 key
      · simp [put, found]
      · simp only [put, found, Bool.false_eq_true, ↓reduceIte, List.map_cons, step, List.any_cons,
          Bool.false_or]
        split <;> simp

theorem distinct_nil (same : κ → κ → Bool) : Distinct same ([] : List (κ × α)) := List.Pairwise.nil

theorem distinct_put {same : κ → κ → Bool} {entries : List (κ × α)} (distinct : Distinct same entries)
    (key : κ) (value : α) : Distinct same (put same key value entries) := by
  induction entries with
  | nil => simp [put, Distinct]
  | cons entry rest step =>
      obtain ⟨apart, later⟩ := List.pairwise_cons.mp distinct
      by_cases found : same entry.1 key
      · simpa [put, found, Distinct] using And.intro apart later
      · simp only [put, found, Bool.false_eq_true, ↓reduceIte]
        refine List.pairwise_cons.mpr ⟨?_, step later⟩
        intro other member
        have key_member := List.mem_map_of_mem (f := Prod.fst) member
        rw [keys_put] at key_member
        split at key_member
        · obtain ⟨old, old_member, old_key⟩ := List.mem_map.mp key_member
          rw [← old_key]
          exact apart old old_member
        · rcases List.mem_append.mp key_member with old | new
          · obtain ⟨old, old_member, old_key⟩ := List.mem_map.mp old
            rw [← old_key]
            exact apart old old_member
          · rw [List.mem_singleton.mp new]
            simpa using found

theorem distinct_ofPairs (same : κ → κ → Bool) (pairs : List (κ × α)) :
    Distinct same (ofPairs same pairs) := by
  have folded : ∀ entries : List (κ × α), Distinct same entries →
      Distinct same (pairs.foldl (fun entries pair => put same pair.1 pair.2 entries) entries) := by
    induction pairs with
    | nil => exact fun _ distinct => distinct
    | cons pair rest step => exact fun entries distinct => step _ (distinct_put distinct _ _)
  exact folded [] (distinct_nil same)

theorem put_of_new {same : κ → κ → Bool} {key : κ} {entries : List (κ × α)}
    (new : ∀ entry ∈ entries, same entry.1 key = false) (value : α) :
    put same key value entries = entries ++ [(key, value)] := by
  induction entries with
  | nil => rfl
  | cons entry rest step =>
      obtain ⟨apart, later⟩ := List.forall_mem_cons.mp new
      simp [put, apart, step later]

/-- Putting a value under a key replaces the value of an entry with the same key, or adds an entry. -/
theorem put_cases (same : κ → κ → Bool) (key : κ) (value : α) (entries : List (κ × α)) :
    (∀ entry ∈ entries, same entry.1 key = false) ∧ put same key value entries = entries ++ [(key, value)] ∨
      ∃ before present old after, entries = before ++ (present, old) :: after ∧ same present key = true ∧
        put same key value entries = before ++ (present, value) :: after := by
  induction entries with
  | nil => exact .inl ⟨by simp, rfl⟩
  | cons entry rest ih =>
      by_cases found : same entry.1 key = true
      · exact .inr ⟨[], entry.1, entry.2, rest, rfl, found, by simp [put, found]⟩
      · rcases ih with ⟨new, added⟩ | ⟨before, present, old, after, rfl, known, replaced⟩
        · exact .inl ⟨List.forall_mem_cons.mpr ⟨by simpa using found, new⟩, by simp [put, found, added]⟩
        · exact .inr ⟨entry :: before, present, old, after, rfl, known, by simp [put, found, replaced]⟩

section Every

variable {same : κ → κ → Bool} {isKey : κ → Prop} {isValue : α → Prop}

theorem forall_mem_put {key : κ} {value : α} {entries : List (κ × α)}
    (all : ∀ entry ∈ entries, isKey entry.1 ∧ isValue entry.2) (ownKey : isKey key) (ownValue : isValue value) :
    ∀ entry ∈ put same key value entries, isKey entry.1 ∧ isValue entry.2 := by
  rcases put_cases same key value entries with ⟨-, added⟩ | ⟨before, present, old, after, rfl, -, replaced⟩
  · rw [added, List.forall_mem_append, List.forall_mem_singleton]
    exact ⟨all, ownKey, ownValue⟩
  · obtain ⟨earlier, later⟩ := List.forall_mem_append.mp all
    obtain ⟨known, later⟩ := List.forall_mem_cons.mp later
    rw [replaced, List.forall_mem_append, List.forall_mem_cons]
    exact ⟨earlier, ⟨known.1, ownValue⟩, later⟩

/-- What holds of all keys and of all values of some pairs holds of their entries. -/
theorem forall_mem_ofPairs (same : κ → κ → Bool) (isKey : κ → Prop) (isValue : α → Prop) {pairs : List (κ × α)}
    (all : ∀ pair ∈ pairs, isKey pair.1 ∧ isValue pair.2) :
    ∀ entry ∈ ofPairs same pairs, isKey entry.1 ∧ isValue entry.2 := by
  have folded : ∀ entries : List (κ × α), (∀ entry ∈ entries, isKey entry.1 ∧ isValue entry.2) →
      ∀ entry ∈ pairs.foldl (fun entries pair => put same pair.1 pair.2 entries) entries,
        isKey entry.1 ∧ isValue entry.2 := by
    induction pairs with
    | nil => exact fun _ known => known
    | cons pair rest step =>
        obtain ⟨own, others⟩ := List.forall_mem_cons.mp all
        exact fun entries known => step others _ (forall_mem_put known own.1 own.2)
  exact folded [] (by simp)

end Every

theorem ofPairs_of_distinct {same : κ → κ → Bool} {pairs : List (κ × α)} (distinct : Distinct same pairs) :
    ofPairs same pairs = pairs := by
  have folded : ∀ entries : List (κ × α), Distinct same (entries ++ pairs) →
      pairs.foldl (fun entries pair => put same pair.1 pair.2 entries) entries = entries ++ pairs := by
    clear distinct
    induction pairs with
    | nil => exact fun entries _ => (List.append_nil entries).symm
    | cons pair rest step =>
        intro entries distinct
        have new : ∀ entry ∈ entries, same entry.1 pair.1 = false := fun entry member =>
          (List.pairwise_append.mp distinct).2.2 entry member pair List.mem_cons_self
        rw [List.foldl_cons, put_of_new new, step _ (by simpa using distinct)]
        simp
  exact folded [] distinct

section

variable [BEq κ] [LawfulBEq κ]

theorem get?_put_self (key : κ) (value : α) (entries : List (κ × α)) :
    get? (· == ·) key (put (· == ·) key value entries) = some value := by
  induction entries with
  | nil => simp [get?, put]
  | cons entry rest step =>
      by_cases found : entry.1 = key
      · simp [get?, put, found]
      · simpa [get?, put, found] using step

theorem get?_put_other {key other : κ} (different : other ≠ key) (value : α) (entries : List (κ × α)) :
    get? (· == ·) other (put (· == ·) key value entries) = get? (· == ·) other entries := by
  induction entries with
  | nil => simp [get?, put, Ne.symm different]
  | cons entry rest step =>
      by_cases found : entry.1 = key
      · subst found
        simp [get?, put, Ne.symm different]
      · simp [get?, put, found, step]

/-- Putting what is there changes nothing. -/
theorem put_of_get? {key : κ} {value : α} {entries : List (κ × α)}
    (present : get? (· == ·) key entries = some value) : put (· == ·) key value entries = entries := by
  induction entries with
  | nil => cases present
  | cons entry rest step =>
      by_cases found : entry.1 = key
      · obtain rfl : entry.2 = value := by simpa [get?, found] using present
        subst found
        simp [put]
      · have later : get? (· == ·) key rest = some value := by simpa [get?, found] using present
        simp [put, found, step later]

end

theorem distinct_of_nodup {pairs : List (String × α)} (nodup : (pairs.map Prod.fst).Nodup) :
    Distinct (· == ·) pairs := by
  simpa [Distinct, List.Nodup, List.pairwise_map] using nodup

theorem find?_append (key : String) (entries others : List (String × α)) :
    find? key (entries ++ others) = (find? key entries).or (find? key others) := by
  induction entries with
  | nil => rfl
  | cons entry rest ih =>
      by_cases found : entry.1 = key
      · simp [find?, get?, found]
      · simpa [find?, get?, found] using ih

theorem find?_of_mem {pairs : List (String × α)} (nodup : (pairs.map Prod.fst).Nodup) {key : String}
    {value : α} (member : (key, value) ∈ pairs) : find? key pairs = some value := by
  induction pairs with
  | nil => contradiction
  | cons pair rest step =>
      obtain ⟨apart, later⟩ := List.nodup_cons.mp nodup
      rcases List.mem_cons.mp member with rfl | member
      · simp [find?, get?]
      · have different : pair.1 ≠ key := fun found =>
          apart (found ▸ List.mem_map_of_mem (f := Prod.fst) member)
        simpa [find?, get?, different] using step later member

theorem mem_of_find? {key : String} {value : α} {entries : List (String × α)}
    (found : find? key entries = some value) : (key, value) ∈ entries := by
  induction entries with
  | nil => cases found
  | cons entry rest ih =>
      by_cases same : entry.1 = key
      · obtain rfl : entry.2 = value := by simpa [find?, get?, same] using found
        rw [← same]
        exact List.mem_cons_self
      · refine List.mem_cons_of_mem entry (ih ?_)
        simpa [find?, get?, same] using found

theorem find?_eq_none {key : String} {entries : List (String × α)} :
    find? key entries = none ↔ ∀ entry ∈ entries, entry.1 ≠ key := by
  induction entries with
  | nil => simp [find?, get?]
  | cons entry rest ih =>
      by_cases same : entry.1 = key
      · simp [find?, get?, same]
      · simpa [find?, get?, same] using ih

theorem find?_isSome {key : String} {entries : List (String × α)} :
    (find? key entries).isSome = true ↔ key ∈ entries.map Prod.fst := by
  rw [Option.isSome_iff_ne_none, ne_eq, find?_eq_none]
  simp

theorem keys_set_known {key : String} {entries : List (String × α)} (known : key ∈ entries.map Prod.fst)
    (value : α) : (set key value entries).map Prod.fst = entries.map Prod.fst := by
  obtain ⟨entry, member, rfl⟩ := List.mem_map.mp known
  have present : (entries.any fun other => other.1 == entry.1) = true :=
    List.any_eq_true.mpr ⟨entry, member, beq_self_eq_true _⟩
  rw [set, keys_put, if_pos present]

theorem keys_set_new {key : String} {entries : List (String × α)} (new : key ∉ entries.map Prod.fst)
    (value : α) : (set key value entries).map Prod.fst = entries.map Prod.fst ++ [key] := by
  have absent : ∀ entry ∈ entries, (entry.1 == key) = false := by
    rintro entry member
    exact beq_eq_false_iff_ne.mpr fun same => new (List.mem_map.mpr ⟨entry, member, same⟩)
  rw [set, put_of_new absent, List.map_append, List.map_singleton]

theorem mem_set {key : String} {value : α} {entries : List (String × α)} {entry : String × α}
    (member : entry ∈ set key value entries) : entry.2 = value ∨ entry ∈ entries := by
  induction entries with
  | nil =>
      obtain rfl := List.mem_singleton.mp member
      exact .inl rfl
  | cons first rest ih =>
      rw [set, put] at member
      split at member
      · rcases List.mem_cons.mp member with rfl | later
        · exact .inl rfl
        · exact .inr (List.mem_cons_of_mem _ later)
      · rcases List.mem_cons.mp member with rfl | later
        · exact .inr List.mem_cons_self
        · exact (ih later).imp_right (List.mem_cons_of_mem _)

theorem key_of_mem_set {key : String} {value : α} {entries : List (String × α)} {entry : String × α}
    (member : entry ∈ set key value entries) : entry.1 = key ∨ entry.1 ∈ entries.map Prod.fst := by
  have among := List.mem_map_of_mem (f := Prod.fst) member
  rw [set, keys_put] at among
  split at among
  · exact .inr among
  · rcases List.mem_append.mp among with old | new
    · exact .inr old
    · exact .inl (List.mem_singleton.mp new)

theorem find?_set_self (key : String) (value : α) (entries : List (String × α)) :
    find? key (set key value entries) = some value :=
  get?_put_self key value entries

theorem find?_set_other {key other : String} (different : other ≠ key) (value : α)
    (entries : List (String × α)) : find? other (set key value entries) = find? other entries :=
  get?_put_other different value entries

/-- Of several pairs with one key the last counts. -/
theorem find?_ofPairs (key : String) (pairs : List (String × α)) :
    find? key (ofPairs (· == ·) pairs) = find? key pairs.reverse := by
  have folded : ∀ entries : List (String × α),
      find? key (pairs.foldl (fun entries pair => put (· == ·) pair.1 pair.2 entries) entries) =
        (find? key pairs.reverse).or (find? key entries) := by
    induction pairs with
    | nil => exact fun entries => rfl
    | cons pair rest step =>
        intro entries
        rw [List.foldl_cons, step, List.reverse_cons, find?_append, Option.or_assoc]
        congr 1
        by_cases same : key = pair.1
        · subst same
          simp [find?, get?, get?_put_self]
        · simp [find?, get?, get?_put_other same, Ne.symm same]
  simpa [ofPairs, find?, get?] using folded []

theorem mem_keys_ofPairs {key : String} {pairs : List (String × α)} :
    key ∈ (ofPairs (· == ·) pairs).map Prod.fst ↔ key ∈ pairs.map Prod.fst := by
  have absent : ∀ entries : List (String × α), key ∉ entries.map Prod.fst ↔ find? key entries = none := by
    intro entries
    rw [find?_eq_none, List.mem_map]
    exact ⟨fun none entry member same => none ⟨entry, member, same⟩,
      fun apart ⟨entry, member, same⟩ => apart entry member same⟩
  rw [← Decidable.not_iff_not, absent, find?_ofPairs, ← absent, List.map_reverse, List.mem_reverse]

theorem keys_ofPairs_nodup (pairs : List (String × α)) : ((ofPairs (· == ·) pairs).map Prod.fst).Nodup := by
  simpa [Distinct, List.Nodup, List.pairwise_map] using distinct_ofPairs (· == ·) pairs

end OpenApiClient.Entries
