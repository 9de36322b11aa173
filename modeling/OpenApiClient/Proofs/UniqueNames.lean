import OpenApiClient.Naming.Unique
import Mathlib.Data.List.Nodup
import Mathlib.Data.List.Perm.Subperm

/-! Names that are made unique. The numbers kept beside the names that were given out never pass over a free one, so
that every name gets the least number that makes it new. -/

namespace OpenApiClient

/-- Of one more different names than are taken, one is free. -/
theorem exists_free {candidate : Nat → String} (different : Function.Injective candidate)
    (taken : List String) : ∃ number ≤ taken.length, candidate number ∉ taken := by
  -- Otherwise that many different names would all be among those taken.
  by_contra none
  have within : (List.range (taken.length + 1)).map candidate ⊆ taken := by
    intro name member
    obtain ⟨number, bound, rfl⟩ := List.mem_map.mp member
    by_contra free
    exact none ⟨number, by simpa [Nat.lt_succ_iff] using bound, free⟩
  have distinct : ((List.range (taken.length + 1)).map candidate).Nodup := List.nodup_range.map different
  have bound := (List.subperm_of_subset distinct within).length_le
  rw [List.length_map, List.length_range] at bound
  exact Nat.not_succ_le_self _ bound

namespace Naming

theorem toString_injective : Function.Injective (toString : Nat → String) := by
  intro first second same
  have digits : first.repr.toList = second.repr.toList := congrArg String.toList same
  rw [Nat.toList_repr, Nat.toList_repr] at digits
  have numbers := congrArg (Nat.ofDigitChars 10 · 0) digits
  simpa only [Nat.ofDigitChars_ten_toDigits] using numbers

theorem numbered_injective (name : String) : Function.Injective (numbered name) := by
  intro first second same
  exact toString_injective (String.append_right_inj _ |>.mp same)

/-- What a name becomes after the names that are taken: itself when it is new, and else the first of its numbered
forms that is. -/
inductive IsNext (taken : List String) (name : String) : String → Prop
  | first : name ∉ taken → IsNext taken name name
  | repeated {number : Nat} : name ∈ taken → 2 ≤ number → numbered name number ∉ taken →
      (∀ smaller, 2 ≤ smaller → smaller < number → numbered name smaller ∈ taken) →
      IsNext taken name (numbered name number)

section Next

variable {taken : List String} {name entry other : String}

theorem IsNext.new (next : IsNext taken name entry) : entry ∉ taken := by
  cases next with
  | first new => exact new
  | repeated _ _ new _ => exact new

theorem IsNext.only (next : IsNext taken name entry) (also : IsNext taken name other) : entry = other := by
  cases next with
  | first new =>
      cases also with
      | first => rfl
      | repeated known => exact absurd known new
  | @repeated number known least new below =>
      cases also with
      | first new => exact absurd known new
      | @repeated otherNumber _ otherLeast otherNew otherBelow =>
          rcases Nat.lt_trichotomy number otherNumber with less | rfl | greater
          · exact absurd (otherBelow number least less) new
          · rfl
          · exact absurd (below otherNumber otherLeast greater) otherNew

end Next

/-! The greedy rule. -/

def GreedyAfter (taken names entries : List String) : Prop :=
  entries.length = names.length ∧ ∀ (index : Nat) (name entry : String), names[index]? = some name →
    entries[index]? = some entry → IsNext (taken ++ entries.take index) name entry

def Greedy (names entries : List String) : Prop := GreedyAfter [] names entries

section Greedy

variable {taken names entries others : List String} {name entry : String}

theorem greedyAfter_nil : GreedyAfter taken [] entries ↔ entries = [] := by
  constructor
  · intro greedy
    exact List.eq_nil_of_length_eq_zero greedy.1
  · rintro rfl
    exact ⟨rfl, by simp⟩

theorem greedyAfter_cons : GreedyAfter taken (name :: names) (entry :: entries) ↔
    IsNext taken name entry ∧ GreedyAfter (taken ++ [entry]) names entries := by
  constructor
  · rintro ⟨length, next⟩
    refine ⟨by simpa using next 0 name entry rfl rfl, Nat.succ.inj length, ?_⟩
    intro index later laterEntry found foundEntry
    simpa using next (index + 1) later laterEntry found foundEntry
  · rintro ⟨first, length, next⟩
    refine ⟨congrArg Nat.succ length, ?_⟩
    rintro (_ | index) later laterEntry found foundEntry
    · cases found
      cases foundEntry
      simpa using first
    · simpa using next index later laterEntry found foundEntry

/-- The rule leaves no choice. -/
theorem GreedyAfter.only (greedy : GreedyAfter taken names entries) (also : GreedyAfter taken names others) :
    entries = others := by
  induction names generalizing taken entries others with
  | nil => rw [greedyAfter_nil.mp greedy, greedyAfter_nil.mp also]
  | cons name names ih =>
      obtain ⟨entry, entries, rfl⟩ := List.exists_cons_of_length_eq_add_one greedy.1
      obtain ⟨other, others, rfl⟩ := List.exists_cons_of_length_eq_add_one also.1
      obtain ⟨next, later⟩ := greedyAfter_cons.mp greedy
      obtain ⟨otherNext, otherLater⟩ := greedyAfter_cons.mp also
      obtain rfl := next.only otherNext
      rw [ih later otherLater]

theorem GreedyAfter.nodup (greedy : GreedyAfter taken names entries) :
    entries.Nodup ∧ ∀ entry ∈ entries, entry ∉ taken := by
  induction names generalizing taken entries with
  | nil => simp [greedyAfter_nil.mp greedy]
  | cons name names ih =>
      obtain ⟨entry, entries, rfl⟩ := List.exists_cons_of_length_eq_add_one greedy.1
      obtain ⟨next, later⟩ := greedyAfter_cons.mp greedy
      obtain ⟨distinct, apart⟩ := ih later
      simp only [List.mem_append, List.mem_singleton, not_or] at apart
      rw [List.nodup_cons, List.forall_mem_cons]
      exact ⟨⟨fun again => (apart entry again).2 rfl, distinct⟩, next.new, fun other member => (apart other member).1⟩

theorem greedyAfter_self (distinct : (taken ++ names).Nodup) : GreedyAfter taken names names := by
  induction names generalizing taken with
  | nil => exact greedyAfter_nil.mpr rfl
  | cons name names ih =>
      rw [List.append_cons] at distinct
      have new : name ∉ taken := fun member =>
        List.disjoint_of_nodup_append (List.nodup_append.mp distinct).1 member List.mem_cons_self
      exact greedyAfter_cons.mpr ⟨.first new, ih distinct⟩

end Greedy

/-! The numbers that are kept. -/

structure Counts (given : GivenNames) : Prop where
  positive : ∀ name tried, Entries.find? name given = some tried → 1 ≤ tried
  used : ∀ name tried, Entries.find? name given = some tried → ∀ number, 2 ≤ number → number ≤ tried →
    numbered name number ∈ given.map Prod.fst

theorem Counts.start : Counts [] where
  positive := by simp [Entries.find?, Entries.get?]
  used := by simp [Entries.find?, Entries.get?]

section Given

variable {given : GivenNames} {name : String}

theorem Counts.set (counts : Counts given) {tried : Nat} (positive : 1 ≤ tried)
    (used : ∀ number, 2 ≤ number → number ≤ tried →
      numbered name number ∈ (Entries.set name tried given).map Prod.fst) :
    Counts (Entries.set name tried given) := by
  have kept : ∀ key ∈ given.map Prod.fst, key ∈ (Entries.set name tried given).map Prod.fst := by
    intro key member
    by_cases known : name ∈ given.map Prod.fst
    · rwa [Entries.keys_set_known known]
    · rw [Entries.keys_set_new known]
      exact List.mem_append_left _ member
  constructor
  case positive =>
    intro other found same
    by_cases own : other = name
    · subst own
      rw [Entries.find?_set_self] at same
      rwa [← Option.some.inj same]
    · rw [Entries.find?_set_other own] at same
      exact counts.positive other found same
  case used =>
    intro other found same number least bound
    by_cases own : other = name
    · subst own
      rw [Entries.find?_set_self] at same
      exact used number least (by rwa [Option.some.inj same])
    · rw [Entries.find?_set_other own] at same
      exact kept _ (counts.used other found same number least bound)

theorem le_freeNumber (given : GivenNames) (name : String) (number fuel : Nat) :
    number ≤ freeNumber given name number fuel := by
  induction fuel generalizing number with
  | zero => exact Nat.le_refl number
  | succ fuel ih =>
      unfold freeNumber
      split
      · exact Nat.le_of_succ_le (ih (number + 1))
      · exact Nat.le_refl number

theorem freeNumber_least {number fuel smaller : Nat} (start : number ≤ smaller)
    (bound : smaller < freeNumber given name number fuel) : numbered name smaller ∈ given.map Prod.fst := by
  induction fuel generalizing number with
  | zero => exact absurd bound (Nat.not_lt.mpr start)
  | succ fuel ih =>
      unfold freeNumber at bound
      split at bound
      · rename_i known
        rcases Nat.eq_or_lt_of_le start with rfl | later
        · exact Entries.find?_isSome.mp known
        · exact ih later bound
      · exact absurd bound (Nat.not_lt.mpr start)

theorem freeNumber_not_mem {number fuel : Nat}
    (free : ∃ ahead ≤ fuel, numbered name (number + ahead) ∉ given.map Prod.fst) :
    numbered name (freeNumber given name number fuel) ∉ given.map Prod.fst := by
  induction fuel generalizing number with
  | zero =>
      obtain ⟨ahead, bound, free⟩ := free
      obtain rfl := Nat.le_zero.mp bound
      exact free
  | succ fuel ih =>
      unfold freeNumber
      split
      · rename_i known
        obtain ⟨_ | ahead, bound, free⟩ := free
        · exact absurd (Entries.find?_isSome.mp known) free
        · exact ih ⟨ahead, Nat.le_of_succ_le_succ bound, by rwa [Nat.add_right_comm]⟩
      · rename_i new
        rwa [Entries.find?_isSome] at new

/-- The search for a number ends with a free one: the steps it is given are enough. -/
theorem freeNumber_new (given : GivenNames) (name : String) (number : Nat) :
    numbered name (freeNumber given name number given.length) ∉ given.map Prod.fst := by
  have different : Function.Injective fun ahead => numbered name (number + ahead) :=
    fun first second same => Nat.add_left_cancel (numbered_injective name same)
  have free := exists_free different (given.map Prod.fst)
  rw [List.length_map] at free
  exact freeNumber_not_mem free

/-- A name is given out by the rule, stands last among those given out, and the numbers are right again. -/
theorem giveOut_next (counts : Counts given) (name : String) :
    IsNext (given.map Prod.fst) name (giveOut given name).1 ∧
      (giveOut given name).2.map Prod.fst = given.map Prod.fst ++ [(giveOut given name).1] ∧
      Counts (giveOut given name).2 := by
  unfold giveOut
  split
  case h_1 unknown =>
    have new : name ∉ given.map Prod.fst := by simp [← Entries.find?_isSome, unknown]
    exact ⟨.first new, Entries.keys_set_new new 1, counts.set (Nat.le_refl 1) (by omega)⟩
  case h_2 tried found =>
    have known : name ∈ given.map Prod.fst := by simp [← Entries.find?_isSome, found]
    have positive := counts.positive name tried found
    generalize number_eq : freeNumber given name (tried + 1) given.length = number
    have later : tried + 1 ≤ number := number_eq ▸ le_freeNumber given name (tried + 1) given.length
    have new : numbered name number ∉ given.map Prod.fst := number_eq ▸ freeNumber_new given name (tried + 1)
    have below : ∀ smaller, 2 ≤ smaller → smaller < number → numbered name smaller ∈ given.map Prod.fst := by
      intro smaller least bound
      by_cases early : smaller ≤ tried
      · exact counts.used name tried found smaller least early
      · exact freeNumber_least (Nat.lt_of_not_le early) (number_eq ▸ bound)
    have keys : (Entries.set (numbered name number) 1 given).map Prod.fst =
        given.map Prod.fst ++ [numbered name number] := Entries.keys_set_new new 1
    have still : name ∈ (Entries.set (numbered name number) 1 given).map Prod.fst := by
      rw [keys]
      exact List.mem_append_left _ known
    refine ⟨.repeated known (by omega) new below, (Entries.keys_set_known still number).trans keys, ?_⟩
    refine (counts.set (Nat.le_refl 1) (by omega)).set (by omega) fun used least bound => ?_
    rw [Entries.keys_set_known still, keys, List.mem_append, List.mem_singleton]
    rcases Nat.eq_or_lt_of_le bound with rfl | smaller
    · exact .inr rfl
    · exact .inl (below used least smaller)

theorem uniqueFrom_greedy (counts : Counts given) (names : List String) :
    GreedyAfter (given.map Prod.fst) names (uniqueFrom given names) := by
  induction names generalizing given with
  | nil => exact greedyAfter_nil.mpr rfl
  | cons name names ih =>
      obtain ⟨next, keys, counted⟩ := giveOut_next counts name
      refine greedyAfter_cons.mpr ⟨next, ?_⟩
      rw [← keys]
      exact ih counted

end Given

theorem greedy_unique (names : List String) : Greedy names (unique names) := uniqueFrom_greedy .start names

theorem unique_length (names : List String) : (unique names).length = names.length := (greedy_unique names).1

theorem unique_nodup (names : List String) : (unique names).Nodup := (greedy_unique names).nodup.1

theorem unique_of_nodup {names : List String} (distinct : names.Nodup) : unique names = names :=
  (greedy_unique names).only (greedyAfter_self distinct)

theorem unique_forall {property : String → Prop}
    (numbers : ∀ name number, property name → property (numbered name number)) {names : List String}
    (holds : ∀ name ∈ names, property name) : ∀ name ∈ unique names, property name := by
  intro entry member
  obtain ⟨index, found⟩ := List.mem_iff_getElem?.mp member
  have bound : index < names.length := by
    rw [← unique_length]
    exact (List.getElem?_eq_some_iff.mp found).1
  have named : names[index] ∈ names := List.getElem_mem bound
  cases (greedy_unique names).2 index names[index] entry (List.getElem?_eq_getElem bound) found with
  | first => exact holds _ named
  | repeated => exact numbers _ _ (holds _ named)

/-- The unique names are the one list that follows the greedy rule. They are as many as the names and all different,
and names without repeats stay what they are. -/
theorem unique_greedy (names : List String) :
    (∀ entries, Greedy names entries ↔ entries = unique names) ∧
      (unique names).length = names.length ∧ (unique names).Nodup ∧
      (names.Nodup → unique names = names) ∧ unique (unique names) = unique names := by
  refine ⟨fun entries => ⟨fun greedy => greedy.only (greedy_unique names), ?_⟩, unique_length names,
    unique_nodup names, unique_of_nodup, unique_of_nodup (unique_nodup names)⟩
  rintro rfl
  exact greedy_unique names

/-- A name may be the numbered form of another. -/
theorem trips_unique :
    unique ["trip", "trip", "trip_2", "trip"] = ["trip", "trip_2", "trip_2_2", "trip_3"] ∧
      Greedy ["trip", "trip", "trip_2", "trip"] ["trip", "trip_2", "trip_2_2", "trip_3"] ∧
      ["trip", "trip_2", "trip_2_2", "trip_3"].Nodup ∧
      unique ["trip", "trip_2", "trip_2_2", "trip_3"] = ["trip", "trip_2", "trip_2_2", "trip_3"] := by
  have numbers : unique ["trip", "trip", "trip_2", "trip"] = ["trip", "trip_2", "trip_2_2", "trip_3"] := by
    decide +kernel
  have distinct : ["trip", "trip_2", "trip_2_2", "trip_3"].Nodup := by decide
  exact ⟨numbers, ((unique_greedy _).1 _).mpr numbers.symm, distinct, (unique_greedy _).2.2.2.1 distinct⟩

end Naming
end OpenApiClient
