import OpenApiClient.Document.Reader
import OpenApiClient.Proofs.KeySameness
import OpenApiClient.Proofs.ReferenceChains

/-! The parameters of an operation, which are those of its path and its own. Of the parameters of one name and location
the last is kept, in the place of the first; so an operation overrides its path. -/

namespace OpenApiClient

def Parameter.slot (parameter : Parameter) : Value × Value := (parameter.name.keyForm, parameter.location.keyForm)

def Parameter.IsLast (parameter : Parameter) (parameters : List Parameter) : Prop :=
  ∃ before after, parameters = before ++ parameter :: after ∧ ∀ later ∈ after, later.slot ≠ parameter.slot

open scoped Classical in
/-- The parameters are merged to one for each slot, which stands where the slot occurs first and is the last that has
it. -/
structure MergedTo (parameters merged : List Parameter) : Prop where
  slots : merged.map Parameter.slot = (parameters.map Parameter.slot).eraseDups
  last : ∀ parameter ∈ merged, parameter.IsLast parameters

namespace Parameter

variable {parameter : Parameter} {parameters others : List Parameter}

theorem IsLast.mem (last : parameter.IsLast parameters) : parameter ∈ parameters := by
  obtain ⟨before, after, rfl, -⟩ := last
  simp

theorem IsLast.snoc (last : parameter.IsLast parameters) {added : Parameter} (apart : added.slot ≠ parameter.slot) :
    parameter.IsLast (parameters ++ [added]) := by
  obtain ⟨before, after, rfl, none⟩ := last
  refine ⟨before, after ++ [added], by simp, List.forall_mem_append.mpr ⟨none, ?_⟩⟩
  exact List.forall_mem_singleton.mpr apart

theorem isLast_snoc (parameters : List Parameter) (added : Parameter) : added.IsLast (parameters ++ [added]) :=
  ⟨parameters, [], rfl, by simp⟩

/-- The last of its slot in two lists is the last of the second if that has the slot, and else of the first. -/
theorem IsLast.of_append (last : parameter.IsLast (parameters ++ others)) :
    (parameter.slot ∈ others.map slot → parameter.IsLast others) ∧
      (parameter.slot ∉ others.map slot → parameter.IsLast parameters) := by
  obtain ⟨before, after, split, none⟩ := last
  rcases List.append_eq_append_iff.mp split with ⟨between, rfl, rfl⟩ | ⟨between, rfl, same⟩
  · constructor
    · exact fun _ => ⟨between, after, rfl, none⟩
    · intro absent
      simp at absent
  · cases between with
    | nil =>
        rw [List.nil_append] at same
        subst same
        exact ⟨fun _ => ⟨[], after, rfl, none⟩, fun absent => by simp at absent⟩
    | cons first between =>
        obtain ⟨rfl, rfl⟩ := List.cons.inj same
        obtain ⟨noneBetween, noneAfter⟩ := List.forall_mem_append.mp none
        constructor
        · intro present
          obtain ⟨later, member, slot⟩ := List.mem_map.mp present
          exact absurd slot (noneAfter later member)
        · exact fun _ => ⟨before, between, rfl, noneBetween⟩

end Parameter

namespace Parameter

def HasKeys (parameter : Parameter) : Prop := parameter.name.isKey = true ∧ parameter.location.isKey = true

def IsUnder (parameter : Parameter) (key : Value × Value) : Prop :=
  (key.1.isKey = true ∧ key.2.isKey = true) ∧ (key.1.keyForm, key.2.keyForm) = parameter.slot

theorem sameSlot_iff {holder parameter : Parameter} {key : Value × Value} (under : holder.IsUnder key)
    (keys : parameter.HasKeys) :
    sameSlot key (parameter.name, parameter.location) = true ↔ holder.slot = parameter.slot := by
  rw [sameSlot, Bool.and_eq_true, Value.same_iff_keyForm _ _ under.1.1 keys.1,
    Value.same_iff_keyForm _ _ under.1.2 keys.2, ← under.2, slot, Prod.mk.injEq]

end Parameter

structure Entered (parameters : List Parameter) (entries : List ((Value × Value) × Parameter)) : Prop where
  under : ∀ entry ∈ entries, entry.2.IsUnder entry.1
  merged : MergedTo parameters (entries.map Prod.snd)

section

variable {parameters before after : List Parameter} {parameter old : Parameter}

/-- A parameter with a new slot comes last. -/
theorem MergedTo.add {merged : List Parameter} (done : MergedTo parameters merged)
    (new : ∀ other ∈ merged, other.slot ≠ parameter.slot) :
    MergedTo (parameters ++ [parameter]) (merged ++ [parameter]) := by
  classical
  have absent : parameter.slot ∉ parameters.map Parameter.slot := by
    rw [← List.mem_eraseDups, ← done.slots]
    intro present
    obtain ⟨other, member, same⟩ := List.mem_map.mp present
    exact new other member same
  constructor
  · rw [List.map_append, List.map_append, List.map_singleton, eraseDups_new absent, ← done.slots]
  · refine List.forall_mem_append.mpr ⟨?_, List.forall_mem_singleton.mpr (Parameter.isLast_snoc _ _)⟩
    exact fun other member => (done.last other member).snoc (new other member).symm

/-- A parameter whose slot is known takes the place of the one that had it. -/
theorem MergedTo.replace (done : MergedTo parameters (before ++ old :: after)) (same : old.slot = parameter.slot) :
    MergedTo (parameters ++ [parameter]) (before ++ parameter :: after) := by
  classical
  have known : parameter.slot ∈ parameters.map Parameter.slot := by
    rw [← same]
    exact List.mem_map_of_mem (done.last old (by simp)).mem
  have apart : ∀ other ∈ before ++ after, parameter.slot ≠ other.slot := by
    have nodup : ((before ++ old :: after).map Parameter.slot).Nodup := done.slots ▸ eraseDups_nodup _
    rw [List.map_append, List.map_cons, List.nodup_middle, List.nodup_cons, ← List.map_append, same] at nodup
    exact fun other member equal => nodup.1 (equal ▸ List.mem_map_of_mem member)
  have kept : (before ++ parameter :: after).map Parameter.slot = (before ++ old :: after).map Parameter.slot := by
    simp [same]
  constructor
  · rw [kept, done.slots, List.map_append, List.map_singleton, eraseDups_known known]
  · intro other member
    rcases List.mem_append.mp member with earlier | later
    · exact (done.last other (by simp [earlier])).snoc (apart other (by simp [earlier]))
    · rcases List.mem_cons.mp later with rfl | later
      · exact Parameter.isLast_snoc _ _
      · exact (done.last other (by simp [later])).snoc (apart other (by simp [later]))

end

namespace Entered

variable {parameters : List Parameter} {entries : List ((Value × Value) × Parameter)} {parameter : Parameter}

theorem nil : Entered [] [] where
  under := by simp
  merged := ⟨rfl, by simp⟩

theorem put (entered : Entered parameters entries) (keys : parameter.HasKeys) :
    Entered (parameters ++ [parameter])
      (Entries.put Parameter.sameSlot (parameter.name, parameter.location) parameter entries) := by
  obtain ⟨under, merged⟩ := entered
  rcases Entries.put_cases Parameter.sameSlot (parameter.name, parameter.location) parameter entries with
    ⟨new, added⟩ | ⟨before, present, old, after, rfl, known, replaced⟩
  · have self : parameter.IsUnder (parameter.name, parameter.location) := ⟨keys, rfl⟩
    rw [added]
    refine ⟨List.forall_mem_append.mpr ⟨under, List.forall_mem_singleton.mpr self⟩, ?_⟩
    rw [List.map_append]
    refine merged.add (List.forall_mem_map.mpr fun entry member same => ?_)
    cases (new entry member).symm.trans ((Parameter.sameSlot_iff (under entry member) keys).mpr same)
  · obtain ⟨earlier, later⟩ := List.forall_mem_append.mp under
    obtain ⟨own, later⟩ := List.forall_mem_cons.mp later
    have same : old.slot = parameter.slot := (Parameter.sameSlot_iff own keys).mp known
    rw [replaced]
    refine ⟨List.forall_mem_append.mpr ⟨earlier, List.forall_mem_cons.mpr ⟨⟨own.1, own.2.trans same⟩, later⟩⟩, ?_⟩
    rw [List.map_append, List.map_cons] at merged ⊢
    exact merged.replace same

theorem foldlM {document : Value} {step : List ((Value × Value) × Parameter) → Value →
      Except Failure (List ((Value × Value) × Parameter))} {raws : List Value}
    {final : List ((Value × Value) × Parameter)} (entered : Entered parameters entries)
    (steps : ∀ entries raw next, step entries raw = .ok next → ∃ parameter,
      readParameter document raw = .ok parameter ∧ parameter.HasKeys ∧
        next = Entries.put Parameter.sameSlot (parameter.name, parameter.location) parameter entries)
    (found : raws.foldlM step entries = .ok final) :
    ∃ read, List.Forall₂ (fun raw parameter => readParameter document raw = .ok parameter) raws read ∧
      Entered (parameters ++ read) final := by
  induction raws generalizing parameters entries with
  | nil =>
      obtain rfl := except_pure_ok.mp found
      exact ⟨[], .nil, by rwa [List.append_nil]⟩
  | cons raw rest ih =>
      rw [List.foldlM_cons] at found
      obtain ⟨next, first, found⟩ := except_bind_ok.mp found
      obtain ⟨parameter, own, keys, rfl⟩ := steps entries raw next first
      obtain ⟨read, later, done⟩ := ih (entered.put keys) found
      exact ⟨parameter :: read, .cons own later, by rwa [List.append_assoc] at done⟩

end Entered

/-- The parameter is read from the object that the references lead to. Without a location it is in the query. -/
structure Parameter.IsReadFrom (parameter : Parameter) (document raw : Value) : Prop where
  read : readParameter document raw = .ok parameter
  slot : ∃ object location, document.dereference raw = .ok object ∧
    object.member? "name" = .ok (some parameter.name) ∧ object.member? "in" = .ok location ∧
    parameter.location = location.getD (.string "query")

theorem readParameter_ok {document raw : Value} {parameter : Parameter}
    (read : readParameter document raw = .ok parameter) : parameter.IsReadFrom document raw := by
  refine ⟨read, ?_⟩
  simp only [readParameter, except_bind_ok, except_lift_ok] at read
  obtain ⟨object, dereferenced, _, -, location, located, name?, named, read⟩ := read
  cases name? with
  | none => cases read
  | some name =>
      -- The schema is read in one of two ways; the name and the location do not depend on it.
      dsimp only at read
      split at read
      all_goals
        simp only [except_bind_ok, except_lift_ok, except_pure_ok] at read
        obtain ⟨_, -, _, -, _, -, _, -, _, -, rfl⟩ := read
        exact ⟨object, location, dereferenced, named, located, rfl⟩

def ReadsParameters (document raws : Value) (parameters : List Parameter) : Prop :=
  ∃ items, raws.items = .ok items ∧
    List.Forall₂ (fun raw parameter => parameter.IsReadFrom document raw) items parameters

theorem mergeStep_ok (document : Value) (entries : List ((Value × Value) × Parameter)) (raw : Value)
    (next : List ((Value × Value) × Parameter))
    (taken : (do
      let parameter ← readParameter document raw
      let name ← parameter.name.asKey
      let location ← parameter.location.asKey
      pure (Entries.put Parameter.sameSlot (name, location) parameter entries)) = Except.ok (ε := Failure) next) :
    ∃ parameter, readParameter document raw = .ok parameter ∧ parameter.HasKeys ∧
      next = Entries.put Parameter.sameSlot (parameter.name, parameter.location) parameter entries := by
  simp only [except_bind_ok, except_lift_ok, except_pure_ok, Value.asKey_ok] at taken
  obtain ⟨parameter, read, _, ⟨nameKey, rfl⟩, _, ⟨locationKey, rfl⟩, rfl⟩ := taken
  exact ⟨parameter, read, ⟨nameKey, locationKey⟩, rfl⟩

theorem mergeParameters_ok {document pathLevel operationLevel : Value} {merged : List Parameter}
    (found : mergeParameters document pathLevel operationLevel = .ok merged) :
    ∃ pathRead operationRead, ReadsParameters document pathLevel pathRead ∧
      ReadsParameters document operationLevel operationRead ∧ MergedTo (pathRead ++ operationRead) merged := by
  simp only [mergeParameters, except_bind_ok, except_lift_ok, except_pure_ok] at found
  obtain ⟨pathItems, onPath, operationItems, onOperation, entries, entered, rfl⟩ := found
  obtain ⟨read, each, done⟩ := Entered.nil.foldlM (mergeStep_ok document) entered
  replace each := each.imp fun _ _ => readParameter_ok
  have fromPath := List.forall₂_take pathItems.length each
  have fromOperation := List.forall₂_drop pathItems.length each
  rw [List.take_left] at fromPath
  rw [List.drop_left] at fromOperation
  refine ⟨_, _, ⟨pathItems, onPath, fromPath⟩, ⟨operationItems, onOperation, fromOperation⟩, ?_⟩
  rw [List.take_append_drop]
  exact done.merged

end OpenApiClient
