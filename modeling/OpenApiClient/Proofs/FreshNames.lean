import OpenApiClient.Package.Operation
import OpenApiClient.Proofs.Outcome
import OpenApiClient.Proofs.UniqueNames
import Mathlib.Logic.Function.Iterate

/-! Names that are free. The forms of a name with underscores after it are all different, so that the search for a
free one among them always ends with one. -/

namespace OpenApiClient

open InScope

theorem underscores_injective (name : String) : Function.Injective fun count => (· ++ "_")^[count] name := by
  have length : ∀ count, ((· ++ "_")^[count] name).length = name.length + count := by
    intro count
    induction count with
    | zero => rfl
    | succ count ih =>
        rw [Function.iterate_succ_apply', String.length_append, ih]
        rfl
  intro first second same
  have equal := congrArg String.length same
  simp only [length] at equal
  exact Nat.add_left_cancel equal

theorem freeName_not_mem {scope : NamingScope} {name : String} {fuel : Nat}
    (free : ∃ count ≤ fuel, (· ++ "_")^[count] name ∉ scope.names ++ scope.reserved) :
    freeName scope name fuel ∉ scope.names ++ scope.reserved := by
  induction fuel generalizing name with
  | zero =>
      obtain ⟨count, bound, free⟩ := free
      obtain rfl := Nat.le_zero.mp bound
      exact free
  | succ fuel ih =>
      unfold freeName
      split
      · rename_i known
        have member : name ∈ scope.names ++ scope.reserved := by simpa [NamingScope.contains] using known
        obtain ⟨_ | count, bound, free⟩ := free
        · exact absurd member free
        · exact ih ⟨count, Nat.le_of_succ_le_succ bound, free⟩
      · rename_i unknown
        simpa [NamingScope.contains] using unknown

theorem freeName_forall {property : String → Prop} (kept : ∀ name, property name → property (name ++ "_"))
    (scope : NamingScope) {name : String} (holds : property name) (fuel : Nat) :
    property (freeName scope name fuel) := by
  induction fuel generalizing name with
  | zero => exact holds
  | succ fuel ih =>
      unfold freeName
      split
      · exact ih (kept name holds)
      · exact holds

theorem claimName_free {name free : String} {scope after : NamingScope}
    (yields : Yields (claimName name) scope free after) :
    free = freeName scope name (scope.names.length + scope.reserved.length + 1) ∧ after = scope.add free := by
  obtain ⟨_, _, reading, yields⟩ := yields_bind.mp yields
  obtain ⟨rfl, rfl⟩ := yields_read.mp reading
  obtain ⟨_, _, updated, finished⟩ := yields_bind.mp yields
  obtain rfl := yields_update.mp updated
  obtain ⟨rfl, rfl⟩ := yields_pure.mp finished
  exact ⟨rfl, rfl⟩

theorem claimName_not_mem {name free : String} {scope after : NamingScope}
    (yields : Yields (claimName name) scope free after) : free ∉ scope.names ∧ free ∉ scope.reserved := by
  obtain ⟨rfl, -⟩ := claimName_free yields
  obtain ⟨count, bound, free⟩ := exists_free (underscores_injective name) (scope.names ++ scope.reserved)
  rw [List.length_append] at bound
  simpa using freeName_not_mem ⟨count, Nat.le_succ_of_le bound, free⟩

end OpenApiClient
