import Mathlib.Data.List.TakeWhile
import OpenApiClient.Path
import OpenApiClient.Proofs.FormFields

/-! Paths below a path. Names without slashes are added to a path one after the other, and a suffix is put to the
last of them and taken from it again. -/

namespace OpenApiClient

namespace Text

variable {separator : Char}

theorem splitAt_ne_nil (separator : Char) (text : List Char) : splitAt separator text ≠ [] := by
  cases text with
  | nil => simp [splitAt]
  | cons c rest =>
      rw [splitAt]
      split
      · simp
      · split <;> simp

theorem splitAt_joined (separator : Char) (text rest : List Char) :
    splitAt separator (text ++ separator :: rest) = splitAt separator text ++ splitAt separator rest := by
  induction text with
  | nil => simp [splitAt]
  | cons c text ih =>
      rw [List.cons_append, splitAt, splitAt, ih]
      by_cases same : c = separator
      · simp [same]
      · obtain ⟨part, parts, split⟩ := List.exists_cons_of_ne_nil (splitAt_ne_nil separator text)
        simp [same, split]

theorem splitAt_absent {text part : List Char} (member : part ∈ splitAt separator text) : separator ∉ part := by
  induction text generalizing part with
  | nil =>
      obtain rfl : part = [] := by simpa [splitAt] using member
      simp
  | cons c text ih =>
      obtain ⟨first, parts, split⟩ := List.exists_cons_of_ne_nil (splitAt_ne_nil separator text)
      rw [splitAt, split] at member
      rw [split] at ih
      by_cases same : c = separator
      · rw [if_pos same, List.mem_cons] at member
        rcases member with rfl | later
        · simp
        · exact ih later
      · rw [if_neg same, List.mem_cons] at member
        rcases member with rfl | later
        · simp [Ne.symm same, ih List.mem_cons_self]
        · exact ih (List.mem_cons_of_mem _ later)

end Text

namespace Path

structure IsName (name : String) : Prop where
  filled : name ≠ ""
  notHere : name ≠ "."
  notAbove : name ≠ ".."
  slashless : '/' ∉ name.toList

def below (path : Path) (names : List String) : Path := { path with parts := path.parts ++ names }

variable {path : Path} {name : String} {names : List String}

theorem ofText_name (own : IsName name) : ofText name = ⟨"", [name]⟩ := by
  obtain ⟨c, rest, letters⟩ := List.exists_cons_of_ne_nil (mt String.toList_eq_nil_iff.mp own.filled)
  have slashless := own.slashless
  have relative : rootOf name.toList = "" := by
    rw [letters, List.mem_cons, not_or] at slashless
    rw [letters]
    unfold rootOf
    split <;> simp_all
  have whole : partsOf name = [name] := by
    rw [partsOf, Text.splitAt_whole slashless]
    simp [own.filled, own.notHere]
  rw [ofText, relative, whole]

theorem join_name (own : IsName name) (path : Path) : path.join name = path.below [name] := by
  simp [join, ofText_name own, below]

theorem joinAll_names (own : ∀ name ∈ names, IsName name) (path : Path) :
    path.joinAll names = path.below names := by
  induction names generalizing path with
  | nil => simp [joinAll, below]
  | cons name rest ih =>
      obtain ⟨first, others⟩ := List.forall_mem_cons.mp own
      have later := ih others (path.join name)
      rw [joinAll, List.foldl_cons]
      rw [joinAll] at later
      rw [later, join_name first]
      simp [below]

theorem below_below (path : Path) (first second : List String) :
    (path.below first).below second = path.below (first ++ second) := by
  simp [below]

theorem parent_below (path : Path) (names : List String) (name : String) :
    (path.below (names ++ [name])).parent = path.below names := by
  rw [← below_below]
  simp [below, parent]

theorem splitSuffix_dotless (dotless : '.' ∉ name.toList) : splitSuffix name = (name, "") := by
  have whole : name.toList.reverse.takeWhile (· != '.') = name.toList.reverse := by
    refine List.takeWhile_eq_self_iff.mpr fun c member => ?_
    have different : c ≠ '.' := fun same => dotless (same ▸ List.mem_reverse.mp member)
    simpa using different
  simp [splitSuffix, whole, List.drop_eq_nil_of_le]

theorem splitSuffix_source (filled : name ≠ "") : splitSuffix (name ++ ".py") = (name, ".py") := by
  simp [splitSuffix, filled]

theorem withSuffix?_source (filled : name ≠ "") (dotless : '.' ∉ name.toList) :
    (path.below (names ++ [name])).withSuffix? ".py" = some (path.below (names ++ [name ++ ".py"])) := by
  simp [withSuffix?, below, Path.name, filled, splitSuffix_dotless dotless, ← List.append_assoc]

theorem withSuffix?_none (filled : name ≠ "") :
    (path.below (names ++ [name ++ ".py"])).withSuffix? "" = some (path.below (names ++ [name])) := by
  simp [withSuffix?, below, Path.name, splitSuffix_source filled, ← List.append_assoc]

end Path
end OpenApiClient
