import OpenApiClient.Package.Group
import OpenApiClient.Proofs.Outcome
import Mathlib.Data.List.Induction
import Mathlib.Data.List.TakeWhile

/-! The groups of operations that become services: which operations they collect and in what order, and
which paths have one root. -/

namespace OpenApiClient

def Operation.root? (operation : Operation) : Option String :=
  match operation.path with
  | .string path => some (Naming.pathRoot path)
  | _ => none

namespace ServiceGroup

variable {root : String} {operation : Operation} {groups : List ServiceGroup}

theorem insert_new (new : root ∉ groups.map pathRoot) :
    insert root operation groups = groups ++ [⟨root, [operation]⟩] := by
  induction groups with
  | nil => rfl
  | cons first rest ih =>
      rw [List.map_cons, List.mem_cons, not_or] at new
      rw [insert, if_neg (Ne.symm new.1), ih new.2, List.cons_append]

theorem insert_known (distinct : (groups.map pathRoot).Nodup) (known : root ∈ groups.map pathRoot) :
    insert root operation groups =
      groups.map fun group =>
        if group.pathRoot = root then { group with operations := group.operations ++ [operation] }
        else group := by
  induction groups with
  | nil => contradiction
  | cons first rest ih =>
      rw [List.map_cons, List.nodup_cons] at distinct
      rw [insert, List.map_cons]
      by_cases same : first.pathRoot = root
      · subst same
        -- No later group has this root.
        have others : ∀ group ∈ rest, group.pathRoot ≠ first.pathRoot := fun group member equal =>
          distinct.1 (equal ▸ List.mem_map_of_mem member)
        rw [if_pos rfl, if_pos rfl, List.map_congr_left fun group member => if_neg (others group member),
          List.map_id']
      · rw [if_neg same, if_neg same, ih distinct.2]
        exact (List.mem_cons.mp known).resolve_left (Ne.symm same)

theorem insert_known_roots (distinct : (groups.map pathRoot).Nodup) (known : root ∈ groups.map pathRoot) :
    (insert root operation groups).map pathRoot = groups.map pathRoot := by
  rw [insert_known distinct known, List.map_map]
  exact List.map_congr_left fun group _ => by dsimp only [Function.comp_apply]; split <;> rfl

theorem insert_perm :
    ((insert root operation groups).flatMap operations).Perm (operation :: groups.flatMap operations) := by
  induction groups with
  | nil => exact .refl _
  | cons first rest ih =>
      rw [insert]
      by_cases same : first.pathRoot = root
      · simp only [if_pos same, List.flatMap_cons, List.append_assoc]
        exact List.perm_middle
      · simp only [if_neg same, List.flatMap_cons]
        exact (ih.append_left first.operations).trans List.perm_middle

/-- The groups have the roots of the operations, each once and in the order in which they are met first, and
a group collects the operations of its root in their order. -/
structure Partition (groups : List ServiceGroup) (operations : List Operation) : Prop where
  distinct : (groups.map pathRoot).Nodup
  roots : (groups.map pathRoot).map some = (operations.map Operation.root?).eraseDups
  collected : ∀ group ∈ groups,
    group.operations = operations.filter fun operation => operation.root? == some group.pathRoot
  complete : (groups.flatMap ServiceGroup.operations).Perm operations

namespace Partition

variable {operations : List Operation}

theorem nil : Partition [] [] := ⟨List.nodup_nil, rfl, by simp, .refl _⟩

theorem mem_roots (partition : Partition groups operations) :
    root ∈ groups.map pathRoot ↔ some root ∈ operations.map Operation.root? := by
  have listed : some root ∈ (groups.map pathRoot).map some ↔ root ∈ groups.map pathRoot :=
    List.mem_map_of_injective fun _ _ => Option.some.inj
  rw [← listed, partition.roots, List.mem_eraseDups]

/-- An operation comes last in the group of its root, or is the first of a last group. -/
theorem snoc (partition : Partition groups operations) (rooted : operation.root? = some root) :
    Partition (insert root operation groups) (operations ++ [operation]) := by
  have complete : ((insert root operation groups).flatMap ServiceGroup.operations).Perm
      (operations ++ [operation]) :=
    insert_perm.trans ((partition.complete.cons operation).trans (List.perm_append_singleton ..).symm)
  by_cases known : root ∈ groups.map pathRoot
  case pos =>
    -- The roots stay as they are, and one group takes the operation.
    refine ⟨?_, ?_, ?_, complete⟩
    · rw [insert_known_roots partition.distinct known]
      exact partition.distinct
    · rw [insert_known_roots partition.distinct known, List.map_append, List.map_singleton, rooted,
        eraseDups_known (partition.mem_roots.mp known), partition.roots]
    · rw [insert_known partition.distinct known]
      intro group member
      obtain ⟨earlier, among, rfl⟩ := List.mem_map.mp member
      rw [List.filter_append]
      by_cases own : earlier.pathRoot = root
      · simp [own, rooted, partition.collected earlier among]
      · simp [own, Ne.symm own, rooted, partition.collected earlier among]
  case neg =>
    have unmet : some root ∉ operations.map Operation.root? := partition.mem_roots.not.mp known
    rw [insert_new known] at complete ⊢
    refine ⟨?_, ?_, ?_, complete⟩
    · rw [List.map_append]
      exact partition.distinct.append (List.nodup_singleton root) (by simpa using known)
    · rw [List.map_append (f := Operation.root?), List.map_singleton, rooted, eraseDups_new unmet,
        ← partition.roots]
      simp
    · intro group member
      rw [List.filter_append]
      rcases List.mem_append.mp member with earlier | last
      · have other : root ≠ group.pathRoot := fun same => known (same ▸ List.mem_map_of_mem earlier)
        simp [rooted, other, partition.collected group earlier]
      · obtain rfl := List.mem_singleton.mp last
        have none : operations.filter (fun operation => operation.root? == some root) = [] := by
          simpa [List.filter_eq_nil_iff] using unmet
        simp [rooted, none]

theorem mem (partition : Partition groups operations) {group : ServiceGroup} (member : group ∈ groups) :
    operation ∈ group.operations ↔ operation ∈ operations ∧ operation.root? = some group.pathRoot := by
  rw [partition.collected group member, List.mem_filter, beq_iff_eq]

theorem only (partition : Partition groups operations) (member : operation ∈ operations)
    (rooted : operation.root? = some root) :
    ∃ group ∈ groups, group.pathRoot = root ∧ operation ∈ group.operations ∧
      ∀ other ∈ groups, operation ∈ other.operations → other = group := by
  have met : root ∈ groups.map pathRoot := partition.mem_roots.mpr (rooted ▸ List.mem_map_of_mem member)
  obtain ⟨group, among, rfl⟩ := List.mem_map.mp met
  refine ⟨group, among, rfl, (partition.mem among).mpr ⟨member, rooted⟩, fun other present collects => ?_⟩
  have same := rooted.symm.trans ((partition.mem present).mp collects).2
  exact List.inj_on_of_nodup_map partition.distinct present among (Option.some.inj same).symm

end Partition
end ServiceGroup

theorem groupOperations_snoc {operations : List Operation} {operation : Operation}
    {groups : List ServiceGroup} :
    groupOperations (operations ++ [operation]) = .ok groups ↔
      ∃ earlier path, groupOperations operations = .ok earlier ∧ operation.path = .string path ∧
        groups = ServiceGroup.insert (Naming.pathRoot path) operation earlier := by
  simp only [groupOperations, List.foldlM_append, List.foldlM_cons, List.foldlM_nil, except_bind_ok,
    except_pure_ok, Value.asPattern_ok]
  constructor
  · rintro ⟨earlier, grouped, between, ⟨path, written, rfl⟩, rfl⟩
    exact ⟨earlier, path, grouped, written, rfl⟩
  · rintro ⟨earlier, path, grouped, written, rfl⟩
    exact ⟨earlier, grouped, _, ⟨path, written, rfl⟩, rfl⟩

theorem groupOperations_ok {operations : List Operation} {groups : List ServiceGroup}
    (grouped : groupOperations operations = .ok groups) : ServiceGroup.Partition groups operations := by
  induction operations using List.reverseRecOn generalizing groups with
  | nil =>
      obtain rfl := except_pure_ok.mp grouped
      exact .nil
  | append_singleton operations operation ih =>
      obtain ⟨earlier, path, before, written, rfl⟩ := groupOperations_snoc.mp grouped
      exact (ih before).snoc (by simp [Operation.root?, written])

theorem groupOperations_succeeds {operations : List Operation} :
    Succeeds (groupOperations operations) ↔
      ∀ operation ∈ operations, ∃ path, operation.path = .string path := by
  induction operations using List.reverseRecOn with
  | nil => simp [groupOperations, Succeeds, pure, Except.pure]
  | append_singleton operations operation ih =>
      simp only [List.forall_mem_append, List.forall_mem_singleton, ← ih]
      simp only [Succeeds, groupOperations_snoc]
      constructor
      · rintro ⟨groups, earlier, path, before, written, -⟩
        exact ⟨⟨earlier, before⟩, path, written⟩
      · rintro ⟨⟨earlier, before⟩, path, written⟩
        exact ⟨_, earlier, path, before, written, rfl⟩

/-! The root of a path is what stands before its first placeholder segment or final slash. -/

namespace Naming

theorem rootAfter_skip (skipped : Nat) (chars : List Char) :
    rootAfter skipped chars = rootAfter 0 (chars.drop skipped) := by
  induction chars generalizing skipped with
  | nil => simp [rootAfter]
  | cons c rest ih =>
      cases skipped with
      | zero => rfl
      | succ left => rw [rootAfter, ih, List.drop_succ_cons]

structure IsLiteral (text : List Char) : Prop where
  plain : ∀ c ∈ text, c ≠ '\x7b' ∧ c ≠ '\x7d' ∧ c ≠ '\n'
  ending : text.getLast? ≠ some '/'

theorem IsLiteral.tail {c : Char} {text : List Char} (literal : IsLiteral (c :: text)) : IsLiteral text where
  plain other member := literal.plain other (List.mem_cons_of_mem c member)
  ending slash := literal.ending (by simp [List.getLast?_cons, slash])

theorem rootAfter_literal {text : List Char} (literal : IsLiteral text) (rest : List Char) :
    rootAfter 0 (text ++ rest) = text ++ rootAfter 0 rest := by
  induction text with
  | nil => rfl
  | cons c text ih =>
      rw [List.cons_append, List.cons_append, ← ih literal.tail, rootAfter]
      split
      case isFalse => rfl
      case isTrue slash =>
        -- What follows the slash is neither a placeholder nor an end.
        subst slash
        cases text with
        | nil => exact absurd rfl literal.ending
        | cons next text =>
            obtain ⟨notOpen, -, notFeed⟩ := literal.plain next (by simp)
            have none : placeholderLength? (next :: (text ++ rest)) = none := by
              unfold placeholderLength?
              split
              case h_1 opened => exact absurd (List.cons.inj opened).1 notOpen
              case h_2 => rfl
            rw [List.cons_append, none]
            simp [notFeed]

theorem placeholderLength?_named {name : List Char} (unbraced : ∀ c ∈ name, c ≠ '\x7b' ∧ c ≠ '\x7d')
    (rest : List Char) :
    placeholderLength? ('\x7b' :: (name ++ '\x7d' :: rest)) = some (name.length + 2) := by
  have taken : (name ++ '\x7d' :: rest).takeWhile (fun c => c != '\x7b' && c != '\x7d') = name := by
    rw [List.takeWhile_append_of_pos (by simpa using unbraced)]
    simp
  simp [placeholderLength?, taken]

theorem rootAfter_placeholder {name suffix : List Char} (unbraced : ∀ c ∈ name, c ≠ '\x7b' ∧ c ≠ '\x7d')
    (line : '\n' ∉ suffix) : rootAfter 0 ('/' :: '\x7b' :: (name ++ '\x7d' :: suffix)) = [] := by
  have dropped : ('\x7b' :: (name ++ '\x7d' :: suffix)).drop (name.length + 2) = suffix := by
    simp [List.drop_append]
  have whole : suffix.takeWhile (· != '\n') = suffix :=
    List.takeWhile_eq_self_iff.mpr fun c member => by
      simpa using fun feed : c = '\n' => line (feed ▸ member)
  rw [rootAfter, if_pos rfl, placeholderLength?_named unbraced]
  dsimp only
  rw [rootAfter_skip, dropped, whole, List.drop_of_length_le (by simp; omega), rootAfter]

/-- A path, the path with a final slash and the paths of its placeholders have one root. -/
theorem pathRoot_family {root : String} (literal : IsLiteral root.toList) :
    pathRoot root = root ∧ pathRoot (root ++ "/") = root ∧
      ∀ name suffix : String, (∀ c ∈ name.toList, c ≠ '\x7b' ∧ c ≠ '\x7d') → '\n' ∉ suffix.toList →
        pathRoot (root ++ "/\x7b" ++ name ++ "\x7d" ++ suffix) = root := by
  have rooted : ∀ rest : List Char, rootAfter 0 rest = [] →
      String.ofList (rootAfter 0 (root.toList ++ rest)) = root := fun rest dropped => by
    rw [rootAfter_literal literal, dropped, List.append_nil, String.ofList_toList]
  refine ⟨?_, ?_, fun name suffix unbraced line => ?_⟩
  · simpa [pathRoot] using rooted [] rfl
  · simpa [pathRoot] using rooted ['/'] rfl
  · simpa [pathRoot] using rooted _ (rootAfter_placeholder unbraced line)

end Naming

/-- The operations of a document are grouped when all their paths are texts. No operation is lost or in two
groups, and the paths of one family are in one group. -/
theorem groupOperations_partition (document : ApiDocument) :
    (Succeeds (groupOperations document.operations) ↔
      ∀ operation ∈ document.operations, ∃ path, operation.path = .string path) ∧
    (∀ groups, groupOperations document.operations = .ok groups →
      ServiceGroup.Partition groups document.operations ∧
      ∀ operation ∈ document.operations, ∀ path, operation.path = .string path →
        ∃ group ∈ groups, group.pathRoot = Naming.pathRoot path ∧ operation ∈ group.operations ∧
          ∀ other ∈ groups, operation ∈ other.operations → other = group) ∧
    ∀ root : String, Naming.IsLiteral root.toList →
      Naming.pathRoot root = root ∧ Naming.pathRoot (root ++ "/") = root ∧
        ∀ name suffix : String, (∀ c ∈ name.toList, c ≠ '\x7b' ∧ c ≠ '\x7d') → '\n' ∉ suffix.toList →
          Naming.pathRoot (root ++ "/\x7b" ++ name ++ "\x7d" ++ suffix) = root := by
  refine ⟨groupOperations_succeeds, fun groups grouped => ?_, fun _ literal => Naming.pathRoot_family literal⟩
  have partition := groupOperations_ok grouped
  exact ⟨partition, fun operation member path written =>
    partition.only member (by simp [Operation.root?, written])⟩

def itemsDocument : ApiDocument where
  title := .string "Items"
  version := "1"
  schemas := []
  distinctSchemas := Entries.distinct_nil Value.same
  operations := ["/v1/items", "/health", "/v1/items/", "/v1/items/\x7bid\x7d/tags"].map fun path =>
    { method := "GET", path := .string path }

theorem itemsDocument_grouped :
    (Succeeds (groupOperations itemsDocument.operations) ∧
      ∃ groups, groupOperations itemsDocument.operations = .ok groups ∧
        groups.map ServiceGroup.pathRoot = ["/v1/items", "/health"] ∧
        ServiceGroup.Partition groups itemsDocument.operations) ∧
    Naming.IsLiteral "/v1/items".toList ∧
      Naming.pathRoot ("/v1/items" ++ "/\x7b" ++ "id" ++ "\x7d" ++ "/tags") = "/v1/items" := by
  obtain ⟨total, grouped, family⟩ := groupOperations_partition itemsDocument
  have literal : Naming.IsLiteral "/v1/items".toList := ⟨by simp, by simp⟩
  obtain ⟨-, -, placeholders⟩ := family "/v1/items" literal
  have written : ∀ operation ∈ itemsDocument.operations, ∃ path, operation.path = .string path := by
    intro operation member
    obtain ⟨path, -, rfl⟩ := List.mem_map.mp member
    exact ⟨path, rfl⟩
  have all : groupOperations itemsDocument.operations = .ok _ := rfl
  exact ⟨⟨total.mpr written, _, all, by decide +kernel, (grouped _ all).1⟩, literal,
    placeholders "id" "/tags" (by simp) (by simp)⟩

end OpenApiClient
