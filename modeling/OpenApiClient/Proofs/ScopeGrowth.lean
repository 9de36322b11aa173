import OpenApiClient.Proofs.Emission

/-! What claiming names and declaring classes does to a scope: the new names go to the end of those that are
there, each for the first time, and nothing else changes. -/

namespace OpenApiClient

open InScope

namespace NamingScope

def visible (scope : NamingScope) : List String := scope.names.map scope.qualify

structure Takes (scope : NamingScope) (taken : List String) (after : NamingScope) : Prop where
  names : after.names = scope.names ++ taken
  distinct : taken.Nodup
  fresh : ∀ name ∈ taken, name ∉ scope.names

structure Grows (scope : NamingScope) (declared : List ClassDeclaration) (after : NamingScope) : Prop where
  names : after.names = scope.names ++ declared.map ClassDeclaration.name
  owner : after.owner = scope.owner
  reserved : after.reserved = scope.reserved
  distinct : (declared.map ClassDeclaration.name).Nodup
  fresh : ∀ own ∈ declared, own.name ∉ scope.names
  qualified : ∀ own ∈ declared, own.qualifiedName = scope.qualify own.name

section

variable {scope between after : NamingScope} {taken others : List String}

theorem Takes.refl (scope : NamingScope) : scope.Takes [] scope where
  names := (List.append_nil scope.names).symm
  distinct := List.nodup_nil
  fresh := by simp

theorem Takes.trans (first : scope.Takes taken between) (second : between.Takes others after) :
    scope.Takes (taken ++ others) after where
  names := by rw [second.names, first.names, List.append_assoc]
  distinct := by
    have apart : ∀ name ∈ taken, ∀ other ∈ others, name ≠ other := by
      intro name early other late same
      apply second.fresh other late
      rw [first.names, ← same]
      exact List.mem_append_right _ early
    exact List.nodup_append.mpr ⟨first.distinct, second.distinct, apart⟩
  fresh := by
    have later : ∀ name ∈ others, name ∉ scope.names := by
      intro name late known
      apply second.fresh name late
      rw [first.names]
      exact List.mem_append_left _ known
    exact List.forall_mem_append.mpr ⟨first.fresh, later⟩

theorem Takes.add {name : String} (absent : name ∉ scope.names) : scope.Takes [name] (scope.add name) where
  names := by simp [NamingScope.add, insert, absent]
  distinct := List.nodup_singleton name
  fresh := List.forall_mem_singleton.mpr absent

end

variable {scope between after : NamingScope} {declared others : List ClassDeclaration}

theorem qualify_of_owner (same : between.owner = scope.owner) (name : String) :
    between.qualify name = scope.qualify name := by
  simp only [qualify, same]

theorem ownName_of_reserved (same : between.reserved = scope.reserved) (name : String) :
    between.ownName name = scope.ownName name := by
  simp only [ownName, same]

theorem mem_insert {name new : String} {names : List String} :
    name ∈ insert new names ↔ name = new ∨ name ∈ names := by
  unfold insert
  split
  · rename_i present
    have known := List.contains_iff_mem.mp present
    exact ⟨.inr, fun either => either.elim (fun same => same ▸ known) id⟩
  · rw [List.mem_append, List.mem_singleton, or_comm]

theorem mem_reserve {name : String} {names : List String} :
    name ∈ (scope.reserve names).reserved ↔ name ∈ names ∨ name ∈ scope.reserved := by
  have folded : ∀ reserved : List String,
      name ∈ names.foldl (fun reserved name => insert name reserved) reserved ↔
        name ∈ names ∨ name ∈ reserved := by
    induction names with
    | nil => simp
    | cons new rest ih =>
        intro reserved
        rw [List.foldl_cons, ih, mem_insert, List.mem_cons, or_left_comm, or_assoc]
  exact folded scope.reserved

theorem ownName_eq (name : String) :
    scope.ownName name = if name ∈ scope.reserved then name ++ "_" else name := by
  simp [ownName]

theorem qualify_inside {owner : String} (owned : scope.owner = some owner) (filled : owner ≠ "")
    (name : String) : scope.qualify name = owner ++ "." ++ name := by
  unfold qualify
  split
  · simp_all
  · simp_all
  · rename_i again
    rw [Option.some.inj (owned.symm.trans again)]

theorem Grows.qualify (growth : scope.Grows declared after) (name : String) :
    after.qualify name = scope.qualify name :=
  qualify_of_owner growth.owner name

theorem Grows.visible (growth : scope.Grows declared after) :
    after.visible = scope.visible ++ declared.map fun own => scope.qualify own.name := by
  simp [NamingScope.visible, growth.names, growth.qualify, Function.comp_def]

theorem Grows.refl (scope : NamingScope) : scope.Grows [] scope where
  names := by simp
  owner := rfl
  reserved := rfl
  distinct := List.nodup_nil
  fresh := by simp
  qualified := by simp

theorem Grows.add {own : ClassDeclaration} (absent : own.name ∉ scope.names)
    (qualified : own.qualifiedName = scope.qualify own.name) : scope.Grows [own] (scope.add own.name) where
  names := by simp [NamingScope.add, insert, absent]
  owner := rfl
  reserved := rfl
  distinct := by simp
  fresh := List.forall_mem_singleton.mpr absent
  qualified := List.forall_mem_singleton.mpr qualified

theorem Grows.takes (growth : scope.Grows declared after) :
    scope.Takes (declared.map ClassDeclaration.name) after where
  names := growth.names
  distinct := growth.distinct
  fresh := List.forall_mem_map.mpr growth.fresh

theorem Grows.trans (first : scope.Grows declared between) (second : between.Grows others after) :
    scope.Grows (declared ++ others) after := by
  have both := first.takes.trans second.takes
  rw [← List.map_append] at both
  exact {
    names := both.names
    owner := second.owner.trans first.owner
    reserved := second.reserved.trans first.reserved
    distinct := both.distinct
    fresh := fun own member => both.fresh own.name (List.mem_map_of_mem member)
    qualified := List.forall_mem_append.mpr
      ⟨first.qualified, fun own member => (second.qualified own member).trans (first.qualify own.name)⟩
  }

end NamingScope

namespace Registry

variable {registry : Registry}

theorem emit_grows {suggested : Option String} {schema : Schema} {scope after : NamingScope}
    {declared : List ClassDeclaration} {type : TypeExpression}
    (yields : Yields (registry.emit suggested schema) scope (declared, type) after) :
    scope.Grows declared after := by
  refine registry.emit_induction (fun _ _ scope declared _ after => scope.Grows declared after)
    (fun _ _ _ _ _ _ _ _ => True) ?leaf ?present ?absent ?map ?array ?union ?done ?property
    suggested schema scope declared type after yields
  case leaf => exact fun _ _ scope _ _ _ => .refl scope
  case present => exact fun _ _ _ scope _ _ _ _ => .refl scope
  case absent => exact fun _ _ _ _ _ _ _ _ _ _ _ fresh _ _ => .add fresh rfl
  case map | array | union => exact fun _ _ _ _ _ _ _ _ growth => growth
  case done | property => simp

end Registry
end OpenApiClient
