import OpenApiClient.Proofs.ImportGraph

/-! Aliases that refer to each other. The cycle of an alias holds exactly the aliases with which it is connected both
ways, so that two aliases are on the cycles of each other or not at all. -/

namespace OpenApiClient.Registry

open Relation

variable {registry : Registry}

def IsAlias (registry : Registry) (name : String) : Prop :=
  ∃ named, registry.get name = .ok named ∧ named.schema.isStruct = false

structure Refers (registry : Registry) (source target : String) : Prop where
  fromAlias : registry.IsAlias source
  toAlias : registry.IsAlias target
  mentioned : ∃ named names, registry.get source = .ok named ∧ named.schema.references = .ok names ∧ target ∈ names

section Paths

variable {source target : String}

theorem AliasStep.isAlias (step : registry.AliasStep source target) : registry.IsAlias target := by
  obtain ⟨targets, found, member⟩ := step
  obtain ⟨-, _, _, -, -, members⟩ := aliasTargets_ok found
  obtain ⟨-, entry, located, notStruct⟩ := (members target).mp member
  exact ⟨entry, located, notStruct⟩

theorem AliasStep.refers (own : registry.IsAlias source) (step : registry.AliasStep source target) :
    registry.Refers source target where
  fromAlias := own
  toAlias := step.isAlias
  mentioned := by
    obtain ⟨targets, found, member⟩ := step
    obtain ⟨-, named, names, located, walked, members⟩ := aliasTargets_ok found
    exact ⟨named, names, located, walked, ((members target).mp member).1⟩

theorem Refers.aliasStep (refers : registry.Refers source target)
    (answered : Succeeds (registry.aliasTargets source)) : registry.AliasStep source target := by
  obtain ⟨targets, found⟩ := answered
  obtain ⟨-, named, names, located, walked, members⟩ := aliasTargets_ok found
  obtain ⟨other, others, again, walkedAgain, member⟩ := refers.mentioned
  obtain rfl := Except.ok.inj (located.symm.trans again)
  obtain rfl := Except.ok.inj (walked.symm.trans walkedAgain)
  exact ⟨targets, found, (members target).mpr ⟨member, refers.toAlias⟩⟩

theorem path_isAlias (path : TransGen registry.AliasStep source target) : registry.IsAlias target := by
  obtain ⟨_, _, last⟩ := TransGen.tail'_iff.mp path
  exact last.isAlias

theorem path_refers (own : registry.IsAlias source) (path : TransGen registry.AliasStep source target) :
    TransGen registry.Refers source target := by
  induction path with
  | single step => exact .single (step.refers own)
  | tail before step ih => exact ih.tail (step.refers (path_isAlias before))

/-- Along a search that succeeds the references are the steps that it takes. -/
theorem refers_path {reached : List String} (found : registry.reachable source = .ok reached)
    (path : TransGen registry.Refers source target) : TransGen registry.AliasStep source target := by
  induction path with
  | single refers => exact .single (refers.aliasStep (reachable_answered found (.inl rfl)))
  | tail _ refers ih =>
      exact ih.tail (refers.aliasStep (reachable_answered found (.inr ((reachable_ok found _).mpr ih))))

end Paths

/-- Every search ends, in whatever order it takes the names, and what is reached is its outcome. The cycle of an alias
holds the aliases that it leads to, by one reference or more, and that lead back to it. -/
theorem aliasCycle_mutual (registry : Registry) :
    (WellFounded fun next state => registry.Turn state next) ∧
      (∀ start, ∃ last, ReflTransGen registry.Turn ([start], []) last ∧
        registry.Ends last (registry.reachable start)) ∧
      ∀ name cycle, registry.IsAlias name → registry.aliasCycle name = .ok cycle →
        (∀ other, other ∈ cycle ↔
          TransGen registry.Refers name other ∧ TransGen registry.Refers other name) ∧
        (name ∈ cycle ↔ TransGen registry.Refers name name) ∧
        ∀ other, other ∈ cycle ↔ ∃ back, registry.aliasCycle other = .ok back ∧ name ∈ back := by
  refine ⟨registry.turn_wellFounded, registry.reachable_ends, fun name cycle own found => ?_⟩
  obtain ⟨⟨reached, explored⟩, searched⟩ := aliasCycle_succeeds_iff.mp ⟨cycle, found⟩
  have connected : ∀ other, other ∈ cycle ↔
      TransGen registry.Refers name other ∧ TransGen registry.Refers other name := by
    intro other
    rw [aliasCycle_ok found]
    constructor
    · rintro ⟨forth, back⟩
      exact ⟨path_refers own forth, path_refers (path_isAlias forth) back⟩
    · rintro ⟨forth, back⟩
      have path := refers_path explored forth
      obtain ⟨_, exploredBack⟩ := searched other path
      exact ⟨path, refers_path exploredBack back⟩
  refine ⟨connected, by rw [connected, and_self], fun other => ?_⟩
  constructor
  · intro member
    obtain ⟨forth, back⟩ := (aliasCycle_ok found other).mp member
    -- All that the other leads to was searched, since the name leads to the other.
    obtain ⟨others, foundBack⟩ := aliasCycle_succeeds_iff.mpr
      ⟨searched other forth, fun further path => searched further (forth.trans path)⟩
    exact ⟨others, foundBack, (aliasCycle_ok foundBack name).mpr ⟨back, forth⟩⟩
  · rintro ⟨others, foundBack, member⟩
    obtain ⟨back, forth⟩ := (aliasCycle_ok foundBack name).mp member
    exact (aliasCycle_ok found other).mpr ⟨forth, back⟩

/-- The two lists of each other are on one cycle, and the list of one of them is on none. -/
theorem mutualLists_connected :
    ∃ registry, (ofSchemas (some "lists") mutualLists.schemas).result = .ok registry ∧
      registry.IsAlias "Left" ∧ registry.aliasCycle "Left" = .ok ["Left", "Right"] ∧
      TransGen registry.Refers "Left" "Right" ∧ TransGen registry.Refers "Right" "Left" ∧
      (∃ back, registry.aliasCycle "Right" = .ok back ∧ "Left" ∈ back) ∧
      registry.IsAlias "Batch" ∧ registry.aliasCycle "Batch" = .ok [] ∧
      ¬TransGen registry.Refers "Batch" "Batch" := by
  obtain ⟨registry, made, left, batch, found, lone⟩ : ∃ registry,
      (ofSchemas (some "lists") mutualLists.schemas).result = .ok registry ∧
        registry.IsAlias "Left" ∧ registry.IsAlias "Batch" ∧
        registry.aliasCycle "Left" = .ok ["Left", "Right"] ∧ registry.aliasCycle "Batch" = .ok [] :=
    ⟨_, rfl, ⟨_, rfl, rfl⟩, ⟨_, rfl, rfl⟩, rfl, rfl⟩
  obtain ⟨connected, -, mutually⟩ := registry.aliasCycle_mutual.2.2 "Left" _ left found
  obtain ⟨-, onCycle, -⟩ := registry.aliasCycle_mutual.2.2 "Batch" _ batch lone
  obtain ⟨forth, back⟩ := (connected "Right").mp (by simp)
  exact ⟨registry, made, left, found, forth, back, (mutually "Right").mp (by simp), batch, lone,
    fun path => absurd (onCycle.mpr path) List.not_mem_nil⟩

end OpenApiClient.Registry
