import OpenApiClient.Proofs.WalkedReferences

/-! When a computation stops with a generation error. A computation that is put together stops in one of its parts,
after those before it have succeeded. A malformed document ends a computation too, but with no generation error. -/

namespace OpenApiClient

variable {α β : Type} {error : GenerationError}

def Stops (outcome : Except Failure α) (error : GenerationError) : Prop := outcome = .error (.generation error)

theorem stops_pure {value : α} : ¬Stops (pure value) error := by
  simp [Stops, pure, Except.pure]

theorem stops_bind {first : Except Failure α} {next : α → Except Failure β} :
    Stops (first >>= next) error ↔ Stops first error ∨ ∃ value, first = .ok value ∧ Stops (next value) error :=
  except_bind_error

theorem stops_map {outcome : Except Failure α} {change : α → β} :
    Stops (change <$> outcome) error ↔ Stops outcome error :=
  except_map_error

theorem stops_bind_pure {outcome : Except Failure α} {change : α → β} :
    Stops (outcome >>= fun value => pure (change value)) error ↔ Stops outcome error := by
  simp only [stops_bind, stops_pure, and_false, exists_false, or_false]

theorem stops_liftMalformed {outcome : Except Malformed α} : ¬Stops (liftM outcome) error := by
  intro stops
  obtain ⟨_, _, same⟩ := except_mapError_error.mp stops
  cases same

theorem stops_ofProblem {problem : Problem} :
    Stops (.error (.ofProblem problem) : Except Failure α) error ↔ error = ⟨problem, none⟩ := by
  simp [Stops, Failure.ofProblem, eq_comm]

theorem stops_within {outcome : Except Failure α} {unit : String} :
    Stops (outcome.mapError (Failure.within unit)) error ↔
      ∃ own, Stops outcome own ∧ error = own.within unit := by
  rw [Stops, except_mapError_error]
  constructor
  · rintro ⟨failure, failed, changed⟩
    cases failure with
    | generation own => exact ⟨own, failed, (Failure.generation.inj changed).symm⟩
    | malformed fault => cases changed
  · rintro ⟨own, failed, rfl⟩
    exact ⟨.generation own, failed, rfl⟩

theorem stops_locate {outcome : Except Failure α} {place : String} :
    Stops (outcome.mapError (Failure.locate place)) error ↔
      ∃ own, Stops outcome own ∧ error = ⟨own.problem, some (own.location.getD place)⟩ := by
  rw [Stops, except_mapError_error]
  constructor
  · rintro ⟨failure, failed, changed⟩
    rcases failure with ⟨problem, _ | location⟩ | fault
    · exact ⟨⟨problem, none⟩, failed, (Failure.generation.inj changed).symm⟩
    · exact ⟨⟨problem, some location⟩, failed, (Failure.generation.inj changed).symm⟩
    · cases changed
  · rintro ⟨⟨problem, _ | location⟩, failed, rfl⟩
    · exact ⟨.generation ⟨problem, none⟩, failed, rfl⟩
    · exact ⟨.generation ⟨problem, some location⟩, failed, rfl⟩

namespace Traced

def Stops (computation : Traced α) (error : GenerationError) : Prop :=
  OpenApiClient.Stops computation.result error

theorem stops_pure {value : α} : ¬(pure value : Traced α).Stops error := OpenApiClient.stops_pure

theorem stops_bind {computation : Traced α} {next : α → Traced β} :
    (computation >>= next).Stops error ↔
      computation.Stops error ∨ ∃ value, computation.result = .ok value ∧ (next value).Stops error := by
  rw [Stops, result_bind, OpenApiClient.stops_bind]
  rfl

theorem stops_bind_pure {computation : Traced α} {change : α → β} :
    (computation >>= fun value => pure (change value)).Stops error ↔ computation.Stops error := by
  simp only [stops_bind, stops_pure, and_false, exists_false, or_false]

theorem stops_map {computation : Traced α} {change : α → β} :
    (change <$> computation).Stops error ↔ computation.Stops error := by
  rw [map_eq_pure_bind]
  exact stops_bind_pure

theorem stops_write_bind {severity : Severity} {source message : String} {next : Unit → Traced β} :
    (write severity source message >>= next).Stops error ↔ (next ()).Stops error := Iff.rfl

theorem stops_fail {problem : Problem} :
    (fail (.ofProblem problem) : Traced α).Stops error ↔ error = ⟨problem, none⟩ :=
  stops_ofProblem

theorem stops_lift {outcome : Except Failure α} :
    (liftM outcome : Traced α).Stops error ↔ OpenApiClient.Stops outcome error := Iff.rfl

theorem stops_liftMalformed {outcome : Except Malformed α} : ¬(liftM outcome : Traced α).Stops error :=
  OpenApiClient.stops_liftMalformed

/-- A malformed part does not stop what follows with a generation error. -/
theorem stops_liftMalformed_bind {outcome : Except Malformed α} {next : α → Traced β} :
    ((liftM outcome : Traced α) >>= next).Stops error ↔
      ∃ value, outcome = .ok value ∧ (next value).Stops error := by
  simp only [stops_bind, stops_liftMalformed, liftMalformed_ok, false_or]

theorem stops_within {computation : Traced α} {unit : String} :
    (mapFailure (Failure.within unit) computation).Stops error ↔
      ∃ own, computation.Stops own ∧ error = own.within unit :=
  OpenApiClient.stops_within

def GetsTo (step : α → Traced β) (items : List α) (item : α) : Prop :=
  ∃ before after, items = before ++ item :: after ∧ ∀ earlier ∈ before, Succeeds (step earlier).result

theorem GetsTo.mem {step : α → Traced β} {items : List α} {item : α} (gets : GetsTo step items item) :
    item ∈ items := by
  obtain ⟨before, after, rfl, -⟩ := gets
  exact List.mem_append_right _ List.mem_cons_self

theorem stops_mapM {step : α → Traced β} {items : List α} (stops : (items.mapM step).Stops error) :
    ∃ item, GetsTo step items item ∧ (step item).Stops error := by
  rw [Stops, OpenApiClient.Stops, result_mapM] at stops
  obtain ⟨before, item, after, split, passed, own⟩ := mapM_error stops
  exact ⟨item, ⟨before, after, split, passed⟩, own⟩

end Traced

namespace InScope

def Stops (computation : InScope α) (scope : NamingScope) (error : GenerationError) : Prop :=
  OpenApiClient.Stops (computation scope).result error

variable {scope : NamingScope}

theorem stops_pure {value : α} : ¬(pure value : InScope α).Stops scope error := OpenApiClient.stops_pure

theorem stops_bind {computation : InScope α} {next : α → InScope β} :
    (computation >>= next).Stops scope error ↔
      computation.Stops scope error ∨
        ∃ value between, Yields computation scope value between ∧ (next value).Stops between error := by
  unfold Stops
  rw [result_bind, OpenApiClient.stops_bind]
  simp [Yields]

/-- What is read, or changed in the scope, stops nothing. -/
theorem stops_read_bind {next : NamingScope → InScope β} :
    (read >>= next).Stops scope error ↔ (next scope).Stops scope error := Iff.rfl

theorem stops_update_bind {change : NamingScope → NamingScope} {next : Unit → InScope β} :
    (update change >>= next).Stops scope error ↔ (next ()).Stops (change scope) error := Iff.rfl

theorem stops_write_bind {severity : Severity} {source message : String} {next : Unit → InScope β} :
    ((liftM (Traced.write severity source message) : InScope Unit) >>= next).Stops scope error ↔
      (next ()).Stops scope error := Iff.rfl

theorem stops_bind_pure {computation : InScope α} {change : α → β} :
    (computation >>= fun value => pure (change value)).Stops scope error ↔ computation.Stops scope error := by
  simp [stops_bind, stops_pure]

theorem stops_liftTraced_bind {computation : Traced α} {next : α → InScope β} :
    ((liftM computation : InScope α) >>= next).Stops scope error ↔
      computation.Stops error ∨ ∃ value, computation.result = .ok value ∧ (next value).Stops scope error := by
  rw [stops_bind]
  simp only [yields_liftTraced, and_assoc, exists_and_left, exists_eq_left']
  rfl

theorem stops_lift_bind {outcome : Except Failure α} {next : α → InScope β} :
    ((liftM outcome : InScope α) >>= next).Stops scope error ↔
      OpenApiClient.Stops outcome error ∨ ∃ value, outcome = .ok value ∧ (next value).Stops scope error := by
  rw [stops_bind]
  simp only [yields_lift, and_assoc, exists_and_left, exists_eq_left']
  rfl

theorem stops_liftMalformed_bind {outcome : Except Malformed α} {next : α → InScope β} :
    ((liftM outcome : InScope α) >>= next).Stops scope error ↔
      ∃ value, outcome = .ok value ∧ (next value).Stops scope error := by
  rw [stops_bind]
  simp only [yields_liftMalformed, and_assoc, exists_and_left, exists_eq_left']
  exact or_iff_right OpenApiClient.stops_liftMalformed

theorem stops_within {computation : InScope α} {unit : String} :
    (mapFailure (Failure.within unit) computation).Stops scope error ↔
      ∃ own, computation.Stops scope own ∧ error = own.within unit :=
  OpenApiClient.stops_within

theorem stops_locate {computation : InScope α} {place : String} :
    (mapFailure (Failure.locate place) computation).Stops scope error ↔
      ∃ own, computation.Stops scope own ∧ error = ⟨own.problem, some (own.location.getD place)⟩ :=
  OpenApiClient.stops_locate

theorem stops_inside {computation : InScope α} {own : NamingScope} :
    (inside own computation).Stops error ↔ computation.Stops own error := Iff.rfl

end InScope

/-! Following references stops only with errors about a reference, and these have no place yet. -/

structure GenerationError.OfReference (error : GenerationError) : Prop where
  unlocated : error.location = none
  about : ∃ reference, error.problem = .unknownReference reference ∨ error.problem = .unsupportedReference reference

def StopsForReferences (outcome : Except Failure α) : Prop := ∀ error, Stops outcome error → error.OfReference

namespace StopsForReferences

theorem pure (value : α) : StopsForReferences (pure value) :=
  fun _ stops => absurd stops stops_pure

theorem liftMalformed (outcome : Except Malformed α) : StopsForReferences (liftM outcome) :=
  fun _ stops => absurd stops stops_liftMalformed

theorem unknown (reference : String) :
    StopsForReferences (.error (.ofProblem (.unknownReference reference)) : Except Failure α) := by
  intro error stops
  obtain rfl := stops_ofProblem.mp stops
  exact ⟨rfl, reference, .inl rfl⟩

theorem unsupported (reference : String) :
    StopsForReferences (.error (.ofProblem (.unsupportedReference reference)) : Except Failure α) := by
  intro error stops
  obtain rfl := stops_ofProblem.mp stops
  exact ⟨rfl, reference, .inr rfl⟩

theorem bind {first : Except Failure α} {next : α → Except Failure β} (begins : StopsForReferences first)
    (continues : ∀ value, StopsForReferences (next value)) : StopsForReferences (first >>= next) := by
  intro error stops
  rcases stops_bind.mp stops with own | ⟨value, -, later⟩
  · exact begins error own
  · exact continues value error later

theorem map {outcome : Except Failure α} (change : α → β) (own : StopsForReferences outcome) :
    StopsForReferences (change <$> outcome) :=
  fun error stops => own error (stops_map.mp stops)

theorem mapM {step : α → Except Failure β} {items : List α}
    (each : ∀ item ∈ items, StopsForReferences (step item)) : StopsForReferences (items.mapM step) := by
  intro error stops
  obtain ⟨before, item, after, rfl, -, own⟩ := mapM_error stops
  exact each item (by simp) error own

theorem filterAuxM {accepts : α → Except Failure Bool} (each : ∀ item, StopsForReferences (accepts item))
    (items before : List α) : StopsForReferences (items.filterAuxM accepts before) := by
  induction items generalizing before with
  | nil => exact .pure before
  | cons item rest ih => exact (each item).bind fun accepted => ih _

theorem filterM {accepts : α → Except Failure Bool} (each : ∀ item, StopsForReferences (accepts item))
    (items : List α) : StopsForReferences (items.filterM accepts) :=
  (filterAuxM each items []).bind fun kept => .pure kept.reverse

end StopsForReferences

theorem referencedName_stopsForReferences (reference : String) : StopsForReferences (referencedName reference) := by
  unfold referencedName
  split
  · exact .pure _
  · exact .unsupported reference

theorem Value.schemaName_stopsForReferences (reference : Value) : StopsForReferences reference.schemaName :=
  StopsForReferences.bind (.liftMalformed _) referencedName_stopsForReferences

theorem Schema.mentions_stopsForReferences (schema : Schema) : StopsForReferences schema.mentions := by
  induction schema using walkedParts_induction with
  | step schema ih =>
      rw [mentions_eq]
      split
      · exact schema.keywords.reference.schemaName_stopsForReferences.map _
      · exact (StopsForReferences.mapM ih).map _

theorem Schema.referencesOfAll_stopsForReferences (schemas : List (Option Schema)) :
    StopsForReferences (referencesOfAll schemas) := by
  rw [referencesOfAll, mentionsInAll_eq]
  exact ((StopsForReferences.mapM fun schema _ => schema.mentions_stopsForReferences).map _).map _

namespace Registry

variable (registry : Registry)

theorem get_stopsForReferences (name : String) : StopsForReferences (registry.get name) := by
  unfold get
  split
  · exact .pure _
  · exact .unknown _

theorem resolveValue_stopsForReferences (reference : Value) :
    StopsForReferences (registry.resolveValue reference) := by
  refine StopsForReferences.bind (.liftMalformed _) fun text => ?_
  refine (referencedName_stopsForReferences text).bind fun name => ?_
  split
  · exact .pure _
  · exact .unknown _

theorem imports_stopsForReferences (names : List String) (except : Option String) :
    StopsForReferences (registry.imports names except) :=
  .mapM fun name _ => registry.get_stopsForReferences name

theorem aliasTargets_stopsForReferences (name : String) : StopsForReferences (registry.aliasTargets name) := by
  refine (registry.get_stopsForReferences name).bind fun named => ?_
  refine (named.schema.mentions_stopsForReferences.map sortedNames).bind fun targets => ?_
  exact .filterM (fun target => (registry.get_stopsForReferences target).bind fun _ => .pure _) targets

theorem explore_stopsForReferences (fuel : Nat) (pending seen : List String) :
    StopsForReferences (registry.explore fuel pending seen) := by
  induction fuel generalizing pending seen with
  | zero => exact .pure seen
  | succ fuel ih =>
      cases pending with
      | nil => exact .pure seen
      | cons name pending => exact (registry.aliasTargets_stopsForReferences name).bind fun targets => ih _ _

theorem aliasCycle_stopsForReferences (name : String) : StopsForReferences (registry.aliasCycle name) := by
  have reach (name : String) : StopsForReferences (registry.reachable name) :=
    registry.explore_stopsForReferences _ _ _
  refine (reach name).bind fun reached => ?_
  exact (StopsForReferences.filterM (fun other => (reach other).bind fun _ => .pure _) reached).map _

theorem modelImports_stopsForReferences (named : NamedSchema) :
    StopsForReferences (registry.modelImports named) := by
  have imported (names cycle : List String) : StopsForReferences (do
      let imports ← registry.imports (names.filter fun name => !cycle.contains name) (some named.name)
      pure (imports, cycle)) :=
    (registry.imports_stopsForReferences _ _).bind fun imports => .pure _
  refine (named.schema.mentions_stopsForReferences.map sortedNames).bind fun names => ?_
  dsimp only
  split
  · exact imported names []
  · exact (registry.aliasCycle_stopsForReferences named.name).bind fun cycle => imported names cycle

end Registry
end OpenApiClient
