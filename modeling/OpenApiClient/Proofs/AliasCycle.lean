import OpenApiClient.Proofs.References
import Mathlib.Data.List.Perm.Subperm
import Mathlib.Logic.Relation

/-! Cycles of aliases. The search for the aliases that are reached from one of them ends in whatever order it takes
them, before its steps run out, and finds them all and no others. -/

namespace OpenApiClient.Registry

open Relation

variable {registry : Registry}

def AliasStep (registry : Registry) (source target : String) : Prop :=
  ∃ targets, registry.aliasTargets source = .ok targets ∧ target ∈ targets

theorem references_ok {schema : Schema} {names : List String} (found : schema.references = .ok names) :
    names.Nodup ∧ ∃ mentioned, schema.mentions = .ok mentioned ∧ ∀ name, name ∈ names ↔ name ∈ mentioned := by
  obtain ⟨mentioned, walked, rfl⟩ := except_map_ok.mp found
  exact ⟨sortedNames_nodup mentioned, mentioned, walked, fun _ => mem_sortedNames⟩

theorem aliasTargets_ok {name : String} {targets : List String}
    (found : registry.aliasTargets name = .ok targets) :
    targets.Nodup ∧ ∃ named names, registry.get name = .ok named ∧ named.schema.references = .ok names ∧
      ∀ target, target ∈ targets ↔
        target ∈ names ∧ ∃ entry, registry.get target = .ok entry ∧ entry.schema.isStruct = false := by
  obtain ⟨named, located, found⟩ := except_bind_ok.mp found
  obtain ⟨names, walked, found⟩ := except_bind_ok.mp found
  obtain ⟨-, sublist, members⟩ := filterM_ok found
  refine ⟨(references_ok walked).1.sublist sublist, named, names, located, walked, fun target => ?_⟩
  rw [members, except_bind_ok]
  simp [except_pure_ok]

theorem AliasStep.located {source target : String} (step : registry.AliasStep source target) :
    Succeeds (registry.get target) := by
  obtain ⟨targets, found, member⟩ := step
  obtain ⟨-, named, names, -, -, members⟩ := aliasTargets_ok found
  obtain ⟨-, entry, located, -⟩ := (members target).mp member
  exact ⟨entry, located⟩

theorem AliasStep.registered {source target : String} (step : registry.AliasStep source target) :
    target ∈ registry.entries.map NamedSchema.name := by
  obtain ⟨entry, located⟩ := step.located
  obtain ⟨among, rfl⟩ := get_ok located
  exact List.mem_map_of_mem among

/-! One turn of a search. -/

/-- The first pending name gives way to those of its targets that were not seen, in some order. -/
inductive Turn (registry : Registry) : List String × List String → List String × List String → Prop
  | expand {name : String} {pending seen targets fresh : List String} :
      registry.aliasTargets name = .ok targets →
      fresh.Perm (targets.filter fun target => !seen.contains target) →
      Turn registry (name :: pending, seen) (fresh.reverse ++ pending, seen ++ fresh)

theorem mem_fresh {targets seen fresh : List String}
    (order : fresh.Perm (targets.filter fun target => !seen.contains target)) (target : String) :
    target ∈ fresh ↔ target ∈ targets ∧ target ∉ seen := by
  simp [order.mem_iff, List.mem_filter]

def unseen (registry : Registry) (seen : List String) : List String :=
  (registry.entries.map NamedSchema.name).filter fun name => !seen.contains name

/-- A turn that sees a name leaves fewer unseen; any other leaves fewer pending. -/
theorem Turn.decreases {state next : List String × List String} (turn : registry.Turn state next) :
    Prod.Lex (· < ·) (· < ·) ((registry.unseen next.2).length, next.1.length)
      ((registry.unseen state.2).length, state.1.length) := by
  cases turn with
  | @expand name pending seen targets fresh found order =>
      cases fresh with
      | nil =>
          rw [List.append_nil]
          exact .right _ (Nat.lt_succ_self pending.length)
      | cons target others =>
          refine .left _ _ ?_
          have fresher := (mem_fresh order target).mp List.mem_cons_self
          have registered := AliasStep.registered ⟨targets, found, fresher.1⟩
          have remaining : registry.unseen (seen ++ target :: others) =
              (registry.unseen seen).filter fun other => !(target :: others).contains other := by
            rw [unseen, unseen, List.filter_filter]
            refine List.filter_congr fun other _ => ?_
            simp [Bool.and_comm]
          rw [remaining, List.length_filter_lt_length_iff_exists]
          exact ⟨target, by simp [unseen, registered, fresher.2], by simp⟩

/-- No search goes on for ever, whatever it begins with. -/
theorem turn_wellFounded (registry : Registry) : WellFounded fun next state => registry.Turn state next :=
  Subrelation.wf Turn.decreases
    (InvImage.wf (fun state : List String × List String => ((registry.unseen state.2).length, state.1.length))
      (WellFounded.prod_lex Nat.lt_wfRel.wf Nat.lt_wfRel.wf))

inductive Ends (registry : Registry) : List String × List String → Except Failure (List String) → Prop
  | finished (seen : List String) : Ends registry ([], seen) (.ok seen)
  | stopped {name : String} {failure : Failure} (pending seen : List String) :
      registry.aliasTargets name = .error failure → Ends registry (name :: pending, seen) (.error failure)

/-- The state of a search: what is `pending`, what was `seen`, and what is `finished`, that is, whose targets
are all among those seen. -/
structure Exploration (registry : Registry) (start : String) (pending seen finished : List String) :
    Prop where
  distinct : seen.Nodup
  reached : ∀ name ∈ seen, TransGen registry.AliasStep start name
  covered : ∀ name, name = start ∨ name ∈ seen → name ∈ pending ∨ name ∈ finished
  answered : ∀ name ∈ finished, Succeeds (registry.aliasTargets name)
  expanded : ∀ name ∈ finished, ∀ target, registry.AliasStep name target → target ∈ seen
  origin : ∀ name ∈ pending, name = start ∨ name ∈ seen
  counted : pending.length + finished.length = seen.length + 1

theorem Exploration.begin (registry : Registry) (start : String) :
    registry.Exploration start [start] [] [] where
  distinct := List.nodup_nil
  reached := by simp
  covered := by simp
  answered := by simp
  expanded := by simp
  origin := by simp
  counted := rfl

theorem Exploration.step {start name : String} {pending seen finished targets fresh : List String}
    (state : registry.Exploration start (name :: pending) seen finished)
    (found : registry.aliasTargets name = .ok targets)
    (order : fresh.Perm (targets.filter fun target => !seen.contains target)) :
    registry.Exploration start (fresh.reverse ++ pending) (seen ++ fresh) (name :: finished) := by
  have fresher := mem_fresh order
  constructor
  case distinct =>
    refine List.nodup_append.mpr ⟨state.distinct, order.nodup_iff.mpr ((aliasTargets_ok found).1.filter _), ?_⟩
    rintro old member _ added rfl
    exact ((fresher old).mp added).2 member
  case reached =>
    intro target member
    rcases List.mem_append.mp member with old | added
    · exact state.reached target old
    · have last : registry.AliasStep name target := ⟨targets, found, ((fresher target).mp added).1⟩
      rcases state.origin name List.mem_cons_self with rfl | seen
      · exact .single last
      · exact (state.reached name seen).tail last
  case covered =>
    intro target member
    rw [List.mem_append, ← or_assoc] at member
    rcases member with old | added
    · rcases state.covered target old with waiting | done
      · rcases List.mem_cons.mp waiting with rfl | waiting
        · exact .inr List.mem_cons_self
        · exact .inl (List.mem_append_right _ waiting)
      · exact .inr (List.mem_cons_of_mem _ done)
    · exact .inl (List.mem_append_left _ (List.mem_reverse.mpr added))
  case answered => exact List.forall_mem_cons.mpr ⟨⟨targets, found⟩, state.answered⟩
  case expanded =>
    intro source done target last
    rcases List.mem_cons.mp done with rfl | done
    · obtain ⟨others, again, member⟩ := last
      obtain rfl := Except.ok.inj (found.symm.trans again)
      by_cases old : target ∈ seen
      · exact List.mem_append_left _ old
      · exact List.mem_append_right _ ((fresher target).mpr ⟨member, old⟩)
    · exact List.mem_append_left _ (state.expanded source done target last)
  case origin =>
    intro target waiting
    rcases List.mem_append.mp waiting with added | waiting
    · exact .inr (List.mem_append_right _ (List.mem_reverse.mp added))
    · exact (state.origin target (List.mem_cons_of_mem _ waiting)).imp_right (List.mem_append_left _)
  case counted =>
    have counted := state.counted
    simp only [List.length_cons, List.length_append, List.length_reverse] at counted ⊢
    omega

theorem Exploration.run {start : String} {pending seen finished : List String} {last : List String × List String}
    (state : registry.Exploration start pending seen finished)
    (turns : ReflTransGen registry.Turn (pending, seen) last) :
    ∃ done, registry.Exploration start last.1 last.2 done := by
  induction turns with
  | refl => exact ⟨finished, state⟩
  | tail _ turn ih =>
      obtain ⟨done, between⟩ := ih
      cases turn with
      | expand found order => exact ⟨_, between.step found order⟩

/-- No more can be seen than there are entries. -/
theorem Exploration.seen_bound {start : String} {pending seen finished : List String}
    (state : registry.Exploration start pending seen finished) : seen.length ≤ registry.entries.length := by
  have within : seen ⊆ registry.entries.map NamedSchema.name := by
    intro name member
    obtain ⟨_, _, last⟩ := TransGen.tail'_iff.mp (state.reached name member)
    exact last.registered
  have bound := (List.subperm_of_subset state.distinct within).length_le
  rwa [List.length_map] at bound

/-- When nothing is pending, exactly what can be reached was seen. -/
theorem Exploration.complete {start : String} {seen finished : List String}
    (state : registry.Exploration start [] seen finished) (name : String) :
    name ∈ seen ↔ TransGen registry.AliasStep start name := by
  refine ⟨state.reached name, fun path => ?_⟩
  induction path with
  | single last =>
      have done := (state.covered start (.inl rfl)).resolve_left List.not_mem_nil
      exact state.expanded start done _ last
  | tail _ last ih =>
      have done := (state.covered _ (.inr ih)).resolve_left List.not_mem_nil
      exact state.expanded _ done _ last

/-- The steps suffice for a search to come to its end. -/
theorem explore_ends {start : String} {fuel : Nat} {pending seen finished : List String}
    (state : registry.Exploration start pending seen finished)
    (enough : fuel + finished.length = registry.entries.length + 1) :
    ∃ last, ReflTransGen registry.Turn (pending, seen) last ∧
      registry.Ends last (registry.explore fuel pending seen) := by
  induction fuel generalizing pending seen finished with
  | zero =>
      have bound := state.seen_bound
      have counted := state.counted
      have empty : pending = [] := List.length_eq_zero_iff.mp (by omega)
      subst empty
      exact ⟨_, .refl, .finished seen⟩
  | succ fuel ih =>
      cases pending with
      | nil => exact ⟨_, .refl, .finished seen⟩
      | cons first pending =>
          cases found : registry.aliasTargets first with
          | error failure =>
              have explored : registry.explore (fuel + 1) (first :: pending) seen = .error failure := by
                simp [explore, found, bind, Except.bind]
              rw [explored]
              exact ⟨_, .refl, .stopped pending seen found⟩
          | ok targets =>
              have explored : registry.explore (fuel + 1) (first :: pending) seen = registry.explore fuel
                  ((targets.filter fun target => !seen.contains target).reverse ++ pending)
                  (seen ++ targets.filter fun target => !seen.contains target) := by
                simp [explore, found, bind, Except.bind]
              obtain ⟨last, turns, ends⟩ :=
                ih (state.step found (.refl _)) (by simp only [List.length_cons]; omega)
              rw [explored]
              exact ⟨last, .head (.expand found (.refl _)) turns, ends⟩

theorem reachable_ends (registry : Registry) (start : String) :
    ∃ last, ReflTransGen registry.Turn ([start], []) last ∧ registry.Ends last (registry.reachable start) :=
  explore_ends (Exploration.begin registry start) (by simp)

theorem reachable_explored {start : String} {reached : List String}
    (found : registry.reachable start = .ok reached) :
    ∃ finished, registry.Exploration start [] reached finished := by
  obtain ⟨last, turns, ends⟩ := registry.reachable_ends start
  rw [found] at ends
  cases ends
  exact (Exploration.begin registry start).run turns

theorem reachable_ok {start : String} {reached : List String}
    (found : registry.reachable start = .ok reached) (name : String) :
    name ∈ reached ↔ TransGen registry.AliasStep start name := by
  obtain ⟨_, state⟩ := reachable_explored found
  exact state.complete name

theorem reachable_answered {start : String} {reached : List String}
    (found : registry.reachable start = .ok reached) {name : String} (among : name = start ∨ name ∈ reached) :
    Succeeds (registry.aliasTargets name) := by
  obtain ⟨_, state⟩ := reachable_explored found
  exact state.answered name ((state.covered name among).resolve_left List.not_mem_nil)

theorem aliasCycle_targets {name : String} {cycle : List String}
    (found : registry.aliasCycle name = .ok cycle) :
    ∃ targets, registry.aliasTargets name = .ok targets := by
  obtain ⟨_, explored, -⟩ := except_bind_ok.mp found
  obtain ⟨targets, first, -⟩ := except_bind_ok.mp explored
  exact ⟨targets, first⟩

/-- The cycle is found exactly when the searches from the name and from all that it leads to succeed. -/
theorem aliasCycle_succeeds_iff {name : String} : Succeeds (registry.aliasCycle name) ↔
    Succeeds (registry.reachable name) ∧
      ∀ other, TransGen registry.AliasStep name other → Succeeds (registry.reachable other) := by
  constructor
  · rintro ⟨cycle, found⟩
    obtain ⟨reached, explored, found⟩ := except_bind_ok.mp found
    obtain ⟨kept, filtered, -⟩ := except_map_ok.mp found
    refine ⟨⟨reached, explored⟩, fun other path => ?_⟩
    exact succeeds_bind_pure.mp ((filterM_ok filtered).1 other ((reachable_ok explored other).mpr path))
  · rintro ⟨⟨reached, explored⟩, others⟩
    have judged : ∀ other ∈ reached, Succeeds (do pure ((← registry.reachable other).contains name)) :=
      fun other member => succeeds_bind_pure.mpr (others other ((reachable_ok explored other).mp member))
    obtain ⟨kept, filtered⟩ := succeeds_filterM.mpr judged
    exact ⟨sortedNames kept, except_bind_ok.mpr ⟨reached, explored, except_map_ok.mpr ⟨kept, filtered, rfl⟩⟩⟩

theorem AliasStep.of_references {named target : NamedSchema} {cycle names : List String}
    (found : registry.aliasCycle named.name = .ok cycle) (located : registry.get named.name = .ok named)
    (walked : named.schema.references = .ok names) (among : target.name ∈ names)
    (resolved : registry.get target.name = .ok target) (notStruct : target.schema.isStruct = false) :
    registry.AliasStep named.name target.name := by
  obtain ⟨targets, first⟩ := aliasCycle_targets found
  obtain ⟨-, other, others, again, walkedAgain, members⟩ := aliasTargets_ok first
  obtain rfl := Except.ok.inj (located.symm.trans again)
  obtain rfl := Except.ok.inj (walked.symm.trans walkedAgain)
  exact ⟨targets, first, (members target.name).mpr ⟨among, target, resolved, notStruct⟩⟩

theorem aliasCycle_ok {name : String} {cycle : List String} (found : registry.aliasCycle name = .ok cycle)
    (other : String) :
    other ∈ cycle ↔ TransGen registry.AliasStep name other ∧ TransGen registry.AliasStep other name := by
  obtain ⟨reached, explored, found⟩ := except_bind_ok.mp found
  obtain ⟨kept, filtered, rfl⟩ := except_map_ok.mp found
  obtain ⟨judged, -, members⟩ := filterM_ok filtered
  rw [mem_sortedNames, members, reachable_ok explored, except_bind_ok]
  refine and_congr_right fun forth => ?_
  constructor
  · rintro ⟨back, exploredBack, found⟩
    exact (reachable_ok exploredBack name).mp (by simpa using except_pure_ok.mp found)
  · intro back
    obtain ⟨_, accepted⟩ := judged other ((reachable_ok explored other).mpr forth)
    obtain ⟨exploredBack, found, -⟩ := except_bind_ok.mp accepted
    refine ⟨exploredBack, found, except_pure_ok.mpr ?_⟩
    simpa using (reachable_ok found name).mpr back

end OpenApiClient.Registry
