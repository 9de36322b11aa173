import OpenApiClient.Declaration.NamingScope
import OpenApiClient.Value.Access
import Mathlib.Data.List.Forall2
import Mathlib.Data.List.Induction
import Mathlib.Data.List.Nodup
import Mathlib.Data.List.Perm.Basic

/-! When a computation succeeds, and with what. A computation that is put together succeeds exactly when its
parts do, one after the other. -/

namespace OpenApiClient

variable {α β ε : Type}

theorem except_bind_ok {first : Except ε α} {next : α → Except ε β} {result : β} :
    first >>= next = .ok result ↔ ∃ value, first = .ok value ∧ next value = .ok result := by
  cases first with
  | error failure => simp [bind, Except.bind]
  | ok value => simp [bind, Except.bind]

theorem except_bind_error {first : Except ε α} {next : α → Except ε β} {failure : ε} :
    first >>= next = .error failure ↔
      first = .error failure ∨ ∃ value, first = .ok value ∧ next value = .error failure := by
  cases first with
  | error own => simp [bind, Except.bind]
  | ok value => simp [bind, Except.bind]

theorem except_map_ok {outcome : Except ε α} {change : α → β} {result : β} :
    change <$> outcome = .ok result ↔ ∃ value, outcome = .ok value ∧ change value = result := by
  cases outcome with
  | error failure => simp [Functor.map, Except.map]
  | ok value => simp [Functor.map, Except.map]

theorem except_map_error {outcome : Except ε α} {change : α → β} {failure : ε} :
    change <$> outcome = .error failure ↔ outcome = .error failure := by
  cases outcome <;> simp [Functor.map, Except.map]

theorem except_pure_ok {value result : α} : (pure value : Except ε α) = .ok result ↔ value = result := by
  simp [pure, Except.pure]

theorem except_mapError_ok {δ : Type} {outcome : Except ε α} {change : ε → δ} {result : α} :
    outcome.mapError change = .ok result ↔ outcome = .ok result := by
  cases outcome <;> simp [Except.mapError]

theorem except_mapError_error {δ : Type} {outcome : Except ε α} {change : ε → δ} {failure : δ} :
    outcome.mapError change = .error failure ↔ ∃ own, outcome = .error own ∧ change own = failure := by
  cases outcome <;> simp [Except.mapError]

/-- A fault of the document is a failure of the generator; a success stays what it is. -/
theorem except_lift_ok {outcome : Except Malformed α} {result : α} :
    (liftM outcome : Except Failure α) = .ok result ↔ outcome = .ok result :=
  except_mapError_ok

theorem forall₂_of_mem_right {α β : Type} {related : α → β → Prop} {items : List α} {others : List β}
    (pairs : List.Forall₂ related items others) {other : β} (member : other ∈ others) :
    ∃ item ∈ items, related item other := by
  induction pairs with
  | nil => contradiction
  | cons first _ ih =>
      rcases List.mem_cons.mp member with rfl | member
      · exact ⟨_, List.mem_cons_self, first⟩
      · obtain ⟨item, among, later⟩ := ih member
        exact ⟨item, List.mem_cons_of_mem _ among, later⟩

theorem forall₂_of_mem_left {α β : Type} {related : α → β → Prop} {items : List α} {others : List β}
    (pairs : List.Forall₂ related items others) {item : α} (member : item ∈ items) :
    ∃ other ∈ others, related item other :=
  forall₂_of_mem_right pairs.flip member

theorem forall₂_imp_of_mem {α β : Type} {related follows : α → β → Prop} {items : List α} {others : List β}
    (pairs : List.Forall₂ related items others)
    (implies : ∀ item ∈ items, ∀ other, related item other → follows item other) :
    List.Forall₂ follows items others := by
  refine ((List.forall₂_and_left _ _).mpr ⟨fun _ member => member, pairs⟩).imp ?_
  exact fun item other both => implies item both.1 other both.2

theorem map_eq_of_forall₂ {α β γ : Type} {left : α → γ} {right : β → γ} {items : List α} {others : List β}
    (pairs : List.Forall₂ (fun item other => left item = right other) items others) :
    items.map left = others.map right := by
  rwa [← List.forall₂_eq_eq_eq, List.forall₂_map_left_iff, List.forall₂_map_right_iff]

theorem nodup_of_forall₂ {α β γ δ : Type} {related : α → β → Prop} {left : α → γ} {right : β → δ} {items : List α}
    {others : List β} (pairs : List.Forall₂ related items others) (distinct : (items.map left).Nodup)
    (apart : ∀ item item' other other', related item other → related item' other' → right other = right other' →
      left item = left item') : (others.map right).Nodup := by
  induction pairs with
  | nil => exact List.nodup_nil
  | cons first rest ih =>
      obtain ⟨new, later⟩ := List.nodup_cons.mp distinct
      refine List.nodup_cons.mpr ⟨fun present => new ?_, ih later⟩
      obtain ⟨other, member, same⟩ := List.mem_map.mp present
      obtain ⟨item, among, related⟩ := forall₂_of_mem_right rest member
      rw [apart _ _ _ _ first related same.symm]
      exact List.mem_map_of_mem among

theorem find?_of_key {key : α → β} {items : List α} (nodup : (items.map key).Nodup) {accepts : α → Bool}
    {item : α} (member : item ∈ items) (only : ∀ other, accepts other = true ↔ key other = key item) :
    items.find? accepts = some item := by
  obtain ⟨found, first⟩ : ∃ found, items.find? accepts = some found := by
    rw [← Option.isSome_iff_exists, List.find?_isSome]
    exact ⟨item, member, (only item).mpr rfl⟩
  have same := (only found).mp (List.find?_some first)
  rw [first, List.inj_on_of_nodup_map nodup (List.mem_of_find?_eq_some first) member same]

theorem find?_perm {name : α → String} {items others : List α} (perm : items.Perm others)
    (nodup : (items.map name).Nodup) (wanted : String) :
    items.find? (fun item => name item == wanted) = others.find? fun item => name item == wanted := by
  cases searched : items.find? fun item => name item == wanted with
  | some found =>
      have member := perm.mem_iff.mp (List.mem_of_find?_eq_some searched)
      have named : name found = wanted := by simpa using List.find?_some searched
      have otherNodup := (perm.map name).nodup_iff.mp nodup
      exact (find?_of_key otherNodup member (by simp [named])).symm
  | none =>
      symm
      rw [List.find?_eq_none] at searched ⊢
      exact fun other member => searched other (perm.mem_iff.mpr member)

/-- An item that was met before is no new one, and a new one comes last. -/
theorem eraseDups_known [BEq α] [LawfulBEq α] {items : List α} {item : α} (known : item ∈ items) :
    (items ++ [item]).eraseDups = items.eraseDups := by
  simp [List.eraseDups_append, List.removeAll, known]

theorem eraseDups_new [BEq α] [LawfulBEq α] {items : List α} {item : α} (new : item ∉ items) :
    (items ++ [item]).eraseDups = items.eraseDups ++ [item] := by
  simp [List.eraseDups_append, List.removeAll, new, List.eraseDups_cons]

theorem eraseDups_nodup [BEq α] [LawfulBEq α] (items : List α) : items.eraseDups.Nodup := by
  induction items using List.reverseRecOn with
  | nil => exact List.nodup_nil
  | append_singleton items item ih =>
      by_cases known : item ∈ items
      · rwa [eraseDups_known known]
      · rw [eraseDups_new known]
        exact ih.append (List.nodup_singleton item) (by simpa using known)

theorem mapM_ok_iff (step : α → Except ε β) (items : List α) (results : List β) :
    items.mapM step = .ok results ↔
      List.Forall₂ (fun item result => step item = .ok result) items results := by
  induction items generalizing results with
  | nil => cases results <;> simp [pure, Except.pure]
  | cons item rest ih =>
      simp only [List.mapM_cons, except_bind_ok, except_pure_ok, ih]
      constructor
      · rintro ⟨first, done, others, checked, rfl⟩
        exact .cons done checked
      · rintro (_ | ⟨done, checked⟩)
        exact ⟨_, done, _, checked, rfl⟩

theorem mapM_perm {step : α → Except ε β} {items others : List α} {results : List β}
    (perm : items.Perm others) (done : items.mapM step = .ok results) :
    ∃ otherResults, others.mapM step = .ok otherResults ∧ results.Perm otherResults := by
  obtain ⟨otherResults, pairs, same⟩ := List.perm_comp_forall₂ perm.symm ((mapM_ok_iff _ _ _).mp done)
  exact ⟨otherResults, (mapM_ok_iff _ _ _).mpr pairs, same.symm⟩

def Succeeds (outcome : Except ε α) : Prop := ∃ value, outcome = .ok value

theorem succeeds_pure (value : α) : Succeeds (pure value : Except ε α) := ⟨value, rfl⟩

/-- Where what follows succeeds or not whatever the value, both parts succeed each by itself. -/
theorem succeeds_bind {first : Except ε α} {next : α → Except ε β} {continues : Prop}
    (same : ∀ value, Succeeds (next value) ↔ continues) :
    Succeeds (first >>= next) ↔ Succeeds first ∧ continues := by
  constructor
  · rintro ⟨result, done⟩
    obtain ⟨value, began, finished⟩ := except_bind_ok.mp done
    exact ⟨⟨value, began⟩, (same value).mp ⟨result, finished⟩⟩
  · rintro ⟨⟨value, began⟩, continues⟩
    obtain ⟨result, finished⟩ := (same value).mpr continues
    exact ⟨result, except_bind_ok.mpr ⟨value, began, finished⟩⟩

theorem succeeds_bind_pure {first : Except ε α} {change : α → β} :
    Succeeds (first >>= fun value => pure (change value)) ↔ Succeeds first := by
  rw [succeeds_bind (fun value => iff_true_intro (succeeds_pure (change value))), and_true]

theorem succeeds_map {outcome : Except ε α} {change : α → β} :
    Succeeds (change <$> outcome) ↔ Succeeds outcome := by
  simp [Succeeds, except_map_ok]

theorem succeeds_mapM {step : α → Except ε β} {items : List α} :
    Succeeds (items.mapM step) ↔ ∀ item ∈ items, Succeeds (step item) := by
  constructor
  · rintro ⟨results, done⟩ item member
    obtain ⟨result, -, checked⟩ := forall₂_of_mem_left ((mapM_ok_iff _ _ _).mp done) member
    exact ⟨result, checked⟩
  · intro each
    induction items with
    | nil => exact ⟨[], rfl⟩
    | cons item rest ih =>
        obtain ⟨⟨result, first⟩, others⟩ := List.forall_mem_cons.mp each
        obtain ⟨results, done⟩ := ih others
        exact ⟨result :: results, (mapM_ok_iff _ _ _).mpr (.cons first ((mapM_ok_iff _ _ _).mp done))⟩

theorem mapM_error {step : α → Except ε β} {items : List α} {failure : ε}
    (failed : items.mapM step = .error failure) :
    ∃ before item after, items = before ++ item :: after ∧ (∀ earlier ∈ before, Succeeds (step earlier)) ∧
      step item = .error failure := by
  induction items with
  | nil => cases failed
  | cons item rest ih =>
      rw [List.mapM_cons] at failed
      rcases except_bind_error.mp failed with first | ⟨value, done, failed⟩
      · exact ⟨[], item, rest, rfl, by simp, first⟩
      · rcases except_bind_error.mp failed with later | ⟨_, -, finished⟩
        · obtain ⟨before, other, after, rfl, passed, own⟩ := ih later
          exact ⟨item :: before, other, after, rfl, List.forall_mem_cons.mpr ⟨⟨value, done⟩, passed⟩, own⟩
        · cases finished

theorem filterAuxM_ok {accepts : α → Except ε Bool} {items before kept : List α}
    (filtered : items.filterAuxM accepts before = .ok kept) :
    (∀ item ∈ items, ∃ accepted, accepts item = .ok accepted) ∧
      ∃ own : List α, kept = own.reverse ++ before ∧ own.Sublist items ∧
        ∀ item, item ∈ own ↔ item ∈ items ∧ accepts item = .ok true := by
  induction items generalizing before with
  | nil => exact ⟨by simp, [], (except_pure_ok.mp filtered).symm, List.Sublist.slnil, by simp⟩
  | cons item rest ih =>
      obtain ⟨accepted, judged, filtered⟩ := except_bind_ok.mp filtered
      obtain ⟨allJudged, own, rfl, sublist, members⟩ := ih filtered
      refine ⟨List.forall_mem_cons.mpr ⟨⟨accepted, judged⟩, allJudged⟩, ?_⟩
      cases accepted with
      | false =>
          refine ⟨own, rfl, sublist.cons item, fun other => ?_⟩
          rw [members other, List.mem_cons]
          constructor
          · exact fun kept => ⟨.inr kept.1, kept.2⟩
          · rintro ⟨rfl | later, judgedTrue⟩
            · simp [judged] at judgedTrue
            · exact ⟨later, judgedTrue⟩
      | true =>
          refine ⟨item :: own, by simp, sublist.cons_cons item, fun other => ?_⟩
          rw [List.mem_cons, members other, List.mem_cons]
          constructor
          · rintro (rfl | kept)
            · exact ⟨.inl rfl, judged⟩
            · exact ⟨.inr kept.1, kept.2⟩
          · rintro ⟨rfl | later, judgedTrue⟩
            · exact .inl rfl
            · exact .inr ⟨later, judgedTrue⟩

/-- A filter that succeeds has judged every item, and keeps those it accepts in order. -/
theorem filterM_ok {accepts : α → Except ε Bool} {items kept : List α}
    (filtered : items.filterM accepts = .ok kept) :
    (∀ item ∈ items, ∃ accepted, accepts item = .ok accepted) ∧ kept.Sublist items ∧
      ∀ item, item ∈ kept ↔ item ∈ items ∧ accepts item = .ok true := by
  obtain ⟨reversed, judged, same⟩ := except_bind_ok.mp filtered
  obtain ⟨allJudged, own, rfl, sublist, members⟩ := filterAuxM_ok judged
  simp only [List.append_nil, List.reverse_reverse, except_pure_ok] at same
  subst kept
  exact ⟨allJudged, sublist, members⟩

theorem succeeds_filterAuxM {accepts : α → Except ε Bool} {items : List α}
    (judged : ∀ item ∈ items, Succeeds (accepts item)) (before : List α) :
    Succeeds (items.filterAuxM accepts before) := by
  induction items generalizing before with
  | nil => exact succeeds_pure before
  | cons item rest ih =>
      obtain ⟨⟨accepted, first⟩, others⟩ := List.forall_mem_cons.mp judged
      obtain ⟨kept, filtered⟩ := ih others (cond accepted (item :: before) before)
      exact ⟨kept, except_bind_ok.mpr ⟨accepted, first, filtered⟩⟩

theorem succeeds_filterM {accepts : α → Except ε Bool} {items : List α} :
    Succeeds (items.filterM accepts) ↔ ∀ item ∈ items, Succeeds (accepts item) := by
  constructor
  · rintro ⟨kept, filtered⟩
    exact (filterM_ok filtered).1
  · intro judged
    obtain ⟨reversed, filtered⟩ := succeeds_filterAuxM judged []
    exact ⟨reversed.reverse, except_bind_ok.mpr ⟨reversed, filtered, rfl⟩⟩

theorem filterMapLoopM_ok {step : α → Except ε (Option β)} {items : List α} {before results : List β}
    (found : List.filterMapM.loop step items before = .ok results) :
    ∃ outcomes, List.Forall₂ (fun item outcome => step item = .ok outcome) items outcomes ∧
      results = before.reverse ++ outcomes.filterMap id := by
  induction items generalizing before with
  | nil =>
      obtain rfl := except_pure_ok.mp found
      exact ⟨[], .nil, by simp⟩
  | cons item rest ih =>
      obtain ⟨outcome, first, found⟩ := except_bind_ok.mp found
      cases outcome with
      | none =>
          obtain ⟨outcomes, later, rfl⟩ := ih found
          exact ⟨none :: outcomes, .cons first later, by simp⟩
      | some result =>
          obtain ⟨outcomes, later, rfl⟩ := ih found
          exact ⟨some result :: outcomes, .cons first later, by simp⟩

/-- A step that leaves out what is not chosen has one result for each of the others, in their order. -/
theorem filterMapM_ok {step : α → Except ε (Option β)} {chosen : α → Bool} {related : α → β → Prop} {items : List α}
    {results : List β} (found : items.filterMapM step = .ok results)
    (chooses : ∀ item outcome, step item = .ok outcome →
      if chosen item then ∃ result, outcome = some result ∧ related item result else outcome = none) :
    List.Forall₂ related (items.filter chosen) results := by
  obtain ⟨outcomes, each, rfl⟩ := filterMapLoopM_ok found
  rw [List.reverse_nil, List.nil_append]
  clear found
  induction each with
  | nil => exact .nil
  | @cons item outcome rest outcomes first _ ih =>
      have own := chooses item outcome first
      by_cases accepted : chosen item = true
      · rw [if_pos accepted] at own
        obtain ⟨result, rfl, holds⟩ := own
        rw [List.filter_cons_of_pos accepted]
        exact .cons holds ih
      · rw [if_neg accepted] at own
        subst own
        rw [List.filter_cons_of_neg accepted]
        exact ih

namespace Value

theorem isNull_iff {value : Value} : value.isNull = true ↔ value = .null := by
  cases value <;> simp [isNull]

theorem same_string {value : Value} {text : String} :
    value.same (.string text) = true ↔ value = .string text := by
  cases value <;> simp [same, integral?, Option.isSome_iff_ne_none]

theorem string_same {value : Value} {text : String} :
    (Value.string text).same value = true ↔ value = .string text := by
  cases value <;> simp [same]
  exact eq_comm

theorem asText_ok {value : Value} {text : String} : value.asText = .ok text ↔ value = .string text := by
  cases value <;> simp [asText]

theorem asKey_ok {value key : Value} : value.asKey = .ok key ↔ value.isKey = true ∧ value = key := by
  unfold asKey
  split <;> simp_all

theorem asPattern_ok {value : Value} {text : String} : value.asPattern = .ok text ↔ value = .string text := by
  cases value <;> simp [asPattern]

end Value

namespace Traced

theorem bind_ok {computation : Traced α} {next : α → Traced β} {result : β} :
    (computation >>= next).result = .ok result ↔
      ∃ value, computation.result = .ok value ∧ (next value).result = .ok result := by
  rw [result_bind, except_bind_ok]

theorem pure_ok {value result : α} : (pure value : Traced α).result = .ok result ↔ value = result := by
  simp [result_pure]

theorem map_ok {computation : Traced α} {change : α → β} {result : β} :
    (change <$> computation).result = .ok result ↔
      ∃ value, computation.result = .ok value ∧ change value = result := by
  rw [map_eq_pure_bind, bind_ok]
  simp only [pure_ok]

theorem mapFailure_ok {computation : Traced α} {change : Failure → Failure} {result : α} :
    (mapFailure change computation).result = .ok result ↔ computation.result = .ok result :=
  except_mapError_ok

theorem lift_ok {outcome : Except Failure α} {result : α} :
    (liftM outcome : Traced α).result = .ok result ↔ outcome = .ok result :=
  Iff.rfl

theorem liftMalformed_ok {outcome : Except Malformed α} {result : α} :
    (liftM outcome : Traced α).result = .ok result ↔ outcome = .ok result :=
  except_mapError_ok

theorem result_mapM (step : α → Traced β) (items : List α) :
    (items.mapM step).result = items.mapM fun item => (step item).result := by
  induction items with
  | nil => rfl
  | cons item rest ih =>
      simp only [List.mapM_cons, result_bind, ih]
      rfl

theorem mapM_ok_iff (step : α → Traced β) (items : List α) (results : List β) :
    (items.mapM step).result = .ok results ↔
      List.Forall₂ (fun item result => (step item).result = .ok result) items results := by
  rw [result_mapM, OpenApiClient.mapM_ok_iff]

end Traced

namespace InScope

/-- The computation succeeds in a scope, with a value, and leaves a scope behind. -/
def Yields (computation : InScope α) (scope : NamingScope) (value : α) (after : NamingScope) : Prop :=
  (computation scope).result = .ok value ∧ (computation scope).scope = after

variable {scope after : NamingScope}

theorem yields_pure {value result : α} :
    Yields (pure value) scope result after ↔ value = result ∧ scope = after := by
  simp [Yields, pure]

theorem yields_pure_pair {value result : α} {other otherResult : β} :
    Yields (pure (value, other)) scope (result, otherResult) after ↔
      value = result ∧ other = otherResult ∧ scope = after := by
  rw [yields_pure, Prod.mk.injEq, and_assoc]

theorem result_bind {computation : InScope α} {next : α → InScope β} :
    ((computation >>= next) scope).result =
      (computation scope).result >>= fun value => (next value (computation scope).scope).result := by
  change (InScope.bind computation next scope).result = _
  unfold InScope.bind
  cases computed : (computation scope).result with
  | error failure => simp [computed, bind, Except.bind]
  | ok value => simp [computed, bind, Except.bind]

theorem result_bind_pure {computation : InScope α} {change : α → β} :
    ((computation >>= fun value => pure (change value)) scope).result =
      change <$> (computation scope).result := by
  rw [result_bind]
  cases (computation scope).result <;> rfl

theorem yields_bind {computation : InScope α} {next : α → InScope β} {result : β} :
    Yields (computation >>= next) scope result after ↔
      ∃ value between, computation.Yields scope value between ∧ (next value).Yields between result after := by
  show (InScope.bind computation next scope).result = _ ∧ (InScope.bind computation next scope).scope = _ ↔ _
  unfold InScope.bind Yields
  cases computed : (computation scope).result with
  | error failure => simp [computed]
  | ok value => simp [computed]

theorem yields_read {result : NamingScope} :
    Yields read scope result after ↔ scope = result ∧ scope = after := by
  simp [Yields, read]

theorem yields_update {change : NamingScope → NamingScope} {result : Unit} :
    Yields (update change) scope result after ↔ change scope = after := by
  simp [Yields, update]

theorem yields_liftTraced {computation : Traced α} {result : α} :
    Yields (liftM computation) scope result after ↔ computation.result = .ok result ∧ scope = after :=
  Iff.rfl

theorem yields_lift {outcome : Except Failure α} {result : α} :
    Yields (liftM outcome) scope result after ↔ outcome = .ok result ∧ scope = after :=
  Iff.rfl

theorem yields_liftMalformed {outcome : Except Malformed α} {result : α} :
    Yields (liftM outcome) scope result after ↔ outcome = .ok result ∧ scope = after :=
  and_congr_left' except_mapError_ok

theorem yields_mapFailure {computation : InScope α} {change : Failure → Failure} {result : α} :
    Yields (mapFailure change computation) scope result after ↔ computation.Yields scope result after :=
  and_congr_left' except_mapError_ok

theorem inside_ok {computation : InScope α} {own : NamingScope} {result : α} :
    (inside own computation).result = .ok result ↔ ∃ after, computation.Yields own result after := by
  simp [inside, Yields]

theorem Yields.unique {computation : InScope α} {result other : α} {otherAfter : NamingScope}
    (yields : computation.Yields scope result after) (again : computation.Yields scope other otherAfter) :
    result = other ∧ after = otherAfter := by
  have same : Except.ok (ε := Failure) result = .ok other := yields.1.symm.trans again.1
  exact ⟨Except.ok.inj same, yields.2.symm.trans again.2⟩

end InScope
end OpenApiClient
