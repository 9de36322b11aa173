import OpenApiClient.Document.Pointer
import OpenApiClient.Proofs.Records

/-! Chains of references. The chain goes on from an object with a reference to what the reference leads to. All but
the first reference of a chain stand in the document, so that a chain without repetition is hardly longer than the
document has references, and following it comes to an end. -/

namespace OpenApiClient.Value

def Refers (value : Value) (reference : String) : Prop :=
  ∃ members, value = .object members ∧ lookup "$ref" members = some (.string reference)

inductive Leads (document : Value) : Value → List String → Value → Prop
  | here (value : Value) : Leads document value [] value
  | link {value next final : Value} {reference : String} {references : List String} :
      value.Refers reference → document.resolve reference = .ok next → Leads document next references final →
      Leads document value (reference :: references) final

variable {document start value next final other : Value} {reference : String} {references others : List String}

theorem Refers.unique {another : String} (refers : value.Refers reference) (again : value.Refers another) :
    reference = another := by
  obtain ⟨members, rfl, found⟩ := refers
  obtain ⟨_, same, present⟩ := again
  cases same
  simpa [found] using present

theorem Refers.has (refers : value.Refers reference) : value.has "$ref" = .ok true := by
  obtain ⟨members, rfl, found⟩ := refers
  simp [Value.has, found]

/-! Chains are put together and taken apart. -/

theorem leads_append :
    Leads document start (references ++ others) final ↔
      ∃ between, Leads document start references between ∧ Leads document between others final := by
  constructor
  · intro leads
    induction references generalizing start with
    | nil => exact ⟨start, .here start, leads⟩
    | cons reference references ih =>
        rw [List.cons_append] at leads
        cases leads with
        | link refers resolved later =>
            obtain ⟨between, first, second⟩ := ih later
            exact ⟨between, .link refers resolved first, second⟩
  · rintro ⟨between, first, second⟩
    induction first with
    | here value => exact second
    | link refers resolved _ ih => exact .link refers resolved (ih second)

theorem Leads.snoc (leads : Leads document start references value) (refers : value.Refers reference)
    (resolved : document.resolve reference = .ok next) :
    Leads document start (references ++ [reference]) next :=
  leads_append.mpr ⟨value, leads, .link refers resolved (.here next)⟩

theorem Leads.resolves (leads : Leads document start references final) (member : reference ∈ references) :
    ∃ found, document.resolve reference = .ok found := by
  induction leads with
  | here value => contradiction
  | link _ resolved _ ih =>
      rcases List.mem_cons.mp member with rfl | later
      · exact ⟨_, resolved⟩
      · exact ih later

/-- Where a reference comes up twice, what lies between can be left out. -/
theorem Leads.simple (leads : Leads document start references final) :
    ∃ shorter, shorter.Nodup ∧ Leads document start shorter final := by
  induction leads with
  | here value => exact ⟨[], List.nodup_nil, .here value⟩
  | @link value next final reference _ refers resolved _ ih =>
      obtain ⟨shorter, nodup, later⟩ := ih
      by_cases again : reference ∈ shorter
      · obtain ⟨before, after, rfl⟩ := List.append_of_mem again
        obtain ⟨between, -, rest⟩ := leads_append.mp later
        cases rest with
        | link _ sameTarget rest =>
            cases resolved.symm.trans sameTarget
            exact ⟨reference :: after, nodup.sublist (List.sublist_append_right _ _), .link refers resolved rest⟩
      · exact ⟨reference :: shorter, List.nodup_cons.mpr ⟨again, nodup⟩, .link refers resolved later⟩

/-- If a chain has a repetition, there is a first one. -/
theorem Leads.repeats (leads : Leads document start references final) (refers : final.Refers reference)
    {before : List String} (nodup : before.Nodup) (twice : ¬(before ++ references ++ [reference]).Nodup) :
    ∃ shorter place again, Leads document start shorter place ∧ (before ++ shorter).Nodup ∧
      place.Refers again ∧ again ∈ before ++ shorter := by
  induction leads generalizing before with
  | here value =>
      have known : reference ∈ before := by
        by_contra new
        apply twice
        rw [List.append_nil]
        exact List.nodup_append_comm.mp (List.nodup_cons.mpr ⟨new, nodup⟩)
      exact ⟨[], value, reference, .here value, by simpa using nodup, refers, by simpa using known⟩
  | @link value next final first references own resolved _ ih =>
      by_cases known : first ∈ before
      · exact ⟨[], value, first, .here value, by simpa using nodup, own, by simpa using known⟩
      · have extended : (before ++ [first]).Nodup :=
          List.nodup_append_comm.mp (List.nodup_cons.mpr ⟨known, nodup⟩)
        obtain ⟨shorter, place, again, later, apart, refersAgain, member⟩ :=
          ih refers extended (by simpa using twice)
        exact ⟨first :: shorter, place, again, .link own resolved later, by simpa using apart, refersAgain,
          by simpa using member⟩

def Stops (document : Value) (references : List String) (final : Value) : Prop :=
  ∀ reference next, final.Refers reference → document.resolve reference = .ok next → reference ∈ references

theorem Leads.unique (before : List String) (leads : Leads document start references final)
    (again : Leads document start others other) (nodup : (before ++ references).Nodup)
    (otherNodup : (before ++ others).Nodup) (stops : Stops document (before ++ references) final)
    (otherStops : Stops document (before ++ others) other) : references = others ∧ final = other := by
  induction leads generalizing before others with
  | here value =>
      cases again with
      | here => exact ⟨rfl, rfl⟩
      | link refers resolved _ =>
          have known := stops _ _ refers resolved
          rw [List.append_nil] at known
          exact absurd rfl ((List.nodup_append.mp otherNodup).2.2 _ known _ List.mem_cons_self)
  | @link value next final reference references refers resolved _ ih =>
      cases again with
      | here =>
          have known := otherStops _ _ refers resolved
          rw [List.append_nil] at known
          exact absurd rfl ((List.nodup_append.mp nodup).2.2 _ known _ List.mem_cons_self)
      | link own sameTarget later =>
          cases refers.unique own
          cases resolved.symm.trans sameTarget
          obtain ⟨rfl, rfl⟩ := ih (before ++ [reference]) later (by simpa using nodup) (by simpa using otherNodup)
            (by simpa using stops) (by simpa using otherStops)
          exact ⟨rfl, rfl⟩

/-! The references that stand in a document. -/

mutual

def referenceTexts : Value → List String
  | .array items | .tuple items => itemReferenceTexts items
  | .object members => memberReferenceTexts members
  | _ => []

def itemReferenceTexts : List Value → List String
  | [] => []
  | item :: rest => item.referenceTexts ++ itemReferenceTexts rest

def memberReferenceTexts : List (Value × Value) → List String
  | [] => []
  | (key, value) :: rest =>
      (if key.same (.string "$ref") then value.text?.toList else []) ++ value.referenceTexts ++
        memberReferenceTexts rest

end

mutual

theorem length_referenceTexts : ∀ value : Value, value.referenceTexts.length ≤ value.referenceCount
  | .array items | .tuple items => by
      rw [referenceTexts, referenceCount]
      exact length_itemReferenceTexts items
  | .object members => by
      rw [referenceTexts, referenceCount]
      exact length_memberReferenceTexts members
  | .null | .bool _ | .int _ | .float _ | .string _ | .bytes _ | .date _ _ _ | .record _ _ => by
      simp [referenceTexts]

theorem length_itemReferenceTexts : ∀ items : List Value,
    (itemReferenceTexts items).length ≤ referenceCountItems items
  | [] => by simp [itemReferenceTexts]
  | item :: rest => by
      have own := length_referenceTexts item
      have later := length_itemReferenceTexts rest
      rw [itemReferenceTexts, referenceCountItems, List.length_append]
      omega

theorem length_memberReferenceTexts : ∀ members : List (Value × Value),
    (memberReferenceTexts members).length ≤ referenceCountMembers members
  | [] => by simp [memberReferenceTexts]
  | (key, value) :: rest => by
      have own := length_referenceTexts value
      have later := length_memberReferenceTexts rest
      have single : value.text?.toList.length ≤ 1 := by cases value.text? <;> simp
      rw [memberReferenceTexts, referenceCountMembers, List.length_append, List.length_append]
      split
      · omega
      · simp only [List.length_nil]
        omega

end

theorem lookup_referenceTexts {members : List (Value × Value)} {key : String}
    (present : lookup key members = some value) : value.referenceTexts ⊆ memberReferenceTexts members := by
  induction members with
  | nil => cases present
  | cons member rest ih =>
      intro reference among
      rw [lookup, Entries.get?] at present
      rw [memberReferenceTexts, List.mem_append, List.mem_append]
      split at present
      · cases present
        exact .inl (.inr among)
      · exact .inr (ih present among)

theorem lookup_reference {members : List (Value × Value)}
    (present : lookup "$ref" members = some (.string reference)) : reference ∈ memberReferenceTexts members := by
  induction members with
  | nil => cases present
  | cons member rest ih =>
      obtain ⟨key, value⟩ := member
      rw [lookup, Entries.get?] at present
      rw [memberReferenceTexts, List.mem_append, List.mem_append]
      split at present
      · rename_i named
        obtain rfl := Option.some.inj present
        exact .inl (.inl (by simp [named, text?]))
      · exact .inr (ih present)

theorem follow?_referenceTexts {keys : List String} (followed : document.follow? keys = some value) :
    value.referenceTexts ⊆ document.referenceTexts := by
  induction keys generalizing document with
  | nil =>
      cases followed
      exact List.Subset.refl _
  | cons key keys ih =>
      cases document with
      | object members =>
          obtain ⟨inner, present, later⟩ := Option.bind_eq_some_iff.mp followed
          rw [referenceTexts]
          exact List.Subset.trans (ih later) (lookup_referenceTexts present)
      | _ => cases followed

theorem resolve_referenceTexts (resolved : document.resolve reference = .ok value) :
    value.referenceTexts ⊆ document.referenceTexts := by
  rw [resolve] at resolved
  split at resolved
  · cases resolved
  · split at resolved
    · cases resolved
      exact follow?_referenceTexts ‹_›
    · cases resolved

theorem Leads.referenceTexts (leads : Leads document start references final)
    (within : start.referenceTexts ⊆ document.referenceTexts) : references ⊆ document.referenceTexts := by
  induction leads with
  | here value => exact List.nil_subset _
  | link refers resolved _ ih =>
      obtain ⟨members, rfl, present⟩ := refers
      refine List.cons_subset.mpr ⟨within ?_, ih (resolve_referenceTexts resolved)⟩
      rw [Value.referenceTexts]
      exact lookup_reference present

/-- The value that the chain starts from need not stand in the document, and adds one reference at most. -/
theorem Leads.bounded (leads : Leads document start references final) (nodup : references.Nodup) :
    references.length ≤ document.referenceCount + 1 := by
  cases leads with
  | here => simp
  | @link _ _ _ reference rest _ resolved later =>
      have inside := later.referenceTexts (resolve_referenceTexts resolved)
      have short := (List.nodup_cons.mp nodup).2.length_le_of_subset inside
      have counted := length_referenceTexts document
      rw [List.length_cons]
      omega

/-! Following a chain. -/

/-- How following a chain ends. A value that is no object, or whose reference is no text, is unsuited unless it has
nothing in it that looks like a reference. -/
inductive Ends (document : Value) (references : List String) (final : Value) : Except Failure Value → Prop
  | plain : final.has "$ref" = .ok false → Ends document references final (.ok final)
  | again {reference : String} : final.Refers reference → reference ∈ references →
      Ends document references final (.error (.ofProblem (.circularReference reference)))
  | unresolved {reference : String} {failure : Failure} : final.Refers reference → reference ∉ references →
      document.resolve reference = .error failure → Ends document references final (.error failure)
  | unsuited {fault : Malformed} : (∀ reference, ¬final.Refers reference) → final.has "$ref" ≠ .ok false →
      Ends document references final (.error (.malformed fault))

theorem dereferenceFrom_refers (refers : value.Refers reference) (fuel : Nat) (seen : List String) :
    dereferenceFrom document (fuel + 1) seen value =
      if reference ∈ seen then .error (.ofProblem (.circularReference reference))
      else document.resolve reference >>= dereferenceFrom document fuel (reference :: seen) := by
  have has := refers.has
  obtain ⟨members, rfl, found⟩ := refers
  rw [dereferenceFrom, has]
  simp only [found, Option.getD_some, ← List.contains_iff_mem]
  rfl

theorem dereferenceFrom_plain (plain : value.has "$ref" = .ok false) (fuel : Nat) (seen : List String) :
    dereferenceFrom document (fuel + 1) seen value = .ok value := by
  rw [dereferenceFrom, plain]
  rfl

theorem dereferenceFrom_unsuited (document : Value) (without : ∀ reference, ¬value.Refers reference)
    (looks : value.has "$ref" ≠ .ok false) (fuel : Nat) (seen : List String) :
    ∃ fault, dereferenceFrom document (fuel + 1) seen value = .error (.malformed fault) := by
  rw [dereferenceFrom]
  cases has : value.has "$ref" with
  | error fault => exact ⟨fault, rfl⟩
  | ok found =>
      obtain rfl : found = true := by
        by_contra absent
        exact looks (by simpa [absent] using has)
      cases value with
      | object members =>
          cases present : lookup "$ref" members with
          | none => simp [Value.has, present] at has
          | some found =>
              simp only [present, Option.getD_some]
              cases keyed : found.asKey with
              | error fault => exact ⟨fault, by rw [pure_bind, keyed]; rfl⟩
              | ok key =>
                  cases texted : key.asText with
                  | error fault =>
                      refine ⟨fault, ?_⟩
                      rw [pure_bind, keyed]
                      change (liftM key.asText >>= _ : Except Failure Value) = _
                      rw [texted]
                      rfl
                  | ok text =>
                      rw [asText_ok.mp texted] at keyed
                      exact absurd ⟨members, rfl, present.trans (congrArg some (asKey_ok.mp keyed).2)⟩ (without text)
      | _ => exact ⟨.unsuitableKind, rfl⟩

/-- Following a chain from any place of it ends as it does from there. The references seen so far are those of the
chain, so that the steps allowed are never used up. -/
theorem dereferenceFrom_ends {fuel : Nat} {seen : List String} (leads : Leads document start seen.reverse value)
    (nodup : seen.Nodup) (enough : seen.length + fuel = document.referenceCount + 3) :
    ∃ references final, Leads document start references final ∧ references.Nodup ∧
      Ends document references final (dereferenceFrom document fuel seen value) := by
  induction fuel generalizing seen value with
  | zero =>
      have bound := leads.bounded (List.nodup_reverse.mpr nodup)
      rw [List.length_reverse] at bound
      omega
  | succ fuel ih =>
      by_cases refers : ∃ reference, value.Refers reference
      · obtain ⟨reference, refers⟩ := refers
        rw [dereferenceFrom_refers refers]
        by_cases known : reference ∈ seen
        · rw [if_pos known]
          exact ⟨_, value, leads, List.nodup_reverse.mpr nodup, .again refers (List.mem_reverse.mpr known)⟩
        · rw [if_neg known]
          cases resolved : document.resolve reference with
          | error failure =>
              exact ⟨_, value, leads, List.nodup_reverse.mpr nodup,
                .unresolved refers (mt List.mem_reverse.mp known) resolved⟩
          | ok next =>
              have longer := leads.snoc refers resolved
              rw [← List.reverse_cons] at longer
              apply ih longer (List.nodup_cons.mpr ⟨known, nodup⟩)
              rw [List.length_cons]
              omega
      · have without := not_exists.mp refers
        by_cases looks : value.has "$ref" = .ok false
        · rw [dereferenceFrom_plain looks]
          exact ⟨_, value, leads, List.nodup_reverse.mpr nodup, .plain looks⟩
        · obtain ⟨fault, stuck⟩ := dereferenceFrom_unsuited document without looks fuel seen
          rw [stuck]
          exact ⟨_, value, leads, List.nodup_reverse.mpr nodup, .unsuited without looks⟩

theorem dereference_ends (document start : Value) :
    ∃ references final, Leads document start references final ∧ references.Nodup ∧
      Ends document references final (document.dereference start) :=
  dereferenceFrom_ends (.here start) List.nodup_nil (by simp)

theorem Ends.stops {outcome : Except Failure Value} (ends : Ends document references final outcome) :
    Stops document references final := by
  intro reference next refers resolved
  cases ends with
  | plain without =>
      rw [refers.has] at without
      cases without
  | again own known => rwa [refers.unique own]
  | unresolved own _ failed =>
      rw [refers.unique own, failed] at resolved
      cases resolved
  | unsuited without => exact absurd refers (without reference)

theorem Ends.of_refers {outcome : Except Failure Value} (ends : Ends document references final outcome)
    (refers : final.Refers reference) :
    (reference ∈ references ∧ outcome = .error (.ofProblem (.circularReference reference))) ∨
      reference ∉ references ∧
        ∃ failure, document.resolve reference = .error failure ∧ outcome = .error failure := by
  cases ends with
  | plain without =>
      rw [refers.has] at without
      cases without
  | again own known =>
      rw [refers.unique own]
      exact .inl ⟨known, rfl⟩
  | unresolved own new failed =>
      rw [refers.unique own]
      exact .inr ⟨new, _, failed, rfl⟩
  | unsuited without => exact absurd refers (without reference)

theorem Ends.of_problem {outcome : Except Failure Value} (ends : Ends document references final outcome)
    {problem : Problem} (failed : outcome = .error (.ofProblem problem)) : ∃ reference, final.Refers reference := by
  cases ends with
  | plain => cases failed
  | again own => exact ⟨_, own⟩
  | unresolved own => exact ⟨_, own⟩
  | unsuited => cases failed

theorem dereference_of_stops (leads : Leads document start references final) (nodup : references.Nodup)
    (stops : Stops document references final) : Ends document references final (document.dereference start) := by
  obtain ⟨others, other, again, otherNodup, ends⟩ := dereference_ends document start
  obtain ⟨rfl, rfl⟩ := leads.unique [] again nodup otherNodup stops ends.stops
  exact ends

theorem resolve_error {failure : Failure} (failed : document.resolve reference = .error failure) :
    ∃ problem, failure = .ofProblem problem ∧ ∀ other, problem ≠ .circularReference other := by
  rw [resolve] at failed
  split at failed
  · exact ⟨.unsupportedReference reference, (Except.error.inj failed).symm, by simp⟩
  · split at failed
    · cases failed
    · exact ⟨.unknownReference reference, (Except.error.inj failed).symm, by simp⟩

theorem dereference_circular_iff :
    (∃ reference, document.dereference start = .error (.ofProblem (.circularReference reference))) ↔
      ∃ references final reference, Leads document start references final ∧ final.Refers reference ∧
        reference ∈ references := by
  constructor
  · rintro ⟨reference, circular⟩
    obtain ⟨references, final, leads, -, ends⟩ := dereference_ends document start
    obtain ⟨own, refers⟩ := ends.of_problem circular
    rcases ends.of_refers refers with ⟨known, -⟩ | ⟨-, failure, failed, same⟩
    · exact ⟨references, final, own, leads, refers, known⟩
    · obtain ⟨problem, rfl, other⟩ := resolve_error failed
      rw [circular] at same
      cases same
      exact absurd rfl (other reference)
  · rintro ⟨references, final, reference, leads, refers, known⟩
    have twice : ¬([] ++ references ++ [reference]).Nodup := by
      intro nodup
      exact (List.nodup_append.mp nodup).2.2 _ known _ (List.mem_singleton_self _) rfl
    obtain ⟨shorter, place, again, first, nodup, own, member⟩ := leads.repeats refers List.nodup_nil twice
    rw [List.nil_append] at nodup member
    have stops : Stops document shorter place := by
      intro other next refersOther _
      rwa [refersOther.unique own]
    rcases (dereference_of_stops first nodup stops).of_refers own with ⟨-, circular⟩ | ⟨new, -⟩
    · exact ⟨again, circular⟩
    · exact absurd member new

theorem dereference_unresolved_iff {failure : Failure}
    (possible : ∃ reference, document.resolve reference = .error failure) :
    document.dereference start = .error failure ↔
      ∃ references final reference, Leads document start references final ∧ final.Refers reference ∧
        document.resolve reference = .error failure := by
  constructor
  · intro failed
    obtain ⟨_, impossible⟩ := possible
    obtain ⟨problem, rfl, other⟩ := resolve_error impossible
    obtain ⟨references, final, leads, -, ends⟩ := dereference_ends document start
    obtain ⟨own, refers⟩ := ends.of_problem failed
    rcases ends.of_refers refers with ⟨-, circular⟩ | ⟨-, failure, unresolved, same⟩
    · rw [failed] at circular
      cases circular
      exact absurd rfl (other own)
    · rw [failed] at same
      cases same
      exact ⟨references, final, own, leads, refers, unresolved⟩
  · rintro ⟨references, final, reference, leads, refers, failed⟩
    obtain ⟨shorter, nodup, simple⟩ := leads.simple
    have stops : Stops document shorter final := by
      intro other next refersOther resolved
      rw [refersOther.unique refers, failed] at resolved
      cases resolved
    have ends := dereference_of_stops simple nodup stops
    rcases ends.of_refers refers with ⟨known, -⟩ | ⟨-, own, unresolved, same⟩
    · obtain ⟨found, resolved⟩ := simple.resolves known
      rw [failed] at resolved
      cases resolved
    · rw [same, ← unresolved, failed]

theorem dereference_object {members : List (Value × Value)}
    (leads : Leads document start references (.object members)) (without : lookup "$ref" members = none) :
    document.dereference start = .ok (.object members) := by
  have has : (Value.object members).has "$ref" = .ok false := by simp [Value.has, without]
  have nowhere : ∀ reference, ¬(Value.object members).Refers reference := by
    intro reference refers
    rw [refers.has] at has
    cases has
  obtain ⟨shorter, nodup, simple⟩ := leads.simple
  have ends := dereference_of_stops simple nodup fun reference _ refers => absurd refers (nowhere reference)
  generalize outcome : document.dereference start = result at ends
  cases ends with
  | plain => rfl
  | again refers => exact absurd refers (nowhere _)
  | unresolved refers => exact absurd refers (nowhere _)
  | unsuited _ looks => exact absurd has looks

/-- Following the references of any value ends, after no more of them than the document has and one. It ends in a
circular reference exactly if the chain comes to one that it has followed before, in a failure of a reference exactly
if the chain comes to one that fails, and in an object without a reference if the chain leads to it. -/
theorem dereference_chain (document start : Value) :
    (∃ references final, Leads document start references final ∧ references.Nodup ∧
      references.length ≤ document.referenceCount + 1 ∧
      Ends document references final (document.dereference start)) ∧
    ((∃ reference, document.dereference start = .error (.ofProblem (.circularReference reference))) ↔
      ∃ references final reference, Leads document start references final ∧ final.Refers reference ∧
        reference ∈ references) ∧
    (∀ failure, (∃ reference, document.resolve reference = .error failure) →
      (document.dereference start = .error failure ↔
        ∃ references final reference, Leads document start references final ∧ final.Refers reference ∧
          document.resolve reference = .error failure)) ∧
    ∀ references members, Leads document start references (.object members) → lookup "$ref" members = none →
      document.dereference start = .ok (.object members) := by
  obtain ⟨references, final, leads, nodup, ends⟩ := dereference_ends document start
  refine ⟨⟨references, final, leads, nodup, leads.bounded nodup, ends⟩, dereference_circular_iff, ?_, ?_⟩
  · intro failure
    exact dereference_unresolved_iff
  · intro references members
    exact dereference_object

def referenceTo (reference : String) : Value := .ofMembers [("$ref", .string reference)]

theorem referenceTo_refers (reference : String) : (referenceTo reference).Refers reference :=
  ⟨_, rfl, by simp [lookup, Entries.get?, same]⟩

def pagingParts : List (String × Value) :=
  [("limit", referenceTo "#/page"), ("page", .ofMembers [("name", .string "page")]),
    ("first", referenceTo "#/second"), ("second", referenceTo "#/first"), ("lost", referenceTo "#/nowhere")]

theorem resolve_part {name : String} {parts : List (String × Value)} (keys : pointerKeys? reference = some [name]) :
    (ofMembers parts).resolve reference =
      match Entries.find? name parts with
      | some found => .ok found
      | none => .error (.ofProblem (.unknownReference reference)) := by
  have followed : (ofMembers parts).follow? [name] = Entries.find? name parts := by
    have found := Entries.get?_text name id parts
    rw [Option.map_id, id_eq] at found
    rw [ofMembers, follow?, lookup]
    change (Entries.get? same (.string name) (parts.map fun part => (.string part.1, id part.2))).bind _ = _
    rw [found]
    cases Entries.find? name parts <;> rfl
  cases present : Entries.find? name parts with
  | none => simp [resolve, keys, followed, present]
  | some found => simp [resolve, keys, followed, present]

theorem paging_followed :
    Leads (ofMembers pagingParts) (referenceTo "#/limit") ["#/limit", "#/page"]
      (.ofMembers [("name", .string "page")]) ∧
    (ofMembers pagingParts).dereference (referenceTo "#/limit") = .ok (.ofMembers [("name", .string "page")]) ∧
    Leads (ofMembers pagingParts) (referenceTo "#/first") ["#/first", "#/second"] (referenceTo "#/first") ∧
    (∃ reference,
      (ofMembers pagingParts).dereference (referenceTo "#/first") =
        .error (.ofProblem (.circularReference reference))) ∧
    (ofMembers pagingParts).resolve "#/nowhere" = .error (.ofProblem (.unknownReference "#/nowhere")) ∧
    (ofMembers pagingParts).dereference (referenceTo "#/lost") =
      .error (.ofProblem (.unknownReference "#/nowhere")) := by
  have limit : (ofMembers pagingParts).resolve "#/limit" = .ok (referenceTo "#/page") :=
    resolve_part (show pointerKeys? _ = some ["limit"] by decide +kernel)
  have page : (ofMembers pagingParts).resolve "#/page" = .ok (.ofMembers [("name", .string "page")]) :=
    resolve_part (show pointerKeys? _ = some ["page"] by decide +kernel)
  have first : (ofMembers pagingParts).resolve "#/first" = .ok (referenceTo "#/second") :=
    resolve_part (show pointerKeys? _ = some ["first"] by decide +kernel)
  have second : (ofMembers pagingParts).resolve "#/second" = .ok (referenceTo "#/first") :=
    resolve_part (show pointerKeys? _ = some ["second"] by decide +kernel)
  have lost : (ofMembers pagingParts).resolve "#/lost" = .ok (referenceTo "#/nowhere") :=
    resolve_part (show pointerKeys? _ = some ["lost"] by decide +kernel)
  have nowhere : (ofMembers pagingParts).resolve "#/nowhere" = .error (.ofProblem (.unknownReference "#/nowhere")) :=
    resolve_part (show pointerKeys? _ = some ["nowhere"] by decide +kernel)
  have toPage : Leads (ofMembers pagingParts) (referenceTo "#/limit") ["#/limit", "#/page"] _ :=
    .link (referenceTo_refers _) limit (.link (referenceTo_refers _) page (.here _))
  have inCircle : Leads (ofMembers pagingParts) (referenceTo "#/first") ["#/first", "#/second"] _ :=
    .link (referenceTo_refers _) first (.link (referenceTo_refers _) second (.here _))
  have toNowhere : Leads (ofMembers pagingParts) (referenceTo "#/lost") ["#/lost"] _ :=
    .link (referenceTo_refers _) lost (.here _)
  refine ⟨toPage, ?_, inCircle, ?_, nowhere, ?_⟩
  · exact (dereference_chain _ _).2.2.2 _ _ toPage (by simp [lookup, Entries.get?, same])
  · exact (dereference_chain _ _).2.1.mpr ⟨_, _, "#/first", inCircle, referenceTo_refers _, List.mem_cons_self⟩
  · exact ((dereference_chain _ _).2.2.1 _ ⟨_, nowhere⟩).mpr
      ⟨_, _, _, toNowhere, referenceTo_refers _, nowhere⟩

end OpenApiClient.Value
