import Mathlib.Data.List.Induction
import Mathlib.Data.List.TakeWhile
import OpenApiClient.Proofs.References

/-! Runs of a registry. Whatever is asked of it, and in whatever order, it holds what was registered first under
each name before it was closed; everything else leaves it as it is. -/

namespace OpenApiClient

theorem Text.after?_eq_some {text start rest : List Char} :
    after? text start = some rest ↔ text = start ++ rest := by
  induction start generalizing text with
  | nil => cases text <;> simp [after?]
  | cons d start ih =>
      cases text with
      | nil => simp [after?]
      | cons c text =>
          by_cases same : c = d
          · simp [after?, same, ih]
          · simp [after?, same]

def IsSchemaReference (reference name : String) : Prop :=
  name ≠ "" ∧ reference = schemaReferenceStart ++ name

theorem referencedName_ok_iff {reference name : String} :
    referencedName reference = .ok name ↔ IsSchemaReference reference name := by
  have start : reference = schemaReferenceStart ++ name ↔
      Text.after? reference.toList schemaReferenceStart.toList = some name.toList := by
    rw [Text.after?_eq_some, ← String.toList_append, String.toList_inj]
  rw [IsSchemaReference, start]
  unfold referencedName
  split
  · rename_i c rest after
    constructor
    · rintro ⟨⟩
      simpa using after
    · rintro ⟨-, same⟩
      rw [same] at after
      rw [← Option.some.inj after, String.ofList_toList]
  · rename_i other
    constructor
    · rintro ⟨⟩
    · rintro ⟨filled, same⟩
      cases letters : name.toList with
      | nil => exact absurd (String.toList_eq_nil_iff.mp letters) filled
      | cons c rest => exact absurd (letters ▸ same) (other c rest)

theorem referencedName_error {reference : String} {failure : Failure}
    (refused : referencedName reference = .error failure) :
    failure = .ofProblem (.unsupportedReference reference) := by
  unfold referencedName at refused
  split at refused
  · cases refused
  · exact (Except.error.inj refused).symm

inductive RegistryCall where
  | register (name : String) (schema : Schema)
  | close
  | resolve (reference : String)
  | get (name : String)
  deriving Repr, Inhabited

inductive RegistryAnswer where
  | registered (named : NamedSchema)
  | refused (fault : RegistryFault)
  | closed
  | located (outcome : Except Failure NamedSchema)

namespace RegistryCall

def run (registry : Registry) : RegistryCall → RegistryAnswer × Registry
  | .register name schema =>
      match registry.register name schema with
      | .ok after => (.registered (registry.entry name schema), after)
      | .error fault => (.refused fault, registry)
  | .close => (.closed, registry.close)
  | .resolve reference => (.located (registry.resolve reference), registry)
  | .get name => (.located (registry.get name), registry)

def closes : RegistryCall → Bool
  | .close => true
  | _ => false

def registration? : RegistryCall → Option (String × Schema)
  | .register name schema => some (name, schema)
  | _ => none

/-- What is registered before the registry is closed, names that are known included. -/
def registrations (calls : List RegistryCall) : List (String × Schema) :=
  (calls.takeWhile fun call => !call.closes).filterMap registration?

theorem registrations_closed {calls : List RegistryCall} (closed : calls.any closes = true) (call : RegistryCall) :
    registrations (calls ++ [call]) = registrations calls := by
  induction calls with
  | nil => contradiction
  | cons first rest ih =>
      unfold registrations at ih ⊢
      by_cases last : first.closes = true
      · simp [last]
      · simp only [List.any_cons, last, Bool.false_or] at closed
        simp [last, List.filterMap_cons, ih closed]

theorem registrations_open {calls : List RegistryCall} (opened : calls.any closes = false) (call : RegistryCall) :
    registrations (calls ++ [call]) = registrations calls ++ call.registration?.toList := by
  have passed : ∀ call ∈ calls, (!call.closes) = true := by simpa using opened
  rw [registrations, registrations, List.takeWhile_append_of_pos passed, List.filterMap_append,
    List.takeWhile_eq_self_iff.mpr passed]
  cases call <;> simp [closes, registration?]

theorem registrations_idle {calls : List RegistryCall} {call : RegistryCall} (none : call.registration? = none) :
    registrations (calls ++ [call]) = registrations calls := by
  by_cases closed : calls.any closes = true
  · exact registrations_closed closed call
  · rw [registrations_open (by simpa using closed), none, Option.toList_none, List.append_nil]

end RegistryCall

def RegistryAnswer.registered? : RegistryAnswer → Option NamedSchema
  | .registered named => some named
  | _ => none

namespace Registry

def afterAll (registry : Registry) (calls : List RegistryCall) : Registry :=
  calls.foldl (fun registry call => (call.run registry).2) registry

def answers (registry : Registry) : List RegistryCall → List RegistryAnswer
  | [] => []
  | call :: rest => (call.run registry).1 :: answers (call.run registry).2 rest

def names (registry : Registry) : List String := registry.entries.map NamedSchema.name

def add (registry : Registry) (named : NamedSchema) : Registry :=
  { registry with entries := registry.entries ++ [named] }

variable {registry : Registry}

theorem contains_iff {name : String} : registry.contains name = true ↔ name ∈ registry.names := by
  simp [contains, find?, names]

theorem run_register (name : String) (schema : Schema) :
    (RegistryCall.register name schema).run registry =
      if registry.closed then (.refused (.closed name), registry)
      else if name ∈ registry.names then (.refused (.duplicate name), registry)
      else (.registered (registry.entry name schema), registry.add (registry.entry name schema)) := by
  by_cases closed : registry.closed = true
  · simp [RegistryCall.run, register, closed]
  · by_cases known : name ∈ registry.names
    · simp [RegistryCall.run, register, closed, known, contains_iff.mpr known]
    · have absent : registry.contains name = false := by simpa using contains_iff.not.mpr known
      simp [RegistryCall.run, register, closed, known, absent, add]

theorem run_closed (closed : registry.closed = true) (call : RegistryCall) : (call.run registry).2 = registry := by
  cases call with
  | register name schema => rw [run_register, if_pos closed]
  | close => exact congrArg (Registry.mk registry.package registry.entries) closed.symm
  | resolve reference => rfl
  | get name => rfl

theorem afterAll_closed (closed : registry.closed = true) (calls : List RegistryCall) :
    registry.afterAll calls = registry := by
  induction calls with
  | nil => rfl
  | cons call rest ih => rwa [afterAll, List.foldl_cons, run_closed closed call]

theorem get_ok_iff (distinct : registry.names.Nodup) {name : String} {named : NamedSchema} :
    registry.get name = .ok named ↔ named ∈ registry.entries ∧ named.name = name := by
  constructor
  · exact get_ok
  · rintro ⟨member, rfl⟩
    have found : registry.find? named.name = some named :=
      find?_of_key distinct member fun other => by simp
    simp [get, found]

theorem get_succeeds {name : String} : Succeeds (registry.get name) ↔ name ∈ registry.names := by
  rw [← contains_iff, contains]
  unfold Succeeds get
  cases registry.find? name <;> simp

/-- A look-up by reference finds the entry of the name that follows the common start. -/
theorem resolve_iff (distinct : registry.names.Nodup) {reference : String} {named : NamedSchema} :
    registry.resolve reference = .ok named ↔
      ∃ name, IsSchemaReference reference name ∧ named ∈ registry.entries ∧ named.name = name := by
  rw [resolve_ok_iff]
  refine exists_congr fun name => ?_
  rw [referencedName_ok_iff, get_ok_iff distinct]

theorem resolve_known {reference name : String} (referred : IsSchemaReference reference name)
    (known : name ∈ registry.names) : Succeeds (registry.resolve reference) := by
  obtain ⟨named, found⟩ := get_succeeds.mpr known
  exact ⟨named, resolve_ok_iff.mpr ⟨name, referencedName_ok_iff.mpr referred, found⟩⟩

theorem resolve_unsupported {reference : String} (foreign : ¬∃ name, IsSchemaReference reference name) :
    registry.resolve reference = .error (.ofProblem (.unsupportedReference reference)) := by
  cases split : referencedName reference with
  | ok name => exact absurd ⟨name, referencedName_ok_iff.mp split⟩ foreign
  | error failure =>
      obtain rfl := referencedName_error split
      simp [resolve, split, bind, Except.bind]

theorem resolve_unknown {reference name : String} (referred : IsSchemaReference reference name)
    (absent : name ∉ registry.names) :
    registry.resolve reference = .error (.ofProblem (.unknownReference reference)) := by
  have unfound : registry.find? name = none := by
    have missing := contains_iff.not.mpr absent
    simpa [contains] using missing
  simp [resolve, referencedName_ok_iff.mpr referred, unfound, bind, Except.bind]

/-- What a registry holds after some calls: under each name the schema that was registered first, in the order of
these registrations, and nothing that came after it was closed. -/
structure Records (package : Option String) (calls : List RegistryCall) (registry : Registry) : Prop where
  package : registry.package = package
  closed : registry.closed = calls.any RegistryCall.closes
  distinct : registry.names.Nodup
  order : registry.names = ((RegistryCall.registrations calls).map Prod.fst).eraseDups
  first : ∀ named ∈ registry.entries,
    Entries.find? named.name (RegistryCall.registrations calls) = some named.schema ∧
      registry.entry named.name named.schema = named

namespace Records

variable {package : Option String} {calls : List RegistryCall}

theorem start (package : Option String) : Records package [] (empty package) :=
  ⟨rfl, rfl, List.nodup_nil, rfl, by simp [empty]⟩

theorem idle (records : Records package calls registry) {call : RegistryCall}
    (added : RegistryCall.registrations (calls ++ [call]) = RegistryCall.registrations calls) {after : Registry}
    (packaged : after.package = registry.package) (kept : after.entries = registry.entries)
    (closed : after.closed = (registry.closed || call.closes)) : Records package (calls ++ [call]) after where
  package := packaged.trans records.package
  closed := by simp [closed, records.closed]
  distinct := by simpa only [names, kept] using records.distinct
  order := by simpa only [names, kept, added] using records.order
  first := by simpa only [entry, packaged, kept, added] using records.first

theorem mem_names (records : Records package calls registry) {name : String} :
    name ∈ registry.names ↔ name ∈ (RegistryCall.registrations calls).map Prod.fst := by
  rw [records.order, List.mem_eraseDups]

theorem first_append (records : Records package calls registry) {named : NamedSchema}
    (member : named ∈ registry.entries) (later : List (String × Schema)) :
    Entries.find? named.name (RegistryCall.registrations calls ++ later) = some named.schema := by
  rw [Entries.find?_append, (records.first named member).1, Option.some_or]

theorem duplicate (records : Records package calls registry) (opened : registry.closed = false) {name : String}
    (known : name ∈ registry.names) (schema : Schema) :
    Records package (calls ++ [.register name schema]) registry := by
  have added := RegistryCall.registrations_open (records.closed ▸ opened) (.register name schema)
  refine ⟨records.package, by simp [records.closed, RegistryCall.closes], records.distinct, ?_, ?_⟩
  · have before := records.mem_names.mp known
    simp [added, RegistryCall.registration?, eraseDups_known before, records.order]
  · intro named member
    rw [added]
    exact ⟨records.first_append member _, (records.first named member).2⟩

theorem register (records : Records package calls registry) (opened : registry.closed = false) {name : String}
    (new : name ∉ registry.names) (schema : Schema) :
    Records package (calls ++ [.register name schema]) (registry.add (registry.entry name schema)) := by
  have added := RegistryCall.registrations_open (records.closed ▸ opened) (.register name schema)
  have unmet := records.mem_names.not.mp new
  have listed : (registry.add (registry.entry name schema)).names = registry.names ++ [name] := by
    simp [names, add, entry]
  refine ⟨records.package, by simp [add, records.closed, RegistryCall.closes], ?_, ?_, ?_⟩
  · rw [listed]
    exact records.distinct.append (List.nodup_singleton name) (by simpa using new)
  · simp [listed, added, RegistryCall.registration?, eraseDups_new unmet, records.order]
  · intro named member
    rw [added]
    rcases List.mem_append.mp member with earlier | last
    · exact ⟨records.first_append earlier _, (records.first named earlier).2⟩
    · obtain rfl := List.mem_singleton.mp last
      have absent : Entries.find? name (RegistryCall.registrations calls) = none := by
        rw [Entries.find?_eq_none]
        intro pair among same
        exact unmet (same ▸ List.mem_map_of_mem among)
      refine ⟨?_, rfl⟩
      show Entries.find? name (RegistryCall.registrations calls ++ _) = some schema
      rw [Entries.find?_append, absent]
      simp [RegistryCall.registration?, Entries.find?, Entries.get?]

theorem step (records : Records package calls registry) (call : RegistryCall) :
    Records package (calls ++ [call]) (call.run registry).2 := by
  cases call with
  | register name schema =>
      rw [run_register]
      split
      case isTrue closed =>
        refine records.idle (RegistryCall.registrations_closed ?_ _) rfl rfl (by simp [closed])
        exact records.closed ▸ closed
      case isFalse opened =>
        rw [Bool.not_eq_true] at opened
        split
        case isTrue known => exact records.duplicate opened known schema
        case isFalse new => exact records.register opened new schema
  | close =>
      refine records.idle (RegistryCall.registrations_idle rfl) rfl rfl ?_
      simp [RegistryCall.run, close, RegistryCall.closes]
  | resolve reference =>
      refine records.idle (RegistryCall.registrations_idle rfl) rfl rfl ?_
      simp [RegistryCall.run, RegistryCall.closes]
  | get name =>
      refine records.idle (RegistryCall.registrations_idle rfl) rfl rfl ?_
      simp [RegistryCall.run, RegistryCall.closes]

theorem run (package : Option String) (calls : List RegistryCall) :
    Records package calls ((empty package).afterAll calls) := by
  induction calls using List.reverseRecOn with
  | nil => exact .start package
  | append_singleton calls call ih =>
      rw [afterAll, List.foldl_append]
      exact ih.step call

end Records

theorem run_entries (call : RegistryCall) :
    (call.run registry).2.entries = registry.entries ++ (call.run registry).1.registered?.toList := by
  cases call with
  | register name schema =>
      rw [run_register]
      split
      · simp [RegistryAnswer.registered?]
      · split <;> simp [RegistryAnswer.registered?, add]
  | close => simp [RegistryCall.run, close, RegistryAnswer.registered?]
  | resolve reference => simp [RegistryCall.run, RegistryAnswer.registered?]
  | get name => simp [RegistryCall.run, RegistryAnswer.registered?]

theorem afterAll_entries (registry : Registry) (calls : List RegistryCall) :
    (registry.afterAll calls).entries =
      registry.entries ++ (registry.answers calls).filterMap RegistryAnswer.registered? := by
  induction calls generalizing registry with
  | nil => simp [afterAll, answers]
  | cons call rest ih =>
      have next := ih (call.run registry).2
      rw [afterAll] at next
      rw [afterAll, List.foldl_cons, next, run_entries, answers, List.filterMap_cons]
      cases (call.run registry).1.registered? <;> simp

structure Responds (registry : Registry) : Prop where
  register : ∀ name schema, (RegistryCall.register name schema).run registry =
    if registry.closed then (.refused (.closed name), registry)
    else if name ∈ registry.names then (.refused (.duplicate name), registry)
    else (.registered (registry.entry name schema), registry.add (registry.entry name schema))
  close : RegistryCall.close.run registry = (.closed, { registry with closed := true })
  reads : ∀ text, (RegistryCall.resolve text).run registry = (.located (registry.resolve text), registry) ∧
    (RegistryCall.get text).run registry = (.located (registry.get text), registry)
  settled : registry.closed = true → ∀ calls, registry.afterAll calls = registry
  get : ∀ name, (Succeeds (registry.get name) ↔ name ∈ registry.names) ∧
    ∀ named, registry.get name = .ok named ↔ named ∈ registry.entries ∧ named.name = name
  resolve : ∀ reference named, registry.resolve reference = .ok named ↔
    ∃ name, IsSchemaReference reference name ∧ named ∈ registry.entries ∧ named.name = name
  unsupported : ∀ reference, registry.resolve reference = .error (.ofProblem (.unsupportedReference reference)) ↔
    ¬∃ name, IsSchemaReference reference name
  unknown : ∀ reference, registry.resolve reference = .error (.ofProblem (.unknownReference reference)) ↔
    ∃ name, IsSchemaReference reference name ∧ name ∉ registry.names

theorem responds (distinct : registry.names.Nodup) : registry.Responds where
  register name schema := run_register name schema
  close := rfl
  reads _ := ⟨rfl, rfl⟩
  settled := afterAll_closed
  get name := ⟨get_succeeds, fun _ => get_ok_iff distinct⟩
  resolve _ _ := resolve_iff distinct
  unsupported reference := by
    refine ⟨?_, resolve_unsupported⟩
    rintro failed ⟨name, referred⟩
    by_cases known : name ∈ registry.names
    · obtain ⟨named, found⟩ := resolve_known referred known
      simp [failed] at found
    · simp [resolve_unknown referred known, Failure.ofProblem] at failed
  unknown reference := by
    refine ⟨fun failed => ?_, fun ⟨_, referred, absent⟩ => resolve_unknown referred absent⟩
    by_cases shaped : ∃ name, IsSchemaReference reference name
    · obtain ⟨name, referred⟩ := shaped
      refine ⟨name, referred, fun known => ?_⟩
      obtain ⟨named, found⟩ := resolve_known referred known
      simp [failed] at found
    · simp [resolve_unsupported shaped, Failure.ofProblem] at failed

/-- After any calls, refused ones among them, a registry holds what was registered first under each name before it
was closed. What it answers next depends on these entries alone, and only a new name or the closing changes it. -/
theorem calls_recorded (package : Option String) (calls : List RegistryCall) :
    Records package calls ((empty package).afterAll calls) ∧
      ((empty package).afterAll calls).entries =
        ((empty package).answers calls).filterMap RegistryAnswer.registered? ∧
      ((empty package).afterAll calls).Responds := by
  have records := Records.run package calls
  refine ⟨records, ?_, responds records.distinct⟩
  simpa [empty] using afterAll_entries (empty package) calls

/-- The second schema of one name and the schema that comes too late are refused. -/
example : ((empty (some "shop")).afterAll [.register "Pet" {}, .resolve "#/components/schemas/Owner",
    .register "Pet" { items := some {} }, .register "Owner" {}, .close, .register "Late" {}]).names =
      ["Pet", "Owner"] := by
  decide +kernel

end Registry
end OpenApiClient
