import OpenApiClient.Document.Reader
import OpenApiClient.Proofs.Paths
import OpenApiClient.Proofs.Plan
import OpenApiClient.Proofs.RegistryRuns

/-! Pointers to the parts of a document. The keys on the way to a part are read back from the pointer that is
written for them, whatever characters they have. A registry takes the name in a reference as it stands; so a name
is found under its pointer in the document and in the registry alike where it is written without an escape. -/

namespace OpenApiClient

def escapedCharacter (c : Char) : List Char :=
  if c = '~' then ['~', '0'] else if c = '/' then ['~', '1'] else [c]

def escapeKey (key : List Char) : List Char := key.flatMap escapedCharacter

def pointerTo (keys : List String) : String :=
  String.ofList ('#' :: keys.flatMap fun key => '/' :: escapeKey key.toList)

/-! Escaping is undone. -/

theorem replaceTilde_other {mark by_ c : Char} (different : c ≠ '~') (rest : List Char) :
    replaceTilde mark by_ (c :: rest) = c :: replaceTilde mark by_ rest := by
  rw [replaceTilde.eq_def]
  split
  · rename_i same
    exact absurd (List.cons.inj same).1 different
  · rename_i same
    obtain ⟨rfl, rfl⟩ := List.cons.inj same
    rfl
  · contradiction

/-- Slashes are put back first, so that tildes are the only characters that are still escaped. -/
theorem replaceTilde_escapeKey (key : List Char) :
    replaceTilde '1' '/' (escapeKey key) = key.flatMap fun c => if c = '~' then ['~', '0'] else [c] := by
  induction key with
  | nil => rfl
  | cons c rest ih =>
      rw [escapeKey] at ih ⊢
      rw [List.flatMap_cons, List.flatMap_cons, ← ih]
      by_cases tilde : c = '~'
      · subst tilde
        simp [escapedCharacter, replaceTilde, replaceTilde_other]
      · by_cases slash : c = '/'
        · subst slash
          simp [escapedCharacter, replaceTilde]
        · simp [escapedCharacter, tilde, slash, replaceTilde_other tilde]

theorem unescapeKey_escapeKey (key : List Char) : unescapeKey (escapeKey key) = key := by
  rw [unescapeKey, replaceTilde_escapeKey]
  induction key with
  | nil => rfl
  | cons c rest ih =>
      by_cases tilde : c = '~'
      · subst tilde
        simpa [replaceTilde] using ih
      · simpa [tilde, replaceTilde_other tilde] using ih

theorem escapeKey_slashless (key : List Char) : '/' ∉ escapeKey key := by
  intro member
  obtain ⟨c, -, among⟩ := List.mem_flatMap.mp member
  unfold escapedCharacter at among
  split at among
  · simp at among
  · split at among
    · simp at among
    · rename_i other
      exact other (List.mem_singleton.mp among).symm

theorem escapeKey_plain {key : List Char} (tildeless : '~' ∉ key) (slashless : '/' ∉ key) :
    escapeKey key = key := by
  induction key with
  | nil => rfl
  | cons c rest ih =>
      simp only [List.mem_cons, not_or] at tildeless slashless
      rw [escapeKey, List.flatMap_cons, ← escapeKey, ih tildeless.2 slashless.2, escapedCharacter,
        if_neg (Ne.symm tildeless.1), if_neg (Ne.symm slashless.1), List.singleton_append]

/-- Each tilde and each slash takes a character more. -/
theorem length_escapeKey (key : List Char) :
    (escapeKey key).length = key.length + key.countP fun c => c == '~' || c == '/' := by
  induction key with
  | nil => rfl
  | cons c rest ih =>
      rw [escapeKey, List.flatMap_cons, ← escapeKey, List.length_append, ih, List.countP_cons, List.length_cons,
        escapedCharacter]
      by_cases tilde : c = '~'
      · simp [tilde]
        omega
      · by_cases slash : c = '/'
        · simp [slash]
          omega
        · simp [tilde, slash]
          omega

theorem escapeKey_ne {key : List Char} (escaped : '~' ∈ key ∨ '/' ∈ key) : escapeKey key ≠ key := by
  intro same
  have longer := length_escapeKey key
  have counted : 0 < key.countP fun c => c == '~' || c == '/' := by
    rw [List.countP_pos_iff]
    rcases escaped with tilde | slash
    · exact ⟨_, tilde, by decide⟩
    · exact ⟨_, slash, by decide⟩
  rw [same] at longer
  omega

theorem splitAt_keys (key : String) (keys : List String) :
    Text.splitAt '/' (escapeKey key.toList ++ keys.flatMap fun key => '/' :: escapeKey key.toList) =
      (key :: keys).map fun key => escapeKey key.toList := by
  induction keys generalizing key with
  | nil => simp [Text.splitAt_whole (escapeKey_slashless key.toList)]
  | cons next keys ih =>
      rw [List.flatMap_cons, List.cons_append, Text.splitAt_joined, Text.splitAt_whole (escapeKey_slashless _), ih]
      rfl

theorem pointerKeys?_pointerTo {keys : List String} (filled : keys ≠ []) :
    pointerKeys? (pointerTo keys) = some keys := by
  obtain ⟨key, rest, rfl⟩ := List.exists_cons_of_ne_nil filled
  have start : Text.after? (pointerTo (key :: rest)).toList ['#', '/'] =
      some (escapeKey key.toList ++ rest.flatMap fun key => '/' :: escapeKey key.toList) := by
    rw [Text.after?_eq_some, pointerTo, String.toList_ofList]
    rfl
  rw [pointerKeys?, start, Option.map_some, splitAt_keys, List.map_map]
  simp [Function.comp_def, unescapeKey_escapeKey]

namespace Value

/-- A pointer resolves to what its keys lead to. -/
theorem resolve_pointerTo {keys : List String} (filled : keys ≠ []) {document found : Value} :
    document.resolve (pointerTo keys) = .ok found ↔ document.follow? keys = some found := by
  cases followed : document.follow? keys <;> simp [resolve, pointerKeys?_pointerTo filled, followed]

theorem follow?_append (document : Value) (keys others : List String) :
    document.follow? (keys ++ others) = (document.follow? keys).bind fun found => found.follow? others := by
  induction keys generalizing document with
  | nil => rfl
  | cons key keys ih =>
      cases document with
      | object members =>
          cases found : lookup key members with
          | none => simp [follow?, found]
          | some value => simp [follow?, found, ih]
      | _ => rfl

theorem lookup_of_mem {members : List (Value × Value)} (distinct : Entries.Distinct same members) {key : String}
    {value : Value} (member : (.string key, value) ∈ members) : lookup key members = some value := by
  induction members with
  | nil => contradiction
  | cons first rest ih =>
      obtain ⟨apart, distinct⟩ := List.pairwise_cons.mp distinct
      rcases List.mem_cons.mp member with rfl | later
      · simp [lookup, Entries.get?, same]
      · rw [lookup, Entries.get?, apart _ later]
        exact ih distinct later

end Value

def schemaPointer (name : String) : String := schemaReferenceStart ++ String.ofList (escapeKey name.toList)

theorem schemaPointer_eq (name : String) : schemaPointer name = pointerTo ["components", "schemas", name] := by
  rw [schemaPointer, pointerTo, ← String.toList_inj, String.toList_append, String.toList_ofList,
    String.toList_ofList]
  simp [schemaReferenceStart, escapeKey_plain]

theorem schemaPointer_plain {name : String} (tildeless : '~' ∉ name.toList) (slashless : '/' ∉ name.toList) :
    schemaPointer name = schemaReferenceStart ++ name := by
  rw [schemaPointer, escapeKey_plain tildeless slashless, String.ofList_toList]

/-! The schemas of a document that is read. -/

theorem Value.follow?_cons {document found : Value} {key : String} {keys : List String}
    (followed : document.follow? (key :: keys) = some found) :
    ∃ members value, document = .object members ∧ lookup key members = some value ∧
      value.follow? keys = some found := by
  cases document with
  | object members =>
      obtain ⟨value, present, later⟩ := Option.bind_eq_some_iff.mp followed
      exact ⟨members, value, rfl, present, later⟩
  | _ => cases followed

theorem Value.truth_of_lookup {members : List (Value × Value)} {key : String} {value : Value}
    (present : lookup key members = some value) : (Value.object members).truth = true := by
  cases members with
  | nil => cases present
  | cons => rfl

theorem Value.member_of_lookup {members : List (Value × Value)} {key : String} {value : Value}
    (present : lookup key members = some value) : (Value.object members).member key = .ok value := by
  simp [member, member?, Value.members, present, Functor.map, Except.map]

/-- What stands where the schemas are is what is read as the schemas, each entry under its key. -/
theorem readSchemas_of_follow {document : Value} {schemas : List (Value × Value)}
    {read : { schemas : List (Value × Schema) // Entries.Distinct Value.same schemas }}
    (done : readSchemas document = .ok read)
    (found : document.follow? ["components", "schemas"] = some (.object schemas)) (filled : schemas ≠ [])
    (distinct : Entries.Distinct Value.same schemas) :
    List.Forall₂ (fun entry other => entry.1 = other.1 ∧ Schema.ofValue entry.2 = .ok other.2) schemas
      read.val := by
  obtain ⟨members, components, rfl, present, found⟩ := Value.follow?_cons found
  obtain ⟨parts, _, rfl, own, found⟩ := Value.follow?_cons found
  obtain rfl := Option.some.inj found
  obtain ⟨_, opened, done⟩ := except_bind_ok.mp done
  obtain rfl := Except.ok.inj ((Value.member_of_lookup present).symm.trans opened)
  obtain ⟨_, opened, done⟩ := except_bind_ok.mp done
  rw [Value.memberOrNull, if_pos (Value.truth_of_lookup own), Value.member_of_lookup own] at opened
  obtain rfl := Except.ok.inj opened
  obtain ⟨_, opened, done⟩ := except_bind_ok.mp done
  rw [Value.membersOrNone, if_pos (by simp [Value.truth, filled])] at opened
  obtain rfl := Except.ok.inj opened
  obtain ⟨pairs, all, done⟩ := except_bind_ok.mp done
  obtain rfl := except_pure_ok.mp done
  have each : List.Forall₂ (fun entry other => entry.1 = other.1 ∧ Schema.ofValue entry.2 = .ok other.2) schemas
      pairs := by
    refine ((mapM_ok_iff _ _ _).mp all).imp fun entry other made => ?_
    obtain ⟨schema, read, made⟩ := except_bind_ok.mp made
    obtain rfl := except_pure_ok.mp made
    exact ⟨rfl, read⟩
  have keys : schemas.map Prod.fst = pairs.map Prod.fst := map_eq_of_forall₂ (each.imp fun _ _ both => both.1)
  have apart : Entries.Distinct Value.same pairs := by
    unfold Entries.Distinct at distinct ⊢
    rw [← List.pairwise_map (f := Prod.fst) (R := fun key other => Value.same key other = false)] at distinct ⊢
    rwa [← keys]
  simpa only [Entries.ofPairs_of_distinct apart] using each

theorem ApiDocument.read_schemas {document : Value} {api : ApiDocument}
    (done : ApiDocument.read document = .ok api) :
    ∃ schemas, readSchemas document = .ok schemas ∧ api.schemas = schemas.val := by
  simp only [ApiDocument.read, except_bind_ok, except_lift_ok, except_pure_ok] at done
  obtain ⟨_, -, _, -, _, -, _, -, _, -, _, -, schemas, read, _, -, _, -, _, -, _, -, _, -, rfl⟩ := done
  exact ⟨schemas, read, rfl⟩

section

variable {document : Value} {schemas : List (Value × Value)} {name : String} {raw : Value}

/-- The pointer to a schema leads to the schema as the document has it, whatever the name. -/
theorem Value.resolve_schema (found : document.follow? ["components", "schemas"] = some (.object schemas))
    (distinct : Entries.Distinct same schemas) (member : (.string name, raw) ∈ schemas) :
    document.resolve (schemaPointer name) = .ok raw := by
  have followed : document.follow? ["components", "schemas", name] = some raw := by
    rw [show ["components", "schemas", name] = ["components", "schemas"] ++ [name] from rfl, follow?_append, found,
      Option.bind_some, follow?, lookup_of_mem distinct member]
    rfl
  rw [schemaPointer_eq]
  exact (resolve_pointerTo (by simp)).mpr followed

namespace Registry

variable {api : ApiDocument} {package : Option String} {registry : Registry}

/-- The registry of a document has an entry for each schema, under the name that the document gives it. -/
theorem ofSchemas_registers (read : ApiDocument.read document = .ok api)
    (made : (ofSchemas package api.schemas).result = .ok registry)
    (found : document.follow? ["components", "schemas"] = some (.object schemas))
    (distinct : Entries.Distinct Value.same schemas) (member : (.string name, raw) ∈ schemas) :
    ∃ named ∈ registry.entries, named.name = name ∧ Schema.ofValue raw = .ok named.schema := by
  obtain ⟨all, done, same⟩ := ApiDocument.read_schemas read
  obtain ⟨⟨_, schema⟩, among, rfl, own⟩ :=
    forall₂_of_mem_left (readSchemas_of_follow done found (List.ne_nil_of_mem member) distinct) member
  obtain ⟨named, entered, both⟩ := forall₂_of_mem_left (ofSchemas_ok made) (same ▸ among)
  obtain ⟨rfl, rfl⟩ : name = named.name ∧ schema = named.schema := by simpa [Enters] using both
  exact ⟨named, entered, rfl, own⟩

/-- A name that has a tilde or a slash is written otherwise in a pointer; any other is what a reference ends in. -/
theorem isSchemaReference_pointer (filled : name ≠ "") (tildeless : '~' ∉ name.toList)
    (slashless : '/' ∉ name.toList) : IsSchemaReference (schemaPointer name) name :=
  ⟨filled, schemaPointer_plain tildeless slashless⟩

/-- The registry undoes no escape. Under a pointer with one it finds what has the escaped text for a name, which is
never the schema that the pointer is written for. -/
theorem resolve_escapedPointer (names : registry.names.Nodup) (escaped : '~' ∈ name.toList ∨ '/' ∈ name.toList) :
    (∀ named, registry.resolve (schemaPointer name) = .ok named →
      named ∈ registry.entries ∧ named.name = String.ofList (escapeKey name.toList) ∧ named.name ≠ name) ∧
    (String.ofList (escapeKey name.toList) ∉ registry.names →
      registry.resolve (schemaPointer name) = .error (.ofProblem (.unknownReference (schemaPointer name)))) := by
  have different : escapeKey name.toList ≠ name.toList := escapeKey_ne escaped
  have referred : IsSchemaReference (schemaPointer name) (String.ofList (escapeKey name.toList)) := by
    refine ⟨?_, rfl⟩
    intro empty
    have blank : escapeKey name.toList = [] := by simpa using empty
    have counted := length_escapeKey name.toList
    rw [blank, List.length_nil] at counted
    have nameless : name.toList = [] := List.length_eq_zero_iff.mp (by omega)
    exact different (blank.trans nameless.symm)
  constructor
  · intro named found
    obtain ⟨other, ⟨-, same⟩, among, rfl⟩ := (resolve_iff names).mp found
    have own : named.name = String.ofList (escapeKey name.toList) :=
      ((String.append_right_inj _).mp (referred.2.symm.trans same)).symm
    refine ⟨among, own, ?_⟩
    rintro rfl
    exact different (by rw [← String.toList_ofList (l := escapeKey named.name.toList), ← own])
  · exact resolve_unknown referred

theorem not_isSchemaReference_empty : ¬∃ name, IsSchemaReference (schemaPointer "") name := by
  rintro ⟨name, filled, same⟩
  rw [schemaPointer_plain (by simp) (by simp), String.append_right_inj] at same
  exact filled same.symm

/-- The pointer to a schema leads to it in the document. In the registry it leads to the entry of the name, except
that a reference without a name is none. -/
theorem resolve_schemaPointer (read : ApiDocument.read document = .ok api)
    (made : (ofSchemas package api.schemas).result = .ok registry)
    (found : document.follow? ["components", "schemas"] = some (.object schemas))
    (distinct : Entries.Distinct Value.same schemas) (member : (.string name, raw) ∈ schemas) :
    document.resolve (schemaPointer name) = .ok raw ∧
      ∃ named ∈ registry.entries, named.name = name ∧ Schema.ofValue raw = .ok named.schema ∧
        (name ≠ "" → '~' ∉ name.toList → '/' ∉ name.toList →
          registry.resolve (schemaPointer name) = .ok named) ∧
        (name = "" → registry.resolve (schemaPointer name) =
          .error (.ofProblem (.unsupportedReference (schemaPointer name)))) := by
  obtain ⟨named, entered, rfl, own⟩ := ofSchemas_registers read made found distinct member
  refine ⟨Value.resolve_schema found distinct member, named, entered, rfl, own, ?_, ?_⟩
  · intro filled tildeless slashless
    have names : registry.names.Nodup := names_nodup api.distinctSchemas (ofSchemas_ok made)
    exact (resolve_iff names).mpr ⟨named.name, isSchemaReference_pointer filled tildeless slashless, entered, rfl⟩
  · intro empty
    rw [empty]
    exact resolve_unsupported not_isSchemaReference_empty

def labelSchemas : List (Value × Value) :=
  [(.string "Label", .ofMembers [("type", .string "string")]),
    (.string "", .ofMembers [("type", .string "string")])]

def labelsDocument : Value := .ofMembers [("components", .ofMembers [("schemas", .object labelSchemas)])]

theorem labelSchemas_distinct : Entries.Distinct Value.same labelSchemas := by decide +kernel

theorem labelsDocument_schemas :
    labelsDocument.follow? ["components", "schemas"] = some (.object labelSchemas) := by
  simp [labelsDocument, Value.follow?, Value.ofMembers, Value.lookup, Entries.get?, Value.same]

theorem labelsDocument_registers : ∃ api registry, ApiDocument.read labelsDocument = .ok api ∧
    (ofSchemas (some "labels") api.schemas).result = .ok registry := by
  have done : (ApiDocument.read labelsDocument >>= fun api =>
      (ofSchemas (some "labels") api.schemas).result).isOk = true := by decide +kernel
  cases outcome : ApiDocument.read labelsDocument >>= fun api => (ofSchemas (some "labels") api.schemas).result with
  | error failure => simp [outcome, Except.isOk, Except.toBool] at done
  | ok registry =>
      obtain ⟨api, read, made⟩ := except_bind_ok.mp outcome
      exact ⟨api, registry, read, made⟩

theorem label_resolved : ∃ api registry raw named, ApiDocument.read labelsDocument = .ok api ∧
    (ofSchemas (some "labels") api.schemas).result = .ok registry ∧
    labelsDocument.follow? ["components", "schemas"] = some (.object labelSchemas) ∧
    Entries.Distinct Value.same labelSchemas ∧ (.string "Label", raw) ∈ labelSchemas ∧
    labelsDocument.resolve (schemaPointer "Label") = .ok raw ∧ named ∈ registry.entries ∧ named.name = "Label" ∧
    registry.resolve (schemaPointer "Label") = .ok named := by
  obtain ⟨api, registry, read, made⟩ := labelsDocument_registers
  have member : (.string "Label", .ofMembers [("type", .string "string")]) ∈ labelSchemas := List.mem_cons_self
  obtain ⟨resolved, named, among, same, -, located, -⟩ :=
    resolve_schemaPointer read made labelsDocument_schemas labelSchemas_distinct member
  exact ⟨api, registry, _, named, read, made, labelsDocument_schemas, labelSchemas_distinct, member, resolved,
    among, same, located (by decide) (by decide) (by decide)⟩

/-- The schema of the empty name is one that the document finds and the registry does not. -/
theorem unnamedLabel_unresolved : ∃ api registry raw named, ApiDocument.read labelsDocument = .ok api ∧
    (ofSchemas (some "labels") api.schemas).result = .ok registry ∧
    labelsDocument.follow? ["components", "schemas"] = some (.object labelSchemas) ∧
    Entries.Distinct Value.same labelSchemas ∧ (.string "", raw) ∈ labelSchemas ∧
    labelsDocument.resolve (schemaPointer "") = .ok raw ∧ named ∈ registry.entries ∧ named.name = "" ∧
    registry.resolve (schemaPointer "") ≠ .ok named := by
  obtain ⟨api, registry, read, made⟩ := labelsDocument_registers
  have member : (.string "", .ofMembers [("type", .string "string")]) ∈ labelSchemas :=
    List.mem_cons_of_mem _ List.mem_cons_self
  obtain ⟨named, among, same, -⟩ :=
    ofSchemas_registers read made labelsDocument_schemas labelSchemas_distinct member
  refine ⟨api, registry, _, named, read, made, labelsDocument_schemas, labelSchemas_distinct, member,
    Value.resolve_schema labelsDocument_schemas labelSchemas_distinct member, among, same, ?_⟩
  rw [resolve_unsupported not_isSchemaReference_empty]
  simp

end Registry

end

/-! Pointers put together by replacing characters. Slashes are replaced last, since the tildes that this brings are
not to be escaped again. -/

def replaceEach (mark : Char) (by_ text : List Char) : List Char :=
  text.flatMap fun c => if c = mark then by_ else [c]

def writtenKey (key : String) : List Char :=
  replaceEach '/' ['~', '1'] (replaceEach '~' ['~', '0'] key.toList)

def localPointer (keys : List String) : String :=
  String.ofList (['#', '/'] ++ Text.joinWith ['/'] (keys.map writtenKey))

theorem writtenKey_eq (key : String) : writtenKey key = escapeKey key.toList := by
  rw [writtenKey, replaceEach, replaceEach, List.flatMap_assoc, escapeKey]
  apply List.flatMap_congr
  intro c _
  unfold escapedCharacter
  by_cases tilde : c = '~'
  · simp [tilde]
  · simp [tilde]

theorem localPointer_eq {keys : List String} (filled : keys ≠ []) : localPointer keys = pointerTo keys := by
  rw [localPointer, pointerTo, String.ofList_inj]
  induction keys with
  | nil => contradiction
  | cons key rest ih =>
      cases rest with
      | nil => simp [Text.joinWith, writtenKey_eq]
      | cons next others =>
          have later := ih (List.cons_ne_nil next others)
          simp only [List.map_cons, List.flatMap_cons, List.cons_append, List.nil_append, List.cons.injEq,
            true_and] at later ⊢
          rw [Text.joinWith, writtenKey_eq, List.append_assoc, List.singleton_append, later]
          exact List.cons_ne_nil _ _

namespace Value

inductive Descends : Value → List String → Value → Prop
  | here (value : Value) : Descends value [] value
  | member {members : List (Value × Value)} {key : String} {keys : List String} {inner found : Value} :
      lookup key members = some inner → Descends inner keys found →
      Descends (.object members) (key :: keys) found

variable {document value found : Value} {keys : List String}

theorem descends_iff : Descends document keys found ↔ document.follow? keys = some found := by
  constructor
  · intro descends
    induction descends with
    | here value => rfl
    | member present _ ih => rw [follow?, present, Option.bind_some, ih]
  · intro followed
    induction keys generalizing document with
    | nil =>
        obtain rfl := Option.some.inj followed
        exact .here _
    | cons key keys ih =>
        obtain ⟨members, inner, rfl, present, later⟩ := follow?_cons followed
        exact .member present (ih later)

/-- Below a value that is no object there is nothing. -/
theorem follow?_barred (descends : Descends document keys value) (barred : ∀ members, value ≠ .object members)
    {others : List String} (filled : others ≠ []) : document.follow? (keys ++ others) = none := by
  rw [follow?_append, descends_iff.mp descends, Option.bind_some]
  obtain ⟨key, rest, rfl⟩ := List.exists_cons_of_ne_nil filled
  cases value with
  | object members => exact absurd rfl (barred members)
  | _ => rfl

theorem resolve_unknown (filled : keys ≠ []) (missing : document.follow? keys = none) :
    document.resolve (localPointer keys) = .error (.ofProblem (.unknownReference (localPointer keys))) := by
  rw [localPointer_eq filled, resolve, pointerKeys?_pointerTo filled]
  simp [missing]

theorem resolve_foreign {reference : String} (foreign : ¬['#', '/'] <+: reference.toList) :
    document.resolve reference = .error (.ofProblem (.unsupportedReference reference)) := by
  have absent : Text.after? reference.toList ['#', '/'] = none := by
    rw [Option.eq_none_iff_forall_ne_some]
    intro rest start
    exact foreign ⟨rest, (Text.after?_eq_some.mp start).symm⟩
  rw [resolve, pointerKeys?, absent, Option.map_none]

/-- The pointer written for some keys leads to the value below them. There is none if something other than an object
stands in the way. A reference to another document is refused. -/
theorem resolve_localPointer (document : Value) :
    (∀ keys ≠ [],
      (∀ found, document.resolve (localPointer keys) = .ok found ↔ Descends document keys found) ∧
      ((¬∃ found, Descends document keys found) →
        document.resolve (localPointer keys) = .error (.ofProblem (.unknownReference (localPointer keys)))) ∧
      ∀ before value rest, keys = before ++ rest → rest ≠ [] → Descends document before value →
        (∀ members, value ≠ .object members) →
        document.resolve (localPointer keys) = .error (.ofProblem (.unknownReference (localPointer keys)))) ∧
    ∀ reference : String, ¬['#', '/'] <+: reference.toList →
      document.resolve reference = .error (.ofProblem (.unsupportedReference reference)) := by
  refine ⟨?_, fun reference => resolve_foreign⟩
  intro keys filled
  refine ⟨?_, ?_, ?_⟩
  · intro found
    rw [localPointer_eq filled, resolve_pointerTo filled, descends_iff]
  · intro nowhere
    apply resolve_unknown filled
    rw [Option.eq_none_iff_forall_ne_some]
    intro found followed
    exact nowhere ⟨found, descends_iff.mpr followed⟩
  · rintro before value rest rfl more descends barred
    exact resolve_unknown filled (follow?_barred descends barred more)

/-- Rows below keys that are written with escapes. -/
def ledgerDocument : Value :=
  .ofMembers [("a/b", .ofMembers [("~1", .ofMembers [("", .array [.int 7])])])]

theorem ledger_resolved :
    ["a/b", "~1", ""] ≠ [] ∧ Descends ledgerDocument ["a/b", "~1", ""] (.array [.int 7]) ∧
    localPointer ["a/b", "~1", ""] = "#/a~1b/~01/" ∧
    ledgerDocument.resolve "#/a~1b/~01/" = .ok (.array [.int 7]) ∧
    ledgerDocument.resolve "#/a~1b/~01//0" = .error (.ofProblem (.unknownReference "#/a~1b/~01//0")) ∧
    ¬['#', '/'] <+: "ledger.yaml#/a~1b".toList ∧
    ledgerDocument.resolve "ledger.yaml#/a~1b" =
      .error (.ofProblem (.unsupportedReference "ledger.yaml#/a~1b")) := by
  have rows : Descends ledgerDocument ["a/b", "~1", ""] (.array [.int 7]) := by
    refine descends_iff.mpr ?_
    simp [ledgerDocument, follow?, ofMembers, lookup, Entries.get?, same]
  have written : localPointer ["a/b", "~1", ""] = "#/a~1b/~01/" := by decide +kernel
  have writtenBelow : localPointer ["a/b", "~1", "", "0"] = "#/a~1b/~01//0" := by decide +kernel
  have foreign : ¬['#', '/'] <+: "ledger.yaml#/a~1b".toList := by decide +kernel
  obtain ⟨found, -, -⟩ := (resolve_localPointer ledgerDocument).1 ["a/b", "~1", ""] (by simp)
  obtain ⟨-, -, barred⟩ := (resolve_localPointer ledgerDocument).1 ["a/b", "~1", "", "0"] (by simp)
  refine ⟨by simp, rows, written, ?_, ?_, foreign, (resolve_localPointer ledgerDocument).2 _ foreign⟩
  · rw [← written]
    exact (found _).mpr rows
  · rw [← writtenBelow]
    exact barred ["a/b", "~1", ""] (.array [.int 7]) ["0"] rfl (by simp) rows (by simp)

end Value

end OpenApiClient
