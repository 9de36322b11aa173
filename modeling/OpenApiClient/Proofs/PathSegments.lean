import OpenApiClient.Proofs.RequestQueries

/-! The slashes of a request's URL. A value that is put into the path adds none. The slashes at the start of the
path are trimmed once the values are in it, so that an empty value there lets those that follow it be trimmed
too. -/

namespace OpenApiClient.Client

namespace Request

variable {request : Request} {values : List (String × String)}

def assigned (request : Request) (values : List (String × String)) : Request :=
  values.foldl (fun request entry => (request.setPathValue entry.1 (.string entry.2)).request) request

theorem assigned_eq_called (classes : Classes) :
    request.assigned values = request.called classes (values.map fun entry => .path entry.1 (.string entry.2)) := by
  rw [called, List.foldl_map]
  rfl

theorem setPathValue_text (key text : String) :
    (request.setPathValue key (.string text)).request =
      { request with pathValues := Entries.set key (Text.percentEncodeText text) request.pathValues } := by
  rfl

theorem assigned_query : (request.assigned values).query = request.query := by
  induction values generalizing request with
  | nil => rfl
  | cons entry rest ih =>
      rw [assigned, List.foldl_cons, setPathValue_text]
      exact ih

theorem assigned_pathValues (name : String) :
    Entries.find? name (request.assigned values).pathValues =
      ((Entries.find? name values.reverse).map Text.percentEncodeText).or
        (Entries.find? name request.pathValues) := by
  induction values generalizing request with
  | nil => rfl
  | cons entry rest ih =>
      rw [assigned, List.foldl_cons, ← assigned, ih, List.reverse_cons, Entries.find?_append]
      cases Entries.find? name rest.reverse with
      | some text => rfl
      | none =>
          rw [setPathValue_text]
          by_cases same : entry.1 = name
          · subst same
            have own : Entries.find? entry.1 [entry] = some entry.2 := by simp [Entries.find?, Entries.get?]
            rw [Entries.find?_set_self, own]
            rfl
          · have own : Entries.find? name [entry] = none := by simp [Entries.find?, Entries.get?, same]
            rw [Entries.find?_set_other (Ne.symm same), own]
            rfl

end Request

/-! Slashes that are trimmed and slashes that stay. -/

def leadingSlashes (values : String → Option String) : List TemplatePart → Nat
  | [] => 0
  | .letter c :: rest => if c = '/' then leadingSlashes values rest + 1 else 0
  | .placeholder name :: rest =>
      if values (String.ofList name) = some "" then leadingSlashes values rest else 0

theorem count_dropWhile (c : Char) (text : List Char) :
    (text.dropWhile (· == c)).count c + (text.takeWhile (· == c)).length = text.count c := by
  have taken : (text.takeWhile (· == c)).count c = (text.takeWhile (· == c)).length := by
    rw [List.count_eq_length]
    intro d member
    have same := List.mem_takeWhile_imp member
    simpa using Eq.symm (eq_of_beq same)
  have whole : text.count c = (text.takeWhile (· == c)).count c + (text.dropWhile (· == c)).count c := by
    rw [← List.count_append, List.takeWhile_append_dropWhile]
  omega

section Filling

variable {values written : String → Option String} {parts : List TemplatePart}

theorem filled_slashless (encoded : ∀ name, written name = (values name).map Text.percentEncodeText)
    (name : List Char) : '/' ∉ (TemplatePart.placeholder name).filled written := by
  rw [TemplatePart.filled, encoded]
  cases values (String.ofList name) with
  | none => simp
  | some text =>
      simp only [Option.map_some, Option.getD_some, Text.percentEncodeText, String.toList_ofList]
      exact not_mem_percentEncode List.mem_cons_self _

/-- The slashes of a path are those of its template. -/
theorem count_filled (encoded : ∀ name, written name = (values name).map Text.percentEncodeText)
    (parts : List TemplatePart) :
    (parts.flatMap (TemplatePart.filled written)).count '/' = parts.count (.letter '/') := by
  induction parts with
  | nil => rfl
  | cons part rest ih =>
      rw [List.flatMap_cons, List.count_append, ih, List.count_cons]
      cases part with
      | letter c =>
          have own : ((TemplatePart.letter c).filled written).count '/' = if c = '/' then 1 else 0 := by
            simp [TemplatePart.filled, List.count_singleton]
          rw [own, Nat.add_comm]
          simp
      | placeholder name =>
          have own := List.count_eq_zero_of_not_mem (filled_slashless encoded name)
          simp [own]

theorem percentCharacter_ne_nil (c : Char) : Text.percentCharacter c ≠ [] := by
  rw [Text.percentCharacter]
  split
  · exact List.cons_ne_nil _ _
  · have filled : String.utf8EncodeChar c ≠ [] := String.utf8EncodeChar_ne_nil
    obtain ⟨octet, rest, shape⟩ := List.exists_cons_of_ne_nil filled
    rw [shape]
    exact List.cons_ne_nil _ _

theorem percentEncode_nil {text : String} : Text.percentEncode text.toList = [] ↔ text = "" := by
  rw [Text.percentEncode, List.flatMap_eq_nil_iff, ← String.toList_eq_nil_iff]
  constructor
  · intro blank
    cases shape : text.toList with
    | nil => rfl
    | cons c rest => exact absurd (blank c (shape ▸ List.mem_cons_self)) (percentCharacter_ne_nil c)
  · intro empty
    simp [empty]

theorem leading_filled (encoded : ∀ name, written name = (values name).map Text.percentEncodeText)
    (given : ∀ name ∈ placeholders parts, (values name).isSome = true) :
    ((parts.flatMap (TemplatePart.filled written)).takeWhile (· == '/')).length = leadingSlashes values parts := by
  induction parts with
  | nil => rfl
  | cons part rest ih =>
      rw [List.flatMap_cons]
      cases part with
      | letter c =>
          have later := ih given
          by_cases slash : c = '/'
          · simp [TemplatePart.filled, leadingSlashes, slash, later]
          · simp [TemplatePart.filled, leadingSlashes, slash]
      | placeholder name =>
          obtain ⟨own, others⟩ := List.forall_mem_cons.mp given
          obtain ⟨text, found⟩ := Option.isSome_iff_exists.mp own
          have later := ih others
          have filled : (TemplatePart.placeholder name).filled written = Text.percentEncode text.toList := by
            simp [TemplatePart.filled, encoded, found, Text.percentEncodeText]
          by_cases empty : text = ""
          · rw [filled, percentEncode_nil.mpr empty, List.nil_append, later]
            simp [leadingSlashes, found, empty]
          · have slashless := filled_slashless encoded name
            rw [filled] at slashless ⊢
            obtain ⟨c, rest, shape⟩ := List.exists_cons_of_ne_nil (mt percentEncode_nil.mp empty)
            have first : c ≠ '/' := by
              rintro rfl
              exact slashless (shape ▸ List.mem_cons_self)
            rw [shape, List.cons_append]
            simp [leadingSlashes, found, empty, first]

end Filling

/-! The URL of a request whose path has texts for values. -/

namespace Request

variable {request : Request} {values : List (String × String)} {parts : List TemplatePart}

def lastSet (values : List (String × String)) (name : String) : Option String := Entries.find? name values.reverse

theorem lastSet_isSome {name : String} (given : ∃ entry ∈ values, entry.1 = name) :
    (lastSet values name).isSome = true := by
  obtain ⟨entry, member, named⟩ := given
  cases found : lastSet values name with
  | some text => rfl
  | none => exact absurd named (Entries.find?_eq_none.mp found entry (List.mem_reverse.mpr member))

/-- The URL has the slashes of the server and of the template, less those that are trimmed. -/
theorem address_slashes (request : Request) (path : String) :
    (request.address path).count '/' + (path.toList.takeWhile (· == '/')).length =
      (request.serverUrl.toList.reverse.dropWhile (· == '/')).count '/' + 1 + path.toList.count '/' := by
  have kept := count_dropWhile '/' path.toList
  rw [address, List.count_append, List.count_reverse, List.count_cons_self]
  omega

theorem assigned_encoded {method server template : String} :
    ((start method server template).assigned values).Encoded := by
  rw [assigned_eq_called ⟨[]⟩]
  exact called_encoded start_encoded

theorem assigned_serverUrl : (request.assigned values).serverUrl = request.serverUrl := by
  rw [assigned_eq_called ⟨[]⟩, called_serverUrl]

theorem assigned_pathTemplate : (request.assigned values).pathTemplate = request.pathTemplate := by
  rw [assigned_eq_called ⟨[]⟩, called_pathTemplate]

variable {method server template : String}

/-- A request that has a text for each placeholder has a URL, with the slashes of the server and of the template
less those that are trimmed, and with no question mark or number sign that they do not have. -/
theorem assigned_url (isTemplate : IsTemplate template.toList parts)
    (given : ∀ name ∈ placeholders parts, ∃ entry ∈ values, entry.1 = name) :
    ∃ url, ((start method server template).assigned values).url = .ok url ∧
      (∀ mark ∈ ['?', '#'], mark ∉ server.toList → mark ∉ template.toList → mark ∉ url.toList) ∧
      url.toList.count '/' + leadingSlashes (lastSet values) parts =
        (server.toList.reverse.dropWhile (· == '/')).count '/' + 1 + parts.count (.letter '/') := by
  generalize made : (start method server template).assigned values = request
  have served : request.serverUrl = server := by rw [← made, assigned_serverUrl, start]
  have located : request.pathTemplate = template := by rw [← made, assigned_pathTemplate, start]
  have queryless : request.query = [] := by rw [← made, assigned_query, start]
  have encoded : request.Encoded := made ▸ assigned_encoded
  have written : ∀ name, Entries.find? name request.pathValues =
      (lastSet values name).map Text.percentEncodeText := by
    intro name
    rw [← made, assigned_pathValues, lastSet]
    cases Entries.find? name values.reverse <;> rfl
  have every : ∀ name ∈ placeholders parts, (lastSet values name).isSome = true :=
    fun name member => lastSet_isSome (given name member)
  have present : ∀ name ∈ placeholders parts, (Entries.find? name request.pathValues).isSome = true := by
    intro name member
    rw [written, Option.isSome_map]
    exact every name member
  subst served located
  have resolved := resolveTemplate_fill isTemplate present
  refine ⟨_, url_ok_iff.mpr ⟨_, resolved, String.toList_ofList⟩, ?_, ?_⟩
  · intro mark special inServer inTemplate
    rw [String.toList_ofList, queryPart, queryless]
    simpa using not_mem_address encoded resolved special inServer inTemplate
  · have slashes := address_slashes request
      (fill (fun name => Entries.find? name request.pathValues) parts)
    have counted := count_filled written parts
    have leading := leading_filled written every
    rw [fill, String.toList_ofList, counted, leading] at slashes
    rw [String.toList_ofList, queryPart, queryless, fill]
    simpa using slashes

end Request

/-- With any texts for the values the URL has the same slashes exactly if as many are trimmed. It has no question
mark and no number sign. -/
theorem same_slashes_iff {method server template : String} {parts : List TemplatePart}
    {first second : List (String × String)} (isTemplate : IsTemplate template.toList parts)
    (plainServer : ∀ mark ∈ ['?', '#'], mark ∉ server.toList)
    (plainTemplate : ∀ mark ∈ ['?', '#'], mark ∉ template.toList)
    (given : ∀ name ∈ placeholders parts,
      (∃ entry ∈ first, entry.1 = name) ∧ ∃ entry ∈ second, entry.1 = name) :
    ∃ one other, ((Request.start method server template).assigned first).url = .ok one ∧
      ((Request.start method server template).assigned second).url = .ok other ∧
      (∀ mark ∈ ['?', '#'], mark ∉ one.toList ∧ mark ∉ other.toList) ∧
      (one.toList.count '/' = other.toList.count '/' ↔
        leadingSlashes (Request.lastSet first) parts = leadingSlashes (Request.lastSet second) parts) := by
  obtain ⟨one, madeOne, markless, slashes⟩ := Request.assigned_url isTemplate fun name member => (given name member).1
  obtain ⟨other, madeOther, otherMarkless, otherSlashes⟩ :=
    Request.assigned_url isTemplate fun name member => (given name member).2
  refine ⟨one, other, madeOne, madeOther, ?_, ?_⟩
  · intro mark special
    have server := plainServer mark special
    have template := plainTemplate mark special
    exact ⟨markless mark special server template, otherMarkless mark special server template⟩
  · -- Both sums of what is kept and what is trimmed are the same.
    constructor
    · intro same
      omega
    · intro same
      omega

def fileTemplate : List TemplatePart :=
  [.letter '/', .placeholder "user".toList] ++ "/files/".toList.map .letter ++ [.placeholder "name".toList]

theorem fileTemplate_isTemplate : IsTemplate "/{user}/files/{name}".toList fileTemplate := by
  refine ⟨by decide, ?_⟩
  simp [fileTemplate, TemplatePart.Plain]

/-- A user's name that looks like a path and a file without a name leave the URL its slashes. -/
theorem fileTemplate_slashes :
    IsTemplate "/{user}/files/{name}".toList fileTemplate ∧
    (∀ mark ∈ ['?', '#'], mark ∉ "https://api.test/v1/".toList ∧ mark ∉ "/{user}/files/{name}".toList) ∧
    (∀ name ∈ placeholders fileTemplate, (∃ entry ∈ [("user", "../?q#x"), ("name", "")], entry.1 = name) ∧
      ∃ entry ∈ [("name", "a/b"), ("user", "é"), ("name", "{user}")], entry.1 = name) ∧
    ∃ one other,
      ((Request.start "get" "https://api.test/v1/" "/{user}/files/{name}").assigned
        [("user", "../?q#x"), ("name", "")]).url = .ok one ∧
      ((Request.start "get" "https://api.test/v1/" "/{user}/files/{name}").assigned
        [("name", "a/b"), ("user", "é"), ("name", "{user}")]).url = .ok other ∧
      (∀ mark ∈ ['?', '#'], mark ∉ one.toList ∧ mark ∉ other.toList) ∧
      one.toList.count '/' = other.toList.count '/' := by
  have plain : ∀ mark ∈ ['?', '#'],
      mark ∉ "https://api.test/v1/".toList ∧ mark ∉ "/{user}/files/{name}".toList := by
    rw [List.forall_mem_cons, List.forall_mem_singleton]
    decide
  have given : ∀ name ∈ placeholders fileTemplate,
      (∃ entry ∈ [("user", "../?q#x"), ("name", "")], entry.1 = name) ∧
        ∃ entry ∈ [("name", "a/b"), ("user", "é"), ("name", "{user}")], entry.1 = name := by
    decide +kernel
  obtain ⟨one, other, madeOne, madeOther, markless, same⟩ := same_slashes_iff fileTemplate_isTemplate
    (fun mark special => (plain mark special).1) (fun mark special => (plain mark special).2) given
  refine ⟨fileTemplate_isTemplate, plain, given, one, other, madeOne, madeOther, markless, same.mpr ?_⟩
  decide +kernel

/-- Without a name, the slash that follows the name is trimmed, and what was the second segment is the first. -/
theorem empty_name_trims :
    ∃ parts one other, IsTemplate "/{name}/files".toList parts ∧
      (∀ mark ∈ ['?', '#'], mark ∉ "https://api.test".toList ∧ mark ∉ "/{name}/files".toList) ∧
      placeholders parts = ["name"] ∧
      ((Request.start "get" "https://api.test" "/{name}/files").assigned [("name", "")]).url = .ok one ∧
      ((Request.start "get" "https://api.test" "/{name}/files").assigned [("name", "x")]).url = .ok other ∧
      one = "https://api.test/files" ∧ other = "https://api.test/x/files" ∧
      one.toList.count '/' ≠ other.toList.count '/' := by
  have plain : ∀ mark ∈ ['?', '#'],
      mark ∉ "https://api.test".toList ∧ mark ∉ "/{name}/files".toList := by
    rw [List.forall_mem_cons, List.forall_mem_singleton]
    decide
  have bare : ((Request.start "get" "https://api.test" "/{name}/files").assigned [("name", "")]).url =
      .ok "https://api.test/files" :=
    Request.url_ok_iff.mpr ⟨"//files", by decide +kernel, by decide +kernel⟩
  have named : ((Request.start "get" "https://api.test" "/{name}/files").assigned [("name", "x")]).url =
      .ok "https://api.test/x/files" :=
    Request.url_ok_iff.mpr ⟨"/x/files", by decide +kernel, by decide +kernel⟩
  refine ⟨[.letter '/', .placeholder "name".toList] ++ "/files".toList.map .letter, _, _, ⟨by decide, ?_⟩,
    plain, by decide +kernel, bare, named, rfl, rfl, by decide⟩
  simp [TemplatePart.Plain]

end OpenApiClient.Client
