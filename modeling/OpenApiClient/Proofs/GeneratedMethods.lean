import OpenApiClient.Package.Plan
import OpenApiClient.Proofs.MethodNames
import OpenApiClient.Proofs.ServerUrls

/-! The methods that choose an authentication and those that set a variable of the server. They are called after
the names that the document gives these; where two of the names are the same in snake case, the second method
takes the place of the first. -/

namespace OpenApiClient

def ToldApart (names : List String) : Prop :=
  names.Pairwise fun first second =>
    ¬Naming.Coincide (Naming.sanitizeSegment first) (Naming.sanitizeSegment second)

instance (names : List String) : Decidable (ToldApart names) := inferInstanceAs (Decidable (names.Pairwise _))

theorem methodNames_nodup_iff {start : String} {names : List String} :
    (names.map fun name => start ++ Naming.methodName name).Nodup ↔ ToldApart names := by
  simp only [ToldApart, List.Nodup, List.pairwise_map, ne_eq, String.append_right_inj, Naming.methodName_eq_iff]

/-! Configurators. -/

namespace SecurityScheme

def isSupported (scheme : SecurityScheme) : Bool :=
  match scheme.httpKind?, scheme.type with
  | some _, _ => true
  | none, .string "apiKey" => true
  | none, _ => false

end SecurityScheme

namespace SecurityConfigurator

structure IsFor (scheme : SecurityScheme) (configurator : SecurityConfigurator) : Prop where
  named : scheme.name = .string configurator.schemeName
  called : configurator.methodName = "configure_" ++ Naming.methodName configurator.schemeName

end SecurityConfigurator

namespace SecurityScheme

variable {scheme : SecurityScheme} {name : String}

theorem httpConfigurator_isFor {kind : Authentication} {made : SecurityConfigurator}
    (named : scheme.name = .string name) (done : scheme.httpConfigurator name kind = .ok made) :
    made.IsFor scheme := by
  obtain ⟨lines, -, done⟩ := except_bind_ok.mp done
  obtain rfl := except_pure_ok.mp done
  exact ⟨named, rfl⟩

/-- The scheme of an API key is refused, under its name, or there is nothing left to fail but its wording. -/
theorem apiKeyConfigurator_cases (scheme : SecurityScheme) (name : String) :
    (∃ problem, scheme.apiKeyConfigurator name = .error (malformed name problem)) ∨
      ∃ otherwise, scheme.apiKeyConfigurator name =
        liftM (scheme.docLines otherwise) >>= fun docLines =>
          pure ⟨name, "configure_" ++ Naming.methodName name, .apiKey, scheme.location.display,
            scheme.parameterName, docLines⟩ := by
  unfold apiKeyConfigurator
  by_cases located : scheme.location.truth = true
  · by_cases worded : scheme.parameterName.truth = true
    · by_cases known : (apiKeyLocations.any fun known => scheme.location.same (.string known)) = true
      · right
        simp only [located, worded, known]
        exact ⟨_, rfl⟩
      · left
        simp only [located, worded, known]
        exact ⟨_, rfl⟩
    · left
      simp only [located, worded]
      exact ⟨_, rfl⟩
  · left
    simp only [located]
    exact ⟨_, rfl⟩

theorem apiKeyConfigurator_isFor {made : SecurityConfigurator} (named : scheme.name = .string name)
    (done : scheme.apiKeyConfigurator name = .ok made) : made.IsFor scheme := by
  rcases apiKeyConfigurator_cases scheme name with ⟨problem, refused⟩ | ⟨otherwise, same⟩
  · rw [refused] at done
    cases done
  · rw [same] at done
    obtain ⟨lines, -, done⟩ := except_bind_ok.mp done
    obtain rfl := except_pure_ok.mp done
    exact ⟨named, rfl⟩

/-- A scheme has a configurator of its own when it is supported, and none otherwise. -/
theorem configurator?_ok {found : Option SecurityConfigurator} (done : scheme.configurator?.result = .ok found) :
    if scheme.isSupported then ∃ made, found = some made ∧ made.IsFor scheme else found = none := by
  obtain ⟨name, read, done⟩ := Traced.bind_ok.mp done
  have named : scheme.name = .string name := Value.asPattern_ok.mp (Traced.liftMalformed_ok.mp read)
  split at done
  · rename_i kind _ http
    have supported : scheme.isSupported = true := by simp [isSupported, http]
    obtain ⟨made, own, same⟩ := Traced.bind_ok.mp done
    obtain rfl := Traced.pure_ok.mp same
    rw [if_pos supported]
    exact ⟨made, rfl, httpConfigurator_isFor named own⟩
  · rename_i http key
    have supported : scheme.isSupported = true := by simp [isSupported, http, key]
    obtain ⟨made, own, same⟩ := Traced.bind_ok.mp done
    obtain rfl := Traced.pure_ok.mp same
    rw [if_pos supported]
    exact ⟨made, rfl, apiKeyConfigurator_isFor named own⟩
  · rename_i http keyless
    have unsupported : ¬scheme.isSupported = true := by
      unfold isSupported
      split
      · rename_i own
        cases http.symm.trans own
      · rename_i key
        exact absurd key keyless
      · simp
    obtain ⟨_, -, done⟩ := Traced.bind_ok.mp done
    rw [if_neg unsupported]
    exact (Traced.pure_ok.mp done).symm

end SecurityScheme

theorem configurators_ok {schemes : List SecurityScheme} {made : List SecurityConfigurator}
    (done : (configurators schemes).result = .ok made) :
    List.Forall₂ SecurityConfigurator.IsFor (schemes.filter SecurityScheme.isSupported) made := by
  induction schemes generalizing made with
  | nil =>
      obtain rfl := Traced.pure_ok.mp done
      exact .nil
  | cons scheme rest ih =>
      obtain ⟨first, own, done⟩ := Traced.bind_ok.mp done
      obtain ⟨others, later, done⟩ := Traced.bind_ok.mp done
      obtain rfl := Traced.pure_ok.mp done
      have head := SecurityScheme.configurator?_ok own
      split at head
      · rename_i supported
        obtain ⟨configurator, rfl, isFor⟩ := head
        rw [List.filter_cons_of_pos supported]
        exact .cons isFor (ih later)
      · rename_i unsupported
        obtain rfl := head
        rw [List.filter_cons_of_neg unsupported]
        exact ih later

theorem configurators_methods {schemes : List SecurityScheme} {made : List SecurityConfigurator}
    (done : (configurators schemes).result = .ok made) :
    (schemes.filter SecurityScheme.isSupported).map SecurityScheme.name =
        made.map (fun configurator => .string configurator.schemeName) ∧
      ((made.map SecurityConfigurator.methodName).Nodup ↔
        ToldApart (made.map SecurityConfigurator.schemeName)) := by
  have each := configurators_ok done
  refine ⟨map_eq_of_forall₂ (each.imp fun _ _ isFor => isFor.named), ?_⟩
  have called : made.map SecurityConfigurator.methodName =
      (made.map SecurityConfigurator.schemeName).map fun name => "configure_" ++ Naming.methodName name := by
    rw [List.map_map]
    refine List.map_congr_left fun configurator member => ?_
    obtain ⟨scheme, -, isFor⟩ := forall₂_of_mem_right each member
    exact isFor.called
  rw [called, methodNames_nodup_iff]

/-! Setters. -/

theorem serverParameter_setter {name : Value} {variable_ : ServerVariable} {parameter : ServerParameter}
    (made : serverParameter name variable_ = .ok parameter) :
    parameter.setter = "set_param_" ++ Naming.methodName parameter.name := by
  obtain ⟨described, -, made⟩ := except_bind_ok.mp made
  obtain ⟨text, -, same⟩ := except_bind_ok.mp made
  obtain rfl := except_pure_ok.mp same
  rfl

theorem chooseServer_setters {servers : List Server} {choice : ServerChoice}
    (chosen : (chooseServer servers).result = .ok choice) :
    (firstServer servers).placeholders.map Prod.fst =
        choice.parameters.map (fun parameter => .string parameter.name) ∧
      ((choice.parameters.map ServerParameter.setter).Nodup ↔
        ToldApart (choice.parameters.map ServerParameter.name)) := by
  have each := (chooseServer_ok_iff.mp chosen).2.2
  refine ⟨map_eq_of_forall₂ (each.imp fun _ _ made => (serverParameter_ok made).1), ?_⟩
  have called : choice.parameters.map ServerParameter.setter =
      (choice.parameters.map ServerParameter.name).map fun name => "set_param_" ++ Naming.methodName name := by
    rw [List.map_map]
    refine List.map_congr_left fun parameter member => ?_
    obtain ⟨variable_, -, made⟩ := forall₂_of_mem_right each member
    exact serverParameter_setter made
  rw [called, methodNames_nodup_iff]

/-- The configurators of a document are called after its supported schemes, the setters after the variables of its
first server. These are told apart by their names, and their methods by the names in snake case. -/
theorem documentMethods_distinct_iff (document : ApiDocument) :
    (∀ made, (configurators (document.securitySchemes.map Prod.snd)).result = .ok made →
      ((document.securitySchemes.map Prod.snd).filter SecurityScheme.isSupported).map SecurityScheme.name =
          made.map (fun configurator => .string configurator.schemeName) ∧
        ((made.map SecurityConfigurator.methodName).Nodup ↔
          ToldApart (made.map SecurityConfigurator.schemeName))) ∧
    ∀ choice, (chooseServer document.servers).result = .ok choice →
      (firstServer document.servers).placeholders.map Prod.fst =
          choice.parameters.map (fun parameter => .string parameter.name) ∧
        ((choice.parameters.map ServerParameter.setter).Nodup ↔
          ToldApart (choice.parameters.map ServerParameter.name)) :=
  ⟨fun _ done => configurators_methods done, fun _ chosen => chooseServer_setters chosen⟩

/-- Two bearer tokens, and two variables of the server with the same names. -/
def vaultDocument (first second : String) : ApiDocument where
  title := .string "Vault"
  version := "1"
  schemas := []
  distinctSchemas := Entries.distinct_nil Value.same
  operations := []
  securitySchemes := [first, second].map fun name => (.string name, {
    name := .string name
    type := .string "http"
    scheme := .string "bearer"
  })
  servers := [{
    url := .string "https://vault.test"
    placeholders := [first, second].map fun name => (.string name, { default := "main" })
  }]

theorem vaultDocument_made (first second : String) : ∃ made choice,
    (configurators ((vaultDocument first second).securitySchemes.map Prod.snd)).result = .ok made ∧
      made.map SecurityConfigurator.schemeName = [first, second] ∧
      (chooseServer (vaultDocument first second).servers).result = .ok choice ∧
      choice.parameters.map ServerParameter.name = [first, second] :=
  ⟨_, _, rfl, rfl, rfl, rfl⟩

theorem vaultDocument_distinct : ∃ made choice,
    (configurators ((vaultDocument "userToken" "adminToken").securitySchemes.map Prod.snd)).result = .ok made ∧
      (chooseServer (vaultDocument "userToken" "adminToken").servers).result = .ok choice ∧
      (made.map SecurityConfigurator.methodName).Nodup ∧ (choice.parameters.map ServerParameter.setter).Nodup := by
  obtain ⟨made, choice, done, schemes, chosen, placeholders⟩ := vaultDocument_made "userToken" "adminToken"
  obtain ⟨configured, set⟩ := documentMethods_distinct_iff (vaultDocument "userToken" "adminToken")
  refine ⟨made, choice, done, chosen, (configured made done).2.mpr ?_, (set choice chosen).2.mpr ?_⟩
  · rw [schemes]
    decide +kernel
  · rw [placeholders]
    decide +kernel

/-- Two names that are one in snake case give two methods of one name. -/
theorem vaultDocument_replaced : ∃ made choice,
    (configurators ((vaultDocument "userToken" "user_token").securitySchemes.map Prod.snd)).result = .ok made ∧
      made.map SecurityConfigurator.methodName = ["configure_user_token", "configure_user_token"] ∧
      ¬(made.map SecurityConfigurator.methodName).Nodup ∧
      (chooseServer (vaultDocument "userToken" "user_token").servers).result = .ok choice ∧
      choice.parameters.map ServerParameter.setter = ["set_param_user_token", "set_param_user_token"] ∧
      ¬(choice.parameters.map ServerParameter.setter).Nodup := by
  obtain ⟨made, choice, done, methods, chosen, setters⟩ : ∃ made choice,
      (configurators ((vaultDocument "userToken" "user_token").securitySchemes.map Prod.snd)).result = .ok made ∧
        made.map SecurityConfigurator.methodName = ["configure_user_token", "configure_user_token"] ∧
        (chooseServer (vaultDocument "userToken" "user_token").servers).result = .ok choice ∧
        choice.parameters.map ServerParameter.setter = ["set_param_user_token", "set_param_user_token"] :=
    ⟨_, _, rfl, rfl, rfl, rfl⟩
  refine ⟨made, choice, done, methods, ?_, chosen, setters, ?_⟩
  · rw [methods]
    decide
  · rw [setters]
    decide

end OpenApiClient
