import OpenApiClient.Client.ServerAddress
import OpenApiClient.Proofs.Operations
import OpenApiClient.Proofs.Rendering
import OpenApiClient.Proofs.UrlTemplates

/-! The addresses that methods send their requests to. The template is that of the first server of an operation,
or else of the document; the values in it are always the defaults of the first server of the document. -/

namespace OpenApiClient

open InScope

namespace Client.ServerAddresses

variable (addresses : ServerAddresses) (name parent template : String) (values : List (String × String))

theorem setting?_own {α : Type} (lineage : Lineage) (settings : List (String × α)) (setting : α) :
    Lineage.setting? ((name, parent) :: lineage) (Entries.set name setting settings) name = some setting := by
  have found := Entries.find?_set_self name setting settings
  simp [Lineage.setting?, Lineage.owner?, Lineage.upward, found]

theorem resolve_declared (given : Option String) :
    (addresses.declare name parent (some template) (some values)).resolve name given =
      resolveTemplate (if given.getD "" = "" then template else given.getD "") values := by
  have ownTemplate :
      (addresses.declare name parent (some template) (some values)).template name = template := by
    simp [ServerAddresses.template, declare, setting?_own]
  have ownValues : (addresses.declare name parent (some template) (some values)).valuesOf name = values := by
    simp [valuesOf, declare, setting?_own]
  rw [resolve, ownValues]
  cases given with
  | none => simp [chosenTemplate, ownTemplate]
  | some text => simp [chosenTemplate, ownTemplate]

end Client.ServerAddresses

namespace Server

def default? (server : Server) (name : String) : Option String :=
  (Entries.get? Value.same (.string name) server.placeholders).map ServerVariable.default

/-- The URL of the server is a template with balanced braces, which is not empty and has no placeholders but the
variables of the server. -/
structure IsSound (server : Server) (template : String) (parts : List Client.TemplatePart) : Prop where
  url : server.url = .string template
  filled : template ≠ ""
  balanced : Client.IsTemplate template.toList parts
  declared : ∀ name ∈ Client.placeholders parts, (server.default? name).isSome = true

def IsWorded (server : Server) : Prop :=
  ∀ entry ∈ server.placeholders, (∃ name, entry.1 = .string name) ∧ entry.2.description.IsWording

end Server

def firstServer (servers : List Server) : Server := servers.head?.getD { url := .string "/" }

def ApiDocument.serverOf (document : ApiDocument) (operation : Operation) : Server :=
  operation.servers.head?.getD (firstServer document.servers)

namespace ServerChoice

def defaults (choice : ServerChoice) : List (String × String) :=
  choice.parameters.map fun parameter => (parameter.name, parameter.default)

def addresses (choice : ServerChoice) : Client.ServerAddresses :=
  Client.ServerAddresses.start.declare "Servers" Client.addressBase (some choice.url.display)
    (some choice.defaults)

def urlFor (choice : ServerChoice) (method : OperationMethod) : Except Client.TemplateFault String :=
  choice.addresses.resolve "Servers"
    (if method.serverUrl.truth then some method.serverUrl.display else none)

end ServerChoice

section Choosing

variable {servers : List Server} {choice : ServerChoice}

theorem serverParameter_ok {name : Value} {variable_ : ServerVariable} {parameter : ServerParameter}
    (made : serverParameter name variable_ = .ok parameter) :
    name = .string parameter.name ∧ parameter.default = variable_.default := by
  obtain ⟨described, -, made⟩ := except_bind_ok.mp made
  obtain ⟨text, read, same⟩ := except_bind_ok.mp made
  obtain rfl := except_pure_ok.mp same
  exact ⟨Value.asPattern_ok.mp read, rfl⟩

theorem serverParameter_succeeds {name : Value} {variable_ : ServerVariable} :
    Succeeds (serverParameter name variable_) ↔
      (∃ text, name = .string text) ∧ variable_.description.IsWording := by
  have named : Succeeds name.asPattern ↔ ∃ text, name = .string text := by
    simp only [Succeeds, Value.asPattern_ok]
  rw [serverParameter, succeeds_bind fun described => succeeds_bind_pure, Value.wrapped_succeeds, named]
  exact and_comm

theorem chooseServer_ok_iff :
    (chooseServer servers).result = .ok choice ↔
      choice.url = (firstServer servers).url ∧ choice.description = (firstServer servers).description ∧
        List.Forall₂ (fun entry parameter => serverParameter entry.1 entry.2 = .ok parameter)
          (firstServer servers).placeholders choice.parameters := by
  cases servers with
  | nil =>
      rw [chooseServer, Traced.pure_ok]
      obtain ⟨url, description, parameters⟩ := choice
      simp [firstServer, eq_comm]
  | cons server others =>
      have made : (do
          let parameters ← server.placeholders.mapM fun entry => serverParameter entry.1 entry.2
          pure ⟨server.url, server.description, parameters⟩ : Traced ServerChoice).result = .ok choice ↔
          choice.url = server.url ∧ choice.description = server.description ∧
            List.Forall₂ (fun entry parameter => serverParameter entry.1 entry.2 = .ok parameter)
              server.placeholders choice.parameters := by
        simp only [Traced.bind_ok, Traced.mapM_ok_iff, Traced.liftMalformed_ok, Traced.pure_ok]
        constructor
        · rintro ⟨parameters, each, rfl⟩
          exact ⟨rfl, rfl, each⟩
        · rintro ⟨url, description, each⟩
          exact ⟨choice.parameters, each, by rw [← url, ← description]⟩
      rw [chooseServer]
      split
      · rw [Traced.result_bind]
        exact made
      · exact made

theorem chooseServer_succeeds : Succeeds (chooseServer servers).result ↔ (firstServer servers).IsWorded := by
  have each : (firstServer servers).IsWorded ↔
      Succeeds ((firstServer servers).placeholders.mapM fun entry => serverParameter entry.1 entry.2) := by
    rw [succeeds_mapM]
    exact forall₂_congr fun entry _ => serverParameter_succeeds.symm
  rw [each]
  constructor
  · rintro ⟨choice, chosen⟩
    exact ⟨choice.parameters, (mapM_ok_iff _ _ _).mpr (chooseServer_ok_iff.mp chosen).2.2⟩
  · rintro ⟨parameters, made⟩
    exact ⟨⟨_, _, parameters⟩, chooseServer_ok_iff.mpr ⟨rfl, rfl, (mapM_ok_iff _ _ _).mp made⟩⟩

theorem find?_defaults (chosen : (chooseServer servers).result = .ok choice) (name : String) :
    Entries.find? name choice.defaults = (firstServer servers).default? name := by
  obtain ⟨-, -, made⟩ := chooseServer_ok_iff.mp chosen
  unfold ServerChoice.defaults Server.default?
  generalize (firstServer servers).placeholders = entries at made
  generalize choice.parameters = parameters at made
  induction made with
  | nil => rfl
  | @cons entry parameter rest others first _ ih =>
      obtain ⟨named, default⟩ := serverParameter_ok first
      simp only [List.map_cons, Entries.find?, Entries.get?, named, Value.same]
      split
      · rw [default]
        rfl
      · exact ih

end Choosing

section Calling

variable {document : ApiDocument} {choice : ServerChoice} {context : OperationContext} {operation : Operation}
  {given : Option Value} {scope after : NamingScope} {method : OperationMethod} {template : String}
  {parts : List Client.TemplatePart}

theorem urlFor_eq (chosen : (chooseServer document.servers).result = .ok choice)
    (compiled : Yields (context.compile operation given) scope method after)
    (sound : (document.serverOf operation).IsSound template parts) :
    choice.urlFor method = Client.resolveTemplate template choice.defaults := by
  obtain ⟨_, _, _, _, _, _, -, -, -, -, -, -, -, -, serverUrl⟩ := OperationContext.compile_yields compiled
  rw [ServerChoice.urlFor, ServerChoice.addresses, Client.ServerAddresses.resolve_declared]
  have url := sound.url
  unfold ApiDocument.serverOf at url
  -- A method without a URL of its own leaves the choice to the class, whose template is that of the document.
  cases first : operation.servers.head? with
  | none =>
      rw [first, Option.map_none, Option.getD_none] at serverUrl
      rw [first, Option.getD_none, ← (chooseServer_ok_iff.mp chosen).1] at url
      simp [serverUrl, url, Value.truth, Value.display]
  | some server =>
      rw [first, Option.map_some, Option.getD_some] at serverUrl
      rw [first, Option.getD_some] at url
      simp [serverUrl, url, Value.truth, Value.display, sound.filled]

theorem urlFor_ok_iff (chosen : (chooseServer document.servers).result = .ok choice)
    (compiled : Yields (context.compile operation given) scope method after)
    (sound : (document.serverOf operation).IsSound template parts) (text : String) :
    choice.urlFor method = .ok text ↔
      (∀ name ∈ Client.placeholders parts, ((firstServer document.servers).default? name).isSome = true) ∧
        Client.fill (firstServer document.servers).default? parts = text := by
  have values : (fun name => Entries.find? name choice.defaults) = (firstServer document.servers).default? :=
    funext (find?_defaults chosen)
  have filled : (∀ name ∈ Client.placeholders parts,
      ((firstServer document.servers).default? name).isSome = true) →
      choice.urlFor method = .ok (Client.fill (firstServer document.servers).default? parts) := by
    intro declared
    simp only [← find?_defaults chosen] at declared
    rw [urlFor_eq chosen compiled sound, Client.resolveTemplate_fill sound.balanced declared, values]
  constructor
  · intro resolved
    have declared : ∀ name ∈ Client.placeholders parts,
        ((firstServer document.servers).default? name).isSome = true := by
      rw [urlFor_eq chosen compiled sound] at resolved
      simpa only [find?_defaults chosen] using
        (Client.resolveTemplate_succeeds sound.balanced).mp ⟨text, resolved⟩
    exact ⟨declared, Except.ok.inj ((filled declared).symm.trans resolved)⟩
  · rintro ⟨declared, rfl⟩
    exact filled declared

/-- A URL that is not resolved has a variable that its own server declares and the document does not. -/
theorem urlFor_fault (chosen : (chooseServer document.servers).result = .ok choice)
    (compiled : Yields (context.compile operation given) scope method after)
    (sound : (document.serverOf operation).IsSound template parts) {fault : Client.TemplateFault}
    (failed : choice.urlFor method = .error fault) :
    ∃ name ∈ Client.placeholders parts, ((document.serverOf operation).default? name).isSome = true ∧
      (firstServer document.servers).default? name = none ∧ fault = .missingValue name := by
  rw [urlFor_eq chosen compiled sound] at failed
  obtain ⟨name, among, missing, same⟩ := Client.resolveTemplate_fault sound.balanced failed
  rw [find?_defaults chosen] at missing
  exact ⟨name, among, sound.declared name among, missing, same⟩

/-- An operation without servers of its own is reached at the first server of the document. -/
theorem urlFor_shared (chosen : (chooseServer document.servers).result = .ok choice)
    (compiled : Yields (context.compile operation given) scope method after)
    (sound : (firstServer document.servers).IsSound template parts) (shared : operation.servers = []) :
    choice.urlFor method = .ok (Client.fill (firstServer document.servers).default? parts) := by
  have same : document.serverOf operation = firstServer document.servers := by
    rw [ApiDocument.serverOf, shared]
    rfl
  exact (urlFor_ok_iff chosen compiled (same ▸ sound) _).mpr ⟨sound.declared, rfl⟩

/-- A method is sent to its own server with the defaults of that server exactly when the first server of the
document declares the same variables and they come to the same text. -/
theorem urlFor_own_iff (compiled : Yields (context.compile operation given) scope method after)
    (sound : (document.serverOf operation).IsSound template parts) :
    (∃ choice, (chooseServer document.servers).result = .ok choice ∧
      choice.urlFor method = .ok (Client.fill (document.serverOf operation).default? parts)) ↔
    (firstServer document.servers).IsWorded ∧
      (∀ name ∈ Client.placeholders parts, ((firstServer document.servers).default? name).isSome = true) ∧
      Client.fill (firstServer document.servers).default? parts =
        Client.fill (document.serverOf operation).default? parts := by
  constructor
  · rintro ⟨choice, chosen, resolved⟩
    have worded : (firstServer document.servers).IsWorded := chooseServer_succeeds.mp ⟨choice, chosen⟩
    exact ⟨worded, (urlFor_ok_iff chosen compiled sound _).mp resolved⟩
  · rintro ⟨worded, agrees⟩
    obtain ⟨choice, chosen⟩ := chooseServer_succeeds.mpr worded
    exact ⟨choice, chosen, (urlFor_ok_iff chosen compiled sound _).mpr agrees⟩

end Calling

def labelled (start label rest : String) : List Client.TemplatePart :=
  start.toList.map .letter ++ .placeholder label.toList :: rest.toList.map .letter

theorem labelled_isTemplate {start label rest : String}
    (unbraced : ∀ c ∈ start.toList ++ label.toList ++ rest.toList, c ≠ '{' ∧ c ≠ '}') :
    Client.IsTemplate (start.toList ++ '{' :: (label.toList ++ '}' :: rest.toList))
      (labelled start label rest) := by
  have letters (text : List Char) :
      (text.map Client.TemplatePart.letter).flatMap Client.TemplatePart.written = text := by
    simp [List.flatMap_map, Client.TemplatePart.written]
  constructor
  · rw [labelled, List.flatMap_append, List.flatMap_cons, letters, letters]
    simp [Client.TemplatePart.written]
  · intro part member
    simp only [labelled, List.mem_append, List.mem_cons, List.mem_map] at member
    rcases member with ⟨c, among, rfl⟩ | rfl | ⟨c, among, rfl⟩
    · exact unbraced c (by simp [among])
    · exact fun c among => unbraced c (by simp [among])
    · exact unbraced c (by simp [among])

theorem placeholders_labelled (start label rest : String) :
    Client.placeholders (labelled start label rest) = [label] := by
  have letters (text : List Char) :
      (text.map Client.TemplatePart.letter).filterMap Client.TemplatePart.name? = [] := by
    simp [Client.TemplatePart.name?]
  rw [Client.placeholders, labelled, List.filterMap_append, List.filterMap_cons, letters, letters]
  simp [Client.TemplatePart.name?]

theorem fill_labelled (values : String → Option String) (start label rest : String) :
    Client.fill values (labelled start label rest) = start ++ (values label).getD "" ++ rest := by
  have letters (text : List Char) :
      (text.map Client.TemplatePart.letter).flatMap (Client.TemplatePart.filled values) = text := by
    simp [List.flatMap_map, Client.TemplatePart.filled]
  rw [Client.fill, labelled, List.flatMap_append, List.flatMap_cons, letters, letters]
  simp [Client.TemplatePart.filled, String.ofList_append, String.append_assoc]

def labelServer (label url default : String) : Server where
  url := .string url
  placeholders := [(.string label, { default })]

theorem labelServer_default? (label url default : String) :
    (labelServer label url default).default? label = some default := by
  simp [Server.default?, labelServer, Entries.get?, Value.same]

theorem labelServer_isSound {label url start rest default : String} (filled : url ≠ "")
    (written : url.toList = start.toList ++ '{' :: (label.toList ++ '}' :: rest.toList))
    (unbraced : ∀ c ∈ start.toList ++ label.toList ++ rest.toList, c ≠ '{' ∧ c ≠ '}') :
    (labelServer label url default).IsSound url (labelled start label rest) where
  url := rfl
  filled := filled
  balanced := written ▸ labelled_isTemplate unbraced
  declared := by
    rw [placeholders_labelled, List.forall_mem_singleton, labelServer_default?]
    rfl

def ordersOperation (server : Server) : Operation where
  method := "GET"
  path := .string "/orders"
  operationId := .string "getOrders"
  servers := [server]

def shopServer : Server := labelServer "region" "https://{region}.shop.test" "eu"

def shopDocument (orders : Server) : ApiDocument where
  title := .string "Shop"
  version := "1"
  schemas := []
  operations := [ordersOperation orders]
  servers := [shopServer]
  distinctSchemas := Entries.distinct_nil Value.same

def shopContext : OperationContext := ⟨⟨none, [], true⟩, true⟩

def regionOrders (default : String) : Server := labelServer "region" "https://{region}.orders.test" default

def vaultOrders : Server := labelServer "vault" "https://{vault}.orders.test" "cold"

theorem regionOrders_isSound (default : String) :
    (regionOrders default).IsSound "https://{region}.orders.test"
      (labelled "https://" "region" ".orders.test") :=
  labelServer_isSound (by decide) rfl (by simp)

theorem shopDocument_isSound {orders : Server} (sound : ∃ template parts, orders.IsSound template parts) :
    ∀ server ∈ (shopDocument orders).servers ++ (shopDocument orders).operations.flatMap Operation.servers,
      ∃ template parts, server.IsSound template parts := by
  have shop : shopServer.IsSound "https://{region}.shop.test" (labelled "https://" "region" ".shop.test") :=
    labelServer_isSound (by decide) rfl (by simp)
  intro server member
  have either : server = shopServer ∨ server = orders := by
    simpa [shopDocument, ordersOperation] using member
  rcases either with rfl | rfl
  · exact ⟨_, _, shop⟩
  · exact sound

/-- Orders in the region of the shop are asked for there. -/
theorem regionOrders_directed :
    ∃ method after choice,
      Yields (shopContext.compile (ordersOperation (regionOrders "eu")) none) {} method after ∧
      (chooseServer (shopDocument (regionOrders "eu")).servers).result = .ok choice ∧
      choice.urlFor method = .ok "https://eu.orders.test" := by
  obtain ⟨method, after, compiled⟩ : ∃ method after,
      Yields (shopContext.compile (ordersOperation (regionOrders "eu")) none) {} method after :=
    ⟨_, _, rfl, rfl⟩
  have sound : ((shopDocument (regionOrders "eu")).serverOf (ordersOperation (regionOrders "eu"))).IsSound
      "https://{region}.orders.test" (labelled "https://" "region" ".orders.test") :=
    regionOrders_isSound "eu"
  have shared : shopServer.default? "region" = some "eu" := labelServer_default? "region" _ "eu"
  have own : (regionOrders "eu").default? "region" = some "eu" := labelServer_default? "region" _ "eu"
  have worded : shopServer.IsWorded :=
    List.forall_mem_singleton.mpr ⟨⟨"region", rfl⟩, fun given => absurd given (by decide)⟩
  have declared : ∀ name ∈ Client.placeholders (labelled "https://" "region" ".orders.test"),
      (shopServer.default? name).isSome = true := by
    rw [placeholders_labelled, List.forall_mem_singleton, shared]
    rfl
  have filled : Client.fill (regionOrders "eu").default? (labelled "https://" "region" ".orders.test") =
      "https://eu.orders.test" := by
    rw [fill_labelled, own]
    rfl
  have same : Client.fill shopServer.default? (labelled "https://" "region" ".orders.test") =
      Client.fill (regionOrders "eu").default? (labelled "https://" "region" ".orders.test") := by
    rw [fill_labelled, fill_labelled, shared, own]
  obtain ⟨choice, chosen, resolved⟩ := (urlFor_own_iff compiled sound).mpr ⟨worded, declared, same⟩
  exact ⟨method, after, choice, compiled, chosen, resolved.trans (congrArg Except.ok filled)⟩

/-- The default of another region is passed over for that of the shop, and a variable that the shop does not
have is missing. -/
theorem orders_misdirected :
    (∀ server ∈ (shopDocument (regionOrders "us")).servers ++
      (shopDocument (regionOrders "us")).operations.flatMap Operation.servers,
      ∃ template parts, server.IsSound template parts) ∧
    (∃ method after choice,
      Yields (shopContext.compile (ordersOperation (regionOrders "us")) none) {} method after ∧
      (chooseServer (shopDocument (regionOrders "us")).servers).result = .ok choice ∧
      (regionOrders "us").default? "region" = some "us" ∧
      choice.urlFor method = .ok "https://eu.orders.test") ∧
    (∀ server ∈ (shopDocument vaultOrders).servers ++
      (shopDocument vaultOrders).operations.flatMap Operation.servers,
      ∃ template parts, server.IsSound template parts) ∧
    ∃ method after choice,
      Yields (shopContext.compile (ordersOperation vaultOrders) none) {} method after ∧
      (chooseServer (shopDocument vaultOrders).servers).result = .ok choice ∧
      vaultOrders.default? "vault" = some "cold" ∧
      choice.urlFor method = .error (.missingValue "vault") := by
  have vaultSound : vaultOrders.IsSound "https://{vault}.orders.test"
      (labelled "https://" "vault" ".orders.test") :=
    labelServer_isSound (by decide) rfl (by simp)
  refine ⟨shopDocument_isSound ⟨_, _, regionOrders_isSound "us"⟩, ?_,
    shopDocument_isSound ⟨_, _, vaultSound⟩, ?_⟩
  · exact ⟨_, _, _, ⟨rfl, rfl⟩, rfl, labelServer_default? "region" _ "us", rfl⟩
  · exact ⟨_, _, _, ⟨rfl, rfl⟩, rfl, labelServer_default? "vault" _ "cold", rfl⟩

end OpenApiClient
