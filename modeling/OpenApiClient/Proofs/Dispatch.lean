import OpenApiClient.Client.Response
import OpenApiClient.Proofs.ContentClasses

/-! Dispatching a response over the patterns that an operation was compiled with. The generator keeps only
patterns that the client can read, so that a status always has one outcome: the first pattern that covers it,
else the default if there is one, else the response is unhandled. -/

namespace OpenApiClient

open InScope

namespace Client

def Covers (pattern : String) (status : Int) : Prop :=
  ∃ low high, statusRange pattern = .ok (low, high) ∧ (low : Int) ≤ status ∧ status ≤ high

/-- What the patterns of an operation, in their order, select for a status. -/
inductive Selects (patterns : List String) (status : Int) : Option String → Prop
  | byRange (before after : List String) {pattern : String} : patterns = before ++ pattern :: after →
      pattern ≠ defaultPattern → Covers pattern status → (∀ earlier ∈ before, ¬Covers earlier status) →
      Selects patterns status (some pattern)
  | byDefault : (∀ pattern ∈ patterns, ¬Covers pattern status) → defaultPattern ∈ patterns →
      Selects patterns status (some defaultPattern)
  | nothing : (∀ pattern ∈ patterns, ¬Covers pattern status) → defaultPattern ∉ patterns →
      Selects patterns status none

theorem statusRange_ok {pattern : String} (valid : isStatusPattern pattern = true)
    (ranged : pattern ≠ defaultPattern) : ∃ low high, statusRange pattern = .ok (low, high) := by
  simp only [isStatusPattern, Bool.or_eq_true, beq_iff_eq, ranged, false_or] at valid
  obtain ⟨digits, found⟩ := Option.isSome_iff_exists.mp valid
  exact ⟨_, _, by rw [statusRange, found]⟩

theorem not_covers_default (status : Int) : ¬Covers defaultPattern status := by
  rintro ⟨low, high, range, -⟩
  have none : patternDigits? defaultPattern = none := by decide +kernel
  rw [statusRange, none] at range
  cases range

theorem covers_iff {pattern : String} {low high : Nat} {status : Int}
    (range : statusRange pattern = .ok (low, high)) :
    Covers pattern status ↔ (low : Int) ≤ status ∧ status ≤ high := by
  constructor
  · rintro ⟨_, _, again, bounds⟩
    obtain ⟨rfl, rfl⟩ := Prod.mk.inj (Except.ok.inj (range.symm.trans again))
    exact bounds
  · exact fun bounds => ⟨low, high, range, bounds⟩

variable {pattern : String} {patterns : List String} {status : Int} {found : Option String}

/-- A default that stands first gives way to whatever the others select. -/
theorem Selects.default_cons (selects : Selects patterns status found) :
    Selects (defaultPattern :: patterns) status (some (found.getD defaultPattern)) := by
  cases selects with
  | byRange before after split ranged covers earlier =>
      refine .byRange (defaultPattern :: before) after (by rw [split]; rfl) ranged covers ?_
      exact List.forall_mem_cons.mpr ⟨not_covers_default status, earlier⟩
  | byDefault uncovered _ =>
      exact .byDefault (List.forall_mem_cons.mpr ⟨not_covers_default status, uncovered⟩) List.mem_cons_self
  | nothing uncovered _ =>
      exact .byDefault (List.forall_mem_cons.mpr ⟨not_covers_default status, uncovered⟩) List.mem_cons_self

theorem Selects.uncovered_cons (ranged : pattern ≠ defaultPattern) (uncovered : ¬Covers pattern status)
    (selects : Selects patterns status found) : Selects (pattern :: patterns) status found := by
  cases selects with
  | byRange before after split own covers earlier =>
      refine .byRange (pattern :: before) after (by rw [split, List.cons_append]) own covers ?_
      exact List.forall_mem_cons.mpr ⟨uncovered, earlier⟩
  | byDefault others declared =>
      exact .byDefault (List.forall_mem_cons.mpr ⟨uncovered, others⟩) (List.mem_cons_of_mem _ declared)
  | nothing others undeclared =>
      refine .nothing (List.forall_mem_cons.mpr ⟨uncovered, others⟩) ?_
      simpa [List.mem_cons, undeclared] using ranged.symm

/-- Matching over patterns that can be read has an outcome, the one that they select. -/
theorem matchStatus_selects (valid : ∀ pattern ∈ patterns, isStatusPattern pattern = true) (status : Int) :
    ∃ found, matchStatus patterns status = .ok found ∧ Selects patterns status found := by
  induction patterns with
  | nil => exact ⟨none, rfl, .nothing (by simp) (by simp)⟩
  | cons pattern rest ih =>
      obtain ⟨own, others⟩ := List.forall_mem_cons.mp valid
      obtain ⟨found, matched, selects⟩ := ih others
      rw [matchStatus]
      by_cases default : pattern = defaultPattern
      · rw [if_pos default, matched, default]
        exact ⟨_, rfl, selects.default_cons⟩
      · obtain ⟨low, high, range⟩ := statusRange_ok own default
        simp only [default, ↓reduceIte, range]
        by_cases inside : (low : Int) ≤ status ∧ status ≤ high
        · rw [if_pos inside]
          exact ⟨_, rfl, .byRange [] rest rfl default ((covers_iff range).mpr inside) (by simp)⟩
        · rw [if_neg inside]
          exact ⟨found, matched, selects.uncovered_cons default (mt (covers_iff range).mp inside)⟩

open Classical in
theorem Selects.eq_find? (selects : Selects patterns status found) :
    found = (patterns.find? fun pattern => decide (Covers pattern status)).or
      (if defaultPattern ∈ patterns then some defaultPattern else none) := by
  have without (uncovered : ∀ pattern ∈ patterns, ¬Covers pattern status) :
      (patterns.find? fun pattern => decide (Covers pattern status)) = none := by
    simpa [List.find?_eq_none] using uncovered
  cases selects with
  | @byRange before after pattern split _ covers earlier =>
      have first : (patterns.find? fun pattern => decide (Covers pattern status)) = some pattern :=
        List.find?_eq_some_iff_append.mpr ⟨by simpa using covers, before, after, split, by simpa using earlier⟩
      rw [first, Option.some_or]
  | byDefault uncovered declared => rw [without uncovered, if_pos declared, Option.none_or]
  | nothing uncovered undeclared => rw [without uncovered, if_neg undeclared, Option.none_or]

theorem Selects.unique {other : Option String} (selects : Selects patterns status found)
    (again : Selects patterns status other) : found = other :=
  selects.eq_find?.trans again.eq_find?.symm

theorem matchStatus_ok_iff (valid : ∀ pattern ∈ patterns, isStatusPattern pattern = true) :
    matchStatus patterns status = .ok found ↔ Selects patterns status found := by
  obtain ⟨own, matched, selects⟩ := matchStatus_selects valid status
  rw [matched]
  constructor
  · intro same
    rwa [← Except.ok.inj same]
  · exact fun again => congrArg Except.ok (selects.unique again)

/-! The patterns of the document are written in lower case, which is one of the forms that are read. -/

theorem lowerAfter_plain {text : List Char}
    (plain : ∀ c ∈ text, Text.isAscii c = true ∧ Text.isAsciiUpper c = false) (before : List Char) :
    Text.lowerAfter before text = text := by
  induction text generalizing before with
  | nil => rfl
  | cons c rest ih =>
      obtain ⟨⟨ascii, lower⟩, others⟩ := List.forall_mem_cons.mp plain
      have letter : c ≠ 'Σ' := by
        rintro rfl
        exact absurd ascii (by decide)
      rw [Text.lowerAfter, if_neg letter, ih others]
      simp [Text.lowerCharacter, ascii, lower]

theorem isPatternCharacter_plain {c : Char} (found : isPatternCharacter c = true) :
    Text.isAscii c = true ∧ Text.isAsciiUpper c = false := by
  have ascii : Text.isAscii c = true := by
    simp only [isPatternCharacter, Text.isAsciiDigit, Bool.or_eq_true, Bool.and_eq_true, decide_eq_true_eq,
      beq_iff_eq] at found
    rcases found with ⟨-, bound⟩ | rfl
    · exact Text.isAscii_of_le (Char.le_trans bound (by decide))
    · decide
  have checked := Text.of_ascii (fun c => !isPatternCharacter c || !Text.isAsciiUpper c) (by decide +kernel) ascii
  exact ⟨ascii, by simpa [found] using checked⟩

theorem patternDigits?_plain {digits : List Char} (found : patternDigits? pattern = some digits) :
    ∀ c ∈ Text.lower pattern.toList, Text.isAscii c = true ∧ Text.isAsciiUpper c = false := by
  unfold patternDigits? at found
  split at found
  · rename_i a b c same
    split at found
    · rename_i all
      rw [same]
      exact fun d among => isPatternCharacter_plain (List.all_eq_true.mp all d among)
    · cases found
  · rename_i a b c same
    split at found
    · rename_i all
      rw [same, show [a, b, c, '\n'] = [a, b, c] ++ ['\n'] from rfl, List.forall_mem_append]
      refine ⟨fun d among => isPatternCharacter_plain (List.all_eq_true.mp all d among), ?_⟩
      exact List.forall_mem_singleton.mpr (by decide)
    · cases found
  · cases found

theorem patternDigits?_lowerText {digits : List Char} (found : patternDigits? pattern = some digits) :
    patternDigits? (Text.lowerText pattern) = some digits := by
  have letters : (Text.lowerText pattern).toList = Text.lower pattern.toList := String.toList_ofList
  have kept : Text.lower (Text.lower pattern.toList) = Text.lower pattern.toList :=
    lowerAfter_plain (patternDigits?_plain found) []
  rw [patternDigits?, letters, kept]
  exact found

theorem isStatusPattern_lowerText (valid : isStatusPattern pattern = true) :
    isStatusPattern (Text.lowerText pattern) = true := by
  rw [isStatusPattern, Bool.or_eq_true, beq_iff_eq] at valid ⊢
  rcases valid with rfl | ranged
  · exact .inl (by decide +kernel)
  · obtain ⟨digits, found⟩ := Option.isSome_iff_exists.mp ranged
    exact .inr (Option.isSome_iff_exists.mpr ⟨digits, patternDigits?_lowerText found⟩)

end Client

def Operation.patterns (operation : Operation) : List String :=
  (Operation.accepted operation.responses).map fun entry => Text.lowerText entry.1

theorem Operation.patterns_valid (operation : Operation) :
    ∀ pattern ∈ operation.patterns, Client.isStatusPattern pattern = true := by
  intro pattern member
  obtain ⟨entry, accepted, rfl⟩ := List.mem_map.mp member
  exact Client.isStatusPattern_lowerText (List.mem_filter.mp accepted).2

namespace OperationContext

variable {context : OperationContext} {scope after : NamingScope} {declared : List ClassDeclaration}

theorem response_pattern {start operationId pattern : String} {response : Response} {shape : ResponseShape}
    (yields : Yields (context.response start operationId pattern response) scope (declared, shape) after) :
    shape.pattern = Text.lowerText pattern := by
  unfold OperationContext.response at yields
  dsimp only at yields
  split at yields
  · obtain ⟨-, rfl, -⟩ := yields_pure_pair.mp yields
    rfl
  · obtain ⟨_, _, -, yields⟩ := yields_bind.mp yields
    obtain ⟨_, _, -, finished⟩ := yields_bind.mp yields
    obtain ⟨-, rfl, -⟩ := yields_pure_pair.mp finished
    rfl

theorem responses_patterns {start operationId : String} {responses : List (String × Response)}
    {shapes : List ResponseShape}
    (yields : Yields (context.responses start operationId responses) scope (declared, shapes) after) :
    shapes.map ResponseShape.pattern =
      (Operation.accepted responses).map fun entry => Text.lowerText entry.1 := by
  replace yields := responses_yields yields
  induction yields with
  | nil => rfl
  | @valid _ _ _ pattern response _ _ _ _ rest valid answered _ ih =>
      have accepted : Operation.accepted ((pattern, response) :: rest) =
          (pattern, response) :: Operation.accepted rest := List.filter_cons_of_pos valid
      rw [accepted, List.map_cons, List.map_cons, response_pattern answered, ih]
  | @invalid _ _ pattern response _ _ rest invalid _ ih =>
      have passed : Operation.accepted ((pattern, response) :: rest) = Operation.accepted rest :=
        List.filter_cons_of_neg invalid
      rw [passed]
      exact ih

/-- The patterns of a method are those of the document that the client can read. -/
theorem compile_patterns {operation : Operation} {given : Option Value} {method : OperationMethod}
    (yields : Yields (context.compile operation given) scope method after) :
    method.responses.map ResponseShape.pattern = operation.patterns := by
  obtain ⟨_, _, _, _, _, _, -, -, -, -, -, -, answered, -⟩ := compile_yields yields
  exact responses_patterns answered

end OperationContext

namespace Client

/-- The handler has the cases of a method, each with its callback. What the bodies are read as is left to the
service. -/
def Handler.Serves (handler : Handler) (method : OperationMethod) : Prop :=
  (handler.cases.map fun own => (own.pattern, own.callback)) =
    method.responses.map fun shape => (shape.pattern, shape.callback)

theorem Handler.Serves.patterns {handler : Handler} {method : OperationMethod} (serves : handler.Serves method) :
    handler.cases.map ResponseCase.pattern = method.responses.map ResponseShape.pattern := by
  have firsts := congrArg (List.map Prod.fst) serves
  rwa [List.map_map, List.map_map] at firsts

inductive ResponseCase.IsJson (own : ResponseCase) (response : Response) : Prop
  | named {contentType : String} : response.contentType = some contentType → contentType ≠ "" →
      isJsonContentType (some contentType) = true → own.IsJson response
  | unnamed : response.contentType = none ∨ response.contentType = some "" →
      isJsonContentType own.contentType = true → own.IsJson response

/-- What a case makes of a response: nothing if it has no type or the body is empty, else a value of its type or a
text. -/
inductive ResponseCase.Decodes (classes : Classes) (own : ResponseCase) (response : Response) :
    Except ResponseFault Value → Prop
  | untyped : own.type = none → own.Decodes classes response (.ok .null)
  | empty : response.content = [] → own.Decodes classes response (.ok .null)
  | text : own.type ≠ none → response.content ≠ [] → ¬own.IsJson response →
      own.Decodes classes response (.ok (.string response.text))
  | json {type : DataType} {data : Value} : own.type = some type → response.content ≠ [] → own.IsJson response →
      response.json = .ok data → own.Decodes classes response ((classes.ofJson data type).mapError .record)
  | unreadable {fault : JsonFault} : own.type ≠ none → response.content ≠ [] → own.IsJson response →
      response.json = .error fault → own.Decodes classes response (.error (.json fault))

theorem isJson_iff {own : ResponseCase} {response : Response} :
    own.IsJson response ↔ isJsonContentType (own.contentTypeOf response) = true := by
  unfold ResponseCase.contentTypeOf
  constructor
  · rintro (⟨named, filled, json⟩ | ⟨unnamed, json⟩)
    · simpa [named, filled] using json
    · rcases unnamed with none | empty
      · simpa [none] using json
      · simpa [empty] using json
  · intro json
    cases named : response.contentType with
    | none =>
        rw [named] at json
        exact .unnamed (.inl named) json
    | some contentType =>
        simp only [named] at json
        by_cases empty : contentType = ""
        · exact .unnamed (.inr (empty ▸ named)) (by simpa [empty] using json)
        · simp only [String.isEmpty_iff, empty, if_false] at json
          exact .named named empty json

theorem decode_decodes (classes : Classes) (own : ResponseCase) (response : Response) :
    own.Decodes classes response (own.decode classes response) := by
  unfold ResponseCase.decode
  cases typed : own.type with
  | none => exact .untyped typed
  | some type =>
      have declared : own.type ≠ none := by simp [typed]
      by_cases empty : response.content = []
      · simp only [empty, List.isEmpty_nil, if_true]
        exact .empty empty
      · simp only [List.isEmpty_iff, empty, if_false]
        by_cases json : own.IsJson response
        · rw [if_pos (isJson_iff.mp json)]
          cases read : response.json with
          | error fault => exact .unreadable declared empty json read
          | ok data => exact .json typed empty json read
        · rw [if_neg (mt isJson_iff.mpr json)]
          exact .text declared empty json

theorem ResponseCase.Decodes.ne_unhandled {classes : Classes} {own : ResponseCase} {response : Response}
    {outcome : Except ResponseFault Value} (decodes : own.Decodes classes response outcome) (body : String) :
    outcome ≠ .error (.unhandled status body) := by
  intro unhandled
  cases decodes with
  | json =>
      obtain ⟨_, _, same⟩ := except_mapError_error.mp unhandled
      cases same
  | _ => cases unhandled

def Handler.answer (handler : Handler) (classes : Classes) (own : ResponseCase) (response : Response) :
    Except ResponseFault Handled :=
  (fun body => ⟨body, if handler.callbacks.contains own.callback then some own.callback else none⟩) <$>
    own.decode classes response

theorem answer_ne_unhandled {handler : Handler} {classes : Classes} {response : Response} {body : String}
    (own : ResponseCase) : handler.answer classes own response ≠ .error (.unhandled status body) := by
  intro failed
  rw [Handler.answer, map_eq_pure_bind] at failed
  obtain fault | ⟨_, -, done⟩ := except_bind_error.mp failed
  · exact (decode_decodes classes own response).ne_unhandled body fault
  · cases done

theorem Selects.mem (selects : Selects patterns status (some pattern)) : pattern ∈ patterns := by
  cases selects with
  | byRange before after split => simp [split]
  | byDefault _ declared => exact declared

/-- A handler sends each response to the case that its patterns select, and to no other. The case decodes the body. -/
structure Handler.Dispatches (handler : Handler) (patterns : List String) : Prop where
  decided : ∀ status, ∃ found, matchStatus patterns status = .ok found
  selected : ∀ status found, matchStatus patterns status = .ok found ↔ Selects patterns status found
  unhandled : ∀ classes response, Selects patterns response.status none ↔
    handler.handle classes response = .error (.unhandled response.status response.text)
  handled : ∀ classes response pattern, Selects patterns response.status (some pattern) →
    ∃ before own after, handler.cases = before ++ own :: after ∧ own.pattern = pattern ∧
      (∀ earlier ∈ before, earlier.pattern ≠ pattern) ∧
      own.Decodes classes response (own.decode classes response) ∧
      handler.handle classes response = handler.answer classes own response

theorem handle_of_none {handler : Handler} {classes : Classes} {response : Response}
    (matched : matchStatus (handler.cases.map ResponseCase.pattern) response.status = .ok none) :
    handler.handle classes response = .error (.unhandled response.status response.text) := by
  unfold Handler.handle selectCase
  rw [matched]
  rfl

theorem handle_of_some {handler : Handler} {classes : Classes} {response : Response} {own : ResponseCase}
    (matched : matchStatus (handler.cases.map ResponseCase.pattern) response.status = .ok (some pattern))
    (first : (handler.cases.find? fun own => own.pattern == pattern) = some own) :
    handler.handle classes response = handler.answer classes own response := by
  have chosen : selectCase handler.cases response.status = .ok (some own) := by
    rw [selectCase, matched, ← first]
    rfl
  unfold Handler.handle Handler.answer
  rw [chosen, map_eq_pure_bind]
  rfl

theorem Handler.dispatches {handler : Handler}
    (valid : ∀ own ∈ handler.cases, isStatusPattern own.pattern = true) :
    handler.Dispatches (handler.cases.map ResponseCase.pattern) := by
  have readable : ∀ pattern ∈ handler.cases.map ResponseCase.pattern, isStatusPattern pattern = true := by
    simpa using valid
  have handled (classes : Classes) {response : Response} {pattern : String}
      (selects : Selects (handler.cases.map ResponseCase.pattern) response.status (some pattern)) :
      ∃ before own after, handler.cases = before ++ own :: after ∧ own.pattern = pattern ∧
        (∀ earlier ∈ before, earlier.pattern ≠ pattern) ∧
        own.Decodes classes response (own.decode classes response) ∧
        handler.handle classes response = handler.answer classes own response := by
    obtain ⟨declared, member, same⟩ := List.mem_map.mp selects.mem
    obtain ⟨own, first⟩ : ∃ own, (handler.cases.find? fun own => own.pattern == pattern) = some own := by
      rw [← Option.isSome_iff_exists, List.find?_isSome]
      exact ⟨declared, member, by simpa using same⟩
    obtain ⟨named, before, after, split, earlier⟩ := List.find?_eq_some_iff_append.mp first
    refine ⟨before, own, after, split, by simpa using named, by simpa using earlier, decode_decodes _ _ _, ?_⟩
    exact handle_of_some ((matchStatus_ok_iff readable).mpr selects) first
  refine ⟨fun status => ?_, fun status found => matchStatus_ok_iff readable, fun classes response => ?_,
    fun classes response pattern => handled classes⟩
  · obtain ⟨found, matched, -⟩ := matchStatus_selects readable status
    exact ⟨found, matched⟩
  · constructor
    · exact fun selects => handle_of_none ((matchStatus_ok_iff readable).mpr selects)
    · intro unhandled
      obtain ⟨found, -, selects⟩ := matchStatus_selects readable response.status
      cases found with
      | none => exact selects
      | some pattern =>
          -- A case was selected, and its decoding does not report the response as unhandled.
          obtain ⟨_, own, _, -, -, -, -, answered⟩ := handled classes selects
          rw [answered] at unhandled
          exact absurd unhandled (answer_ne_unhandled own)

end Client

/-- A handler of a compiled operation dispatches over the patterns of the document, in their order. -/
theorem compile_dispatches {context : OperationContext} {scope after : NamingScope} {operation : Operation}
    {given : Option Value} {method : OperationMethod}
    (yields : Yields (context.compile operation given) scope method after) {handler : Client.Handler}
    (serves : handler.Serves method) :
    method.responses.map ResponseShape.pattern = operation.patterns ∧ handler.Dispatches operation.patterns := by
  have patterns := OperationContext.compile_patterns yields
  have cases : handler.cases.map Client.ResponseCase.pattern = operation.patterns :=
    serves.patterns.trans patterns
  refine ⟨patterns, ?_⟩
  rw [← cases]
  refine Client.Handler.dispatches fun own member => ?_
  exact operation.patterns_valid own.pattern (cases ▸ List.mem_map_of_mem member)

/-- One pattern of this operation cannot be read, and the last comes too late, since the first covers it. -/
def probeOperation : Operation where
  method := "get"
  path := .string "/probe"
  operationId := .string "probe"
  responses := [
    ("2XX", { content := [(.string "application/json",
      some { keywords := { type := .string "array" },
             items := some { keywords := { type := .string "integer" } } })] }),
    ("default", { content := [(.string "text/plain", some { keywords := { type := .string "string" } })] }),
    ("ok", {}), ("204", {})]

def probeHandler : Client.Handler where
  cases := [
    ⟨"2xx", "handle_response_2xx", some (.list .integer), some "application/json"⟩,
    ⟨"default", "handle_response_default", some .text, some "text/plain"⟩,
    ⟨"204", "handle_response_204", none, none⟩]
  callbacks := ["handle_response_2xx"]

/-- Data that is read by the type of its case, and a refusal in letters of one octet each. -/
def probeResponse : Client.Response :=
  ⟨201, [0x5b, 0x37, 0x5d], none, "[7]", .ok (.array [.int 7])⟩

def probeRefusal : Client.Response :=
  ⟨503, [0x63, 0x61, 0x66, 0xe9], some "text/plain; charset=iso-8859-1", "café",
    .error ⟨"UnicodeDecodeError", "'utf-8' codec can't decode byte 0xe9 in position 3: unexpected end of data"⟩⟩

theorem probe_dispatches :
    ∃ method after, Yields (OperationContext.compile ⟨⟨none, [], true⟩, true⟩ probeOperation none) {} method after ∧
      probeHandler.Serves method ∧ method.responses.map ResponseShape.pattern = ["2xx", "default", "204"] ∧
      probeHandler.Dispatches ["2xx", "default", "204"] ∧
      probeHandler.handle ⟨[]⟩ probeResponse = .ok ⟨.array [.int 7], some "handle_response_2xx"⟩ ∧
      probeHandler.handle ⟨[]⟩ probeRefusal = .ok ⟨.string "café", none⟩ := by
  obtain ⟨method, after, yields, serves⟩ : ∃ method after,
      Yields (OperationContext.compile ⟨⟨none, [], true⟩, true⟩ probeOperation none) {} method after ∧
        probeHandler.Serves method := ⟨_, _, ⟨rfl, rfl⟩, rfl⟩
  obtain ⟨patterns, dispatches⟩ := compile_dispatches yields serves
  exact ⟨method, after, yields, serves, patterns, dispatches, rfl, rfl⟩

/-- Without its default the operation leaves the refusal unhandled. -/
example : Client.Handler.handle ⟨[⟨"2xx", "handle_response_2xx", none, none⟩], []⟩ ⟨[]⟩ probeRefusal =
    .error (.unhandled 503 "café") := by rfl

example : Client.matchStatus probeOperation.patterns 204 = .ok (some "2xx") := by rfl

end OpenApiClient
