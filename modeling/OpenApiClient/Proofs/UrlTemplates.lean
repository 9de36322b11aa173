import OpenApiClient.Client.UrlTemplate
import OpenApiClient.Proofs.Outcome

/-! Templates as sequences of parts. A template whose braces are balanced is the text of its parts, and it is
resolved part by part: a letter stands for itself and a placeholder for its value. Where that is not possible, the
first fault from the left is the one that is told. -/

namespace OpenApiClient.Client

inductive TemplatePart where
  | letter (c : Char)
  | placeholder (name : List Char)
  deriving DecidableEq, Repr, Inhabited

namespace TemplatePart

def written : TemplatePart → List Char
  | .letter c => [c]
  | .placeholder name => '{' :: name ++ ['}']

/-- Neither a letter nor the name of a placeholder has a brace of its own. -/
def Plain : TemplatePart → Prop
  | .letter c => c ≠ '{' ∧ c ≠ '}'
  | .placeholder name => ∀ c ∈ name, c ≠ '{' ∧ c ≠ '}'

def name? : TemplatePart → Option String
  | .letter _ => none
  | .placeholder name => some (String.ofList name)

def resolve (values : String → Option String) : TemplatePart → Except TemplateFault (List Char)
  | .letter c => .ok [c]
  | .placeholder name =>
      match values (String.ofList name) with
      | some value => .ok value.toList
      | none => .error (.missingValue (String.ofList name))

def filled (values : String → Option String) : TemplatePart → List Char
  | .letter c => [c]
  | .placeholder name => ((values (String.ofList name)).getD "").toList

end TemplatePart

def IsTemplate (template : List Char) (parts : List TemplatePart) : Prop :=
  template = parts.flatMap TemplatePart.written ∧ ∀ part ∈ parts, part.Plain

variable {values : String → Option String} {template : List Char} {parts : List TemplatePart}

theorem resolveRest_scan {rest : List Char} : ∀ (before : List Char) {name : List Char},
    (TemplatePart.placeholder name).Plain →
    resolveRest values (some before) (name ++ rest) = resolveRest values (some (before ++ name)) rest
  | before, [], _ => by rw [List.nil_append, List.append_nil]
  | before, c :: name, plain => by
      obtain ⟨⟨opening, closing⟩, others⟩ := List.forall_mem_cons.mp plain
      rw [List.cons_append, resolveRest, if_neg opening, if_neg closing, resolveRest_scan (before ++ [c]) others,
        List.append_assoc, List.singleton_append]

theorem resolveRest_name {rest : List Char} (before : List Char) {name : List Char}
    (plain : ∀ c ∈ name, c ≠ '{' ∧ c ≠ '}') :
    resolveRest values (some before) (name ++ '}' :: rest) =
      TemplatePart.resolve values (.placeholder (before ++ name)) >>= fun value =>
        (value ++ ·) <$> resolveRest values none rest := by
  rw [resolveRest_scan before plain, resolveRest, TemplatePart.resolve]
  simp only [↓reduceIte, Char.reduceEq]
  cases values (String.ofList (before ++ name)) <;> rfl

theorem resolveRest_written (part : TemplatePart) (plain : part.Plain) (rest : List Char) :
    resolveRest values none (part.written ++ rest) =
      part.resolve values >>= fun value => (value ++ ·) <$> resolveRest values none rest := by
  cases part with
  | letter c =>
      obtain ⟨opening, closing⟩ := plain
      change resolveRest values none (c :: rest) = _
      rw [resolveRest, if_neg opening, if_neg closing]
      rfl
  | placeholder name =>
      change resolveRest values none ('{' :: (name ++ ['}']) ++ rest) = _
      rw [List.cons_append, List.append_assoc, resolveRest, if_pos rfl]
      exact resolveRest_name [] plain

/-- A template with balanced braces is resolved part by part. -/
theorem resolveRest_parts (isTemplate : IsTemplate template parts) :
    resolveRest values none template = List.flatten <$> parts.mapM (TemplatePart.resolve values) := by
  obtain ⟨rfl, plain⟩ := isTemplate
  induction parts with
  | nil => rfl
  | cons part rest ih =>
      obtain ⟨own, others⟩ := List.forall_mem_cons.mp plain
      rw [List.flatMap_cons, resolveRest_written part own, ih others, List.mapM_cons]
      cases part.resolve values with
      | error fault => rfl
      | ok value => cases rest.mapM (TemplatePart.resolve values) <;> rfl

theorem resolve_succeeds {part : TemplatePart} :
    Succeeds (part.resolve values) ↔ ∀ name, part.name? = some name → (values name).isSome = true := by
  cases part with
  | letter c => simp [TemplatePart.resolve, TemplatePart.name?, Succeeds]
  | placeholder name =>
      simp only [TemplatePart.resolve, TemplatePart.name?, Option.some.injEq, forall_eq', Succeeds]
      cases values (String.ofList name) <;> simp

def placeholders (parts : List TemplatePart) : List String := parts.filterMap TemplatePart.name?

theorem mem_placeholders {name : String} :
    name ∈ placeholders parts ↔ ∃ part ∈ parts, part.name? = some name :=
  List.mem_filterMap

def fill (values : String → Option String) (parts : List TemplatePart) : String :=
  String.ofList (parts.flatMap (TemplatePart.filled values))

/-- A template with balanced braces is resolved exactly if there is a value for each of its placeholders. -/
theorem resolveTemplate_succeeds {template : String} {entries : List (String × String)}
    (isTemplate : IsTemplate template.toList parts) :
    Succeeds (resolveTemplate template entries) ↔
      ∀ name ∈ placeholders parts, (Entries.find? name entries).isSome = true := by
  have each : Succeeds (parts.mapM (TemplatePart.resolve fun name => Entries.find? name entries)) ↔
      ∀ name ∈ placeholders parts, (Entries.find? name entries).isSome = true := by
    rw [succeeds_mapM]
    simp only [resolve_succeeds, mem_placeholders]
    constructor
    · rintro each name ⟨part, among, named⟩
      exact each part among name named
    · exact fun each part among name named => each name ⟨part, among, named⟩
  rw [← each, resolveTemplate, resolveRest_parts isTemplate, succeeds_map, succeeds_map]

theorem resolve_filled {part : TemplatePart}
    (given : ∀ name, part.name? = some name → (values name).isSome = true) :
    part.resolve values = .ok (part.filled values) := by
  cases part with
  | letter c => rfl
  | placeholder name =>
      obtain ⟨value, found⟩ := Option.isSome_iff_exists.mp (given _ rfl)
      simp [TemplatePart.resolve, TemplatePart.filled, found]

/-- With a value for each placeholder a template with balanced braces comes to its text with the values in it. -/
theorem resolveTemplate_fill {template : String} {entries : List (String × String)}
    (isTemplate : IsTemplate template.toList parts)
    (given : ∀ name ∈ placeholders parts, (Entries.find? name entries).isSome = true) :
    resolveTemplate template entries = .ok (fill (fun name => Entries.find? name entries) parts) := by
  have each : parts.mapM (TemplatePart.resolve fun name => Entries.find? name entries) =
      .ok (parts.map (TemplatePart.filled fun name => Entries.find? name entries)) := by
    rw [mapM_ok_iff, List.forall₂_map_right_iff, List.forall₂_same]
    intro part among
    exact resolve_filled fun name named => given name (mem_placeholders.mpr ⟨part, among, named⟩)
  rw [resolveTemplate, resolveRest_parts isTemplate, each]
  rfl

theorem resolve_fault {part : TemplatePart} {fault : TemplateFault} (failed : part.resolve values = .error fault) :
    ∃ name, part.name? = some name ∧ values name = none ∧ fault = .missingValue name := by
  cases part with
  | letter c => cases failed
  | placeholder name =>
      rw [TemplatePart.resolve] at failed
      split at failed
      · cases failed
      · rename_i missing
        exact ⟨String.ofList name, rfl, missing, (Except.error.inj failed).symm⟩

/-- Where the braces are balanced, the only fault is a placeholder without a value, which is named. -/
theorem resolveTemplate_fault {template : String} {entries : List (String × String)} {fault : TemplateFault}
    (isTemplate : IsTemplate template.toList parts)
    (failed : resolveTemplate template entries = .error fault) :
    ∃ name ∈ placeholders parts, Entries.find? name entries = none ∧ fault = .missingValue name := by
  rw [resolveTemplate, resolveRest_parts isTemplate, except_map_error, except_map_error] at failed
  obtain ⟨before, part, after, rfl, -, own⟩ := mapM_error failed
  obtain ⟨name, named, missing, same⟩ := resolve_fault own
  exact ⟨name, mem_placeholders.mpr ⟨part, by simp, named⟩, missing, same⟩

/-! Templates that cannot be resolved. -/

inductive FaultAt (values : String → Option String) : List Char → TemplateFault → Prop
  | stray (rest : List Char) : FaultAt values ('}' :: rest) .unbalanced
  | nested {name : List Char} (rest : List Char) : (TemplatePart.placeholder name).Plain →
      FaultAt values ('{' :: name ++ '{' :: rest) .unbalanced
  | unclosed {name : List Char} : (TemplatePart.placeholder name).Plain → FaultAt values ('{' :: name) .unbalanced
  | missing {name : List Char} (rest : List Char) : (TemplatePart.placeholder name).Plain →
      values (String.ofList name) = none →
      FaultAt values ('{' :: name ++ '}' :: rest) (.missingValue (String.ofList name))

def Given (values : String → Option String) (parts : List TemplatePart) : Prop :=
  (∀ part ∈ parts, part.Plain) ∧ ∀ name ∈ placeholders parts, (values name).isSome = true

/-- Up to some place the template can be resolved, and there it has the fault. -/
def FirstFault (values : String → Option String) (template : List Char) (fault : TemplateFault) : Prop :=
  ∃ parts rest, template = parts.flatMap TemplatePart.written ++ rest ∧ Given values parts ∧
    FaultAt values rest fault

theorem given_cons {part : TemplatePart} :
    Given values (part :: parts) ↔
      (part.Plain ∧ ∀ name, part.name? = some name → (values name).isSome = true) ∧ Given values parts := by
  constructor
  · rintro ⟨plain, given⟩
    obtain ⟨own, others⟩ := List.forall_mem_cons.mp plain
    refine ⟨⟨own, fun name named => ?_⟩, others, fun name among => ?_⟩
    · exact given name (mem_placeholders.mpr ⟨part, List.mem_cons_self, named⟩)
    · obtain ⟨other, member, named⟩ := mem_placeholders.mp among
      exact given name (mem_placeholders.mpr ⟨other, List.mem_cons_of_mem _ member, named⟩)
  · rintro ⟨⟨own, first⟩, others, given⟩
    refine ⟨List.forall_mem_cons.mpr ⟨own, others⟩, fun name among => ?_⟩
    obtain ⟨other, member, named⟩ := mem_placeholders.mp among
    rcases List.mem_cons.mp member with rfl | later
    · exact first name named
    · exact given name (mem_placeholders.mpr ⟨other, later, named⟩)

theorem FaultAt.resolveRest {rest : List Char} {fault : TemplateFault} (found : FaultAt values rest fault) :
    resolveRest values none rest = .error fault := by
  cases found with
  | stray rest => simp [Client.resolveRest]
  | nested rest plain =>
      rw [List.cons_append, Client.resolveRest, if_pos rfl, resolveRest_scan [] plain]
      simp [Client.resolveRest]
  | @unclosed name plain =>
      rw [Client.resolveRest, if_pos rfl, ← List.append_nil name, resolveRest_scan [] plain]
      simp [Client.resolveRest]
  | missing rest plain absent =>
      rw [List.cons_append, Client.resolveRest, if_pos rfl, resolveRest_scan [] plain]
      simp [Client.resolveRest, absent]

theorem resolveRest_given (given : Given values parts) (rest : List Char) :
    resolveRest values none (parts.flatMap TemplatePart.written ++ rest) =
      (parts.flatMap (TemplatePart.filled values) ++ ·) <$> resolveRest values none rest := by
  induction parts with
  | nil => simp
  | cons part parts ih =>
      obtain ⟨⟨plain, own⟩, others⟩ := given_cons.mp given
      rw [List.flatMap_cons, List.append_assoc, resolveRest_written part plain, resolve_filled own, ih others]
      cases resolveRest values none rest <;> simp [bind, Except.bind, Functor.map, Except.map]

def Decided (values : String → Option String) (template : List Char) : Prop :=
  (∃ parts, template = parts.flatMap TemplatePart.written ∧ Given values parts) ∨
    ∃ fault, FirstFault values template fault

theorem FaultAt.decided {rest : List Char} {fault : TemplateFault} (found : FaultAt values rest fault) :
    Decided values rest :=
  .inr ⟨fault, [], rest, rfl, by simp [Given, placeholders], found⟩

theorem Decided.cons {part : TemplatePart} {rest : List Char} (later : Decided values rest) (plain : part.Plain)
    (given : ∀ name, part.name? = some name → (values name).isSome = true) :
    Decided values (part.written ++ rest) := by
  rcases later with ⟨parts, rfl, others⟩ | ⟨fault, parts, rest, rfl, others, found⟩
  · exact .inl ⟨part :: parts, rfl, given_cons.mpr ⟨⟨plain, given⟩, others⟩⟩
  · refine .inr ⟨fault, part :: parts, rest, ?_, given_cons.mpr ⟨⟨plain, given⟩, others⟩, found⟩
    rw [List.flatMap_cons, List.append_assoc]

def withName : Option (List Char) → List Char → List Char
  | none, rest => rest
  | some name, rest => '{' :: name ++ rest

theorem decided_withName (values : String → Option String) (name : Option (List Char)) (rest : List Char)
    (plain : ∀ begun ∈ name, (TemplatePart.placeholder begun).Plain) : Decided values (withName name rest) := by
  -- The induction is on the reading. A name that has not ended is put back, so that it ends up in one part.
  fun_induction resolveRest values name rest with
  | case1 name isOpen =>
      obtain ⟨begun, rfl⟩ := Option.isSome_iff_exists.mp isOpen
      rw [withName, List.append_nil]
      exact (FaultAt.unclosed (plain begun rfl)).decided
  | case2 name closed =>
      obtain rfl := Option.not_isSome_iff_eq_none.mp closed
      exact .inl ⟨[], rfl, by simp [Given, placeholders]⟩
  | case3 rest ih =>
      apply ih
      simp [TemplatePart.Plain]
  | case4 rest => exact (FaultAt.stray rest).decided
  | case5 c rest opening closing ih =>
      have later : Decided values rest := ih (by simp)
      have plainLetter : (TemplatePart.letter c).Plain := ⟨opening, closing⟩
      exact later.cons plainLetter (by simp [TemplatePart.name?])
  | case6 rest name => exact (FaultAt.nested rest (plain name rfl)).decided
  | case7 rest name value found _ ih =>
      have later : Decided values rest := ih (by simp)
      have whole : withName (some name) ('}' :: rest) = (TemplatePart.placeholder name).written ++ rest := by
        simp [withName, TemplatePart.written]
      rw [whole]
      exact later.cons (plain name rfl) (by simp [TemplatePart.name?, found])
  | case8 rest name absent => exact (FaultAt.missing rest (plain name rfl) absent).decided
  | case9 c rest name opening closing ih =>
      have whole : withName (some name) (c :: rest) = withName (some (name ++ [c])) rest := by simp [withName]
      rw [whole]
      apply ih
      rintro _ ⟨⟩
      exact List.forall_mem_append.mpr ⟨plain name rfl, List.forall_mem_singleton.mpr ⟨opening, closing⟩⟩

section

variable {template : String} {entries : List (String × String)}

theorem resolveTemplate_given {parts : List TemplatePart}
    (whole : template.toList = parts.flatMap TemplatePart.written)
    (given : Given (fun name => Entries.find? name entries) parts) :
    resolveTemplate template entries = .ok (fill (fun name => Entries.find? name entries) parts) :=
  resolveTemplate_fill ⟨whole, given.1⟩ given.2

theorem resolveTemplate_firstFault {fault : TemplateFault}
    (found : FirstFault (fun name => Entries.find? name entries) template.toList fault) :
    resolveTemplate template entries = .error fault := by
  obtain ⟨parts, rest, whole, given, own⟩ := found
  rw [resolveTemplate, whole, resolveRest_given given, own.resolveRest]
  rfl

theorem decided_template (template : String) (entries : List (String × String)) :
    Decided (fun name => Entries.find? name entries) template.toList :=
  decided_withName _ none template.toList (by simp)

end

/-- A template is resolved exactly if it is made of letters and placeholders with values, to its text with the values
in it. Otherwise the fault is the first one from the left. -/
theorem resolveTemplate_outcome (template : String) (entries : List (String × String)) :
    (∀ text, resolveTemplate template entries = .ok text ↔
      ∃ parts, IsTemplate template.toList parts ∧
        (∀ name ∈ placeholders parts, (Entries.find? name entries).isSome = true) ∧
        text = fill (fun name => Entries.find? name entries) parts) ∧
    ∀ fault, resolveTemplate template entries = .error fault ↔
      FirstFault (fun name => Entries.find? name entries) template.toList fault := by
  constructor
  · intro text
    constructor
    · intro resolved
      rcases decided_template template entries with ⟨parts, whole, given⟩ | ⟨fault, found⟩
      · rw [resolveTemplate_given whole given] at resolved
        exact ⟨parts, ⟨whole, given.1⟩, given.2, (Except.ok.inj resolved).symm⟩
      · rw [resolveTemplate_firstFault found] at resolved
        cases resolved
    · rintro ⟨parts, isTemplate, given, rfl⟩
      exact resolveTemplate_fill isTemplate given
  · intro fault
    constructor
    · intro failed
      rcases decided_template template entries with ⟨parts, whole, given⟩ | ⟨other, found⟩
      · rw [resolveTemplate_given whole given] at failed
        cases failed
      · rw [resolveTemplate_firstFault found] at failed
        cases failed
        exact found
    · exact resolveTemplate_firstFault

end OpenApiClient.Client
