import OpenApiClient.Proofs.Paths
import OpenApiClient.Proofs.Records
import OpenApiClient.Proofs.RequestQueries

/-! Lists of texts as one query parameter. The texts are joined by commas, and what is joined is encoded as a whole, so
that a comma of a text and one between two texts are written in the same way: the URL tells two lists apart exactly
when they still differ once every text is divided at its commas. -/

namespace OpenApiClient

namespace Text

variable {separator : Char}

theorem intercalate_splitAt (separator : Char) (text : List Char) :
    [separator].intercalate (splitAt separator text) = text := by
  induction text with
  | nil => rfl
  | cons c rest ih =>
      obtain ⟨part, parts, split⟩ := List.exists_cons_of_ne_nil (splitAt_ne_nil separator rest)
      rw [splitAt, split]
      rw [split] at ih
      by_cases same : c = separator
      · rw [if_pos same, List.intercalate_cons_cons, ih, same]
        rfl
      · rw [if_neg same]
        cases parts with
        | nil => simpa using ih
        | cons next parts =>
            rw [List.intercalate_cons_cons] at ih ⊢
            rw [List.cons_append, List.cons_append, ih]

/-- Joined texts are divided where they were joined and where they hold the separator themselves. -/
theorem splitAt_intercalate {parts : List (List Char)} (filled : parts ≠ []) :
    splitAt separator ([separator].intercalate parts) = parts.flatMap (splitAt separator) := by
  induction parts with
  | nil => contradiction
  | cons part rest ih =>
      cases rest with
      | nil => simp
      | cons next rest =>
          have later := ih (List.cons_ne_nil next rest)
          rw [List.intercalate_cons_cons, List.append_assoc, List.singleton_append, splitAt_joined, later]
          rfl

theorem intercalate_eq_iff {parts others : List (List Char)} (filled : parts ≠ []) (filledOthers : others ≠ []) :
    [separator].intercalate parts = [separator].intercalate others ↔
      parts.flatMap (splitAt separator) = others.flatMap (splitAt separator) := by
  rw [← splitAt_intercalate filled, ← splitAt_intercalate filledOthers]
  constructor
  · exact congrArg (splitAt separator)
  · intro same
    have joined := congrArg [separator].intercalate same
    rwa [intercalate_splitAt, intercalate_splitAt] at joined

theorem flatMap_splitAt_whole {parts : List (List Char)} (absent : ∀ part ∈ parts, separator ∉ part) :
    parts.flatMap (splitAt separator) = parts := by
  rw [List.flatMap_congr fun part member => splitAt_whole (absent part member), List.flatMap_singleton']

theorem formFields_eq_iff {pairs others : List (String × String)} (filled : pairs ≠ []) (filledOthers : others ≠ []) :
    formFields pairs = formFields others ↔ pairs = others := by
  constructor
  · intro same
    have read := readFormFields_formFields filled
    rw [same, readFormFields_formFields filledOthers] at read
    exact (Except.ok.inj read).symm
  · exact congrArg formFields

end Text

namespace Client

def joinedForm : QueryForm := ⟨"form", false⟩

def textList (texts : List String) : Value := .array (texts.map .string)

def commaParts (texts : List String) : List (List Char) :=
  (texts.map String.toList).flatMap (Text.splitAt ',')

theorem commaParts_whole {texts : List String} (plain : ∀ text ∈ texts, ',' ∉ text.toList) :
    commaParts texts = texts.map String.toList :=
  Text.flatMap_splitAt_whole (List.forall_mem_map.mpr plain)

theorem joined_eq_iff {texts others : List String} (filled : texts ≠ []) (filledOthers : others ≠ []) :
    ",".intercalate texts = ",".intercalate others ↔ commaParts texts = commaParts others := by
  rw [← String.toList_inj, String.toList_intercalate, String.toList_intercalate]
  exact Text.intercalate_eq_iff (mt List.map_eq_nil_iff.mp filled) (mt List.map_eq_nil_iff.mp filledOthers)

namespace Request

variable {request : Request}

theorem formatValue_strings (texts : List String) : (texts.map Value.string).mapM formatValue = .ok texts := by
  induction texts with
  | nil => rfl
  | cons text rest ih =>
      rw [List.map_cons, List.mapM_cons, ih]
      rfl

theorem jsonForm_textList (classes : Classes) (texts : List String) :
    classes.jsonForm (textList texts) = .ok (textList texts) := by
  apply Classes.jsonForm_of_isJson
  exact .array (List.forall_mem_map.mpr fun text _ => .string text)

theorem collect_textList (key : String) (texts : List String) :
    joinedForm.collect key (textList texts) = ⟨[(key, ",".intercalate texts)], none⟩ := by
  have styled : joinedForm.style ≠ "deepObject" := by decide
  simp only [QueryForm.collect, if_neg styled, textList, formatValue_strings]
  rfl

theorem addQuery_textList (classes : Classes) (key : String) (texts : List String) :
    request.addQuery classes key (textList texts) joinedForm =
      ⟨{ request with query := request.query ++ [(key, ",".intercalate texts)] }, none⟩ := by
  rw [addQuery, if_neg (by simp [textList, Value.isNull]), jsonForm_textList]
  dsimp only
  rw [collect_textList]

theorem url_filled {path : String} (resolved : resolveTemplate request.pathTemplate request.pathValues = .ok path)
    {query : List (String × String)} (filled : query ≠ []) :
    { request with query := query }.url =
      .ok (String.ofList (request.address path ++ '?' :: (Text.formFields query).toList)) := by
  refine url_ok_iff.mpr ⟨path, resolved, ?_⟩
  rw [String.toList_ofList, queryPart, if_neg (by simpa using filled)]
  rfl

end Request

/-- Two lists of texts give the same URL exactly if they are the same once divided at their commas. Lists whose texts
have no commas are told apart. -/
theorem joined_urls_same_iff (classes : Classes) {request : Request} {base : String} (made : request.url = .ok base)
    (key : String) {texts others : List String} (filled : texts ≠ []) (filledOthers : others ≠ []) :
    ∃ joined joinedToo first second, (request.addQuery classes key (textList texts) joinedForm).outcome = .ok joined ∧
      (request.addQuery classes key (textList others) joinedForm).outcome = .ok joinedToo ∧
      joined.url = .ok first ∧ joinedToo.url = .ok second ∧
      (first = second ↔ commaParts texts = commaParts others) ∧
      ((∀ text ∈ texts ++ others, ',' ∉ text.toList) → texts ≠ others → first ≠ second) := by
  obtain ⟨path, resolved, -⟩ := Request.url_ok_iff.mp made
  have extended : ∀ text, request.query ++ [(key, text)] ≠ [] := fun text =>
    List.append_ne_nil_of_right_ne_nil _ (List.cons_ne_nil _ _)
  rw [Request.addQuery_textList, Request.addQuery_textList]
  have same : (String.ofList (request.address path ++ '?' ::
        (Text.formFields (request.query ++ [(key, ",".intercalate texts)])).toList) =
      String.ofList (request.address path ++ '?' ::
        (Text.formFields (request.query ++ [(key, ",".intercalate others)])).toList)) ↔
      commaParts texts = commaParts others := by
    rw [String.ofList_inj, List.append_cancel_left_eq, List.cons_inj_right, String.toList_inj,
      Text.formFields_eq_iff (extended _) (extended _), List.append_cancel_left_eq, List.singleton_inj,
      Prod.mk.injEq, eq_self, true_and, joined_eq_iff filled filledOthers]
  refine ⟨_, _, _, _, rfl, rfl, Request.url_filled resolved (extended _), Request.url_filled resolved (extended _),
    same, ?_⟩
  intro plain different
  obtain ⟨own, other⟩ := List.forall_mem_append.mp plain
  rw [ne_eq, same, commaParts_whole own, commaParts_whole other]
  exact fun alike => different (List.map_injective_iff.mpr (fun _ _ => String.toList_inj.mp) alike)

def withTags (texts : List String) : Setting :=
  (Request.start "get" "https://api.test" "/notes").addQuery ⟨[]⟩ "tags" (textList texts) joinedForm

theorem tags_apart :
    ∃ joined joinedToo first second, (withTags ["red", "blue & green"]).outcome = .ok joined ∧
      (withTags ["red blue", "&", "green"]).outcome = .ok joinedToo ∧
      joined.url = .ok first ∧ joinedToo.url = .ok second ∧ first ≠ second := by
  have made : (Request.start "get" "https://api.test" "/notes").url = .ok "https://api.test/notes" := by rfl
  obtain ⟨joined, joinedToo, first, second, done, doneToo, written, writtenToo, -, apart⟩ :=
    joined_urls_same_iff ⟨[]⟩ made "tags" (List.cons_ne_nil "red" ["blue & green"])
      (List.cons_ne_nil "red blue" ["&", "green"])
  exact ⟨joined, joinedToo, first, second, done, doneToo, written, writtenToo, apart (by decide) (by decide)⟩

/-- A text with a comma is written as the two texts beside the comma are. -/
theorem comma_tags_alike :
    ["a,b"] ≠ ["a", "b"] ∧ (withTags ["a,b"]).request.url = .ok "https://api.test/notes?tags=a%2Cb" ∧
      (withTags ["a", "b"]).request.url = .ok "https://api.test/notes?tags=a%2Cb" := by
  exact ⟨by decide, by rfl, by rfl⟩

end Client
end OpenApiClient
