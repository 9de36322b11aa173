import Mathlib.Data.List.Infix
import OpenApiClient.Client.Request
import OpenApiClient.Proofs.Outcome

/-! The cookies of a request. They stand in one header, a semicolon and a blank between them, and each as its name,
an equals sign and its text. Names keep clear of what divides them, but the texts are written as they are: the header
reads back as the cookies that were collected exactly when none of their texts has a semicolon with a blank after it. -/

namespace OpenApiClient.Client

/-! Reading the header. -/

def cookieBreak : List Char := [';', ' ']

def cookieParts : List Char → List (List Char)
  | [] => [[]]
  | ';' :: ' ' :: rest => [] :: cookieParts rest
  | c :: rest => (cookieParts rest).modifyHead (c :: ·)

def readCookie (part : List Char) : String × String :=
  (String.ofList (part.takeWhile (· != '=')), String.ofList ((part.dropWhile (· != '=')).drop 1))

def readCookies (header : String) : List (String × String) := (cookieParts header.toList).map readCookie

theorem cookieParts_cons {c : Char} {rest : List Char} (whole : ¬cookieBreak <+: c :: rest) :
    cookieParts (c :: rest) = (cookieParts rest).modifyHead (c :: ·) := by
  rw [cookieParts.eq_def]
  split
  · contradiction
  · rename_i following same
    obtain ⟨rfl, rfl⟩ := List.cons.inj same
    exact absurd ⟨following, rfl⟩ whole
  · rename_i same
    obtain ⟨rfl, rfl⟩ := List.cons.inj same
    rfl

theorem cookieParts_ne_nil (text : List Char) : cookieParts text ≠ [] := by
  fun_induction cookieParts text with
  | case1 => simp
  | case2 => simp
  | case3 c rest _ ih => simpa using ih

/-- What divides is found where it was put, whatever stands before it. -/
theorem cookieParts_joined (text rest : List Char) :
    cookieParts (text ++ (cookieBreak ++ rest)) = cookieParts text ++ cookieParts rest := by
  fun_induction cookieParts text with
  | case1 => rfl
  | case2 text ih =>
      change [] :: cookieParts (text ++ (cookieBreak ++ rest)) = _
      rw [ih, List.cons_append]
  | case3 c text whole ih =>
      have apart : ¬cookieBreak <+: c :: (text ++ (cookieBreak ++ rest)) := by
        rintro ⟨following, same⟩
        obtain ⟨rfl, later⟩ := List.cons.inj same
        cases text with
        | nil => exact absurd (List.cons.inj later).1 (by decide)
        | cons d text =>
            obtain ⟨rfl, -⟩ := List.cons.inj later
            exact whole text rfl rfl
      rw [List.cons_append, cookieParts_cons apart, ih]
      obtain ⟨part, parts, split⟩ := List.exists_cons_of_ne_nil (cookieParts_ne_nil text)
      rw [split]
      rfl

theorem cookieParts_whole {text : List Char} (whole : ¬cookieBreak <:+: text) : cookieParts text = [text] := by
  induction text with
  | nil => rfl
  | cons c rest ih =>
      rw [List.infix_cons_iff, not_or] at whole
      rw [cookieParts_cons whole.1, ih whole.2]
      rfl

theorem cookieParts_length_eq_one_iff (text : List Char) :
    (cookieParts text).length = 1 ↔ ¬cookieBreak <:+: text := by
  constructor
  · rintro single ⟨before, rest, rfl⟩
    have first := List.length_pos_of_ne_nil (cookieParts_ne_nil before)
    have second := List.length_pos_of_ne_nil (cookieParts_ne_nil rest)
    rw [List.append_assoc, cookieParts_joined, List.length_append] at single
    omega
  · intro whole
    rw [cookieParts_whole whole, List.length_singleton]

theorem cookieParts_intercalate {parts : List (List Char)} (filled : parts ≠ []) :
    cookieParts (cookieBreak.intercalate parts) = parts.flatMap cookieParts := by
  induction parts with
  | nil => contradiction
  | cons part rest ih =>
      cases rest with
      | nil => simp
      | cons next rest =>
          have later := ih (List.cons_ne_nil next rest)
          rw [List.intercalate_cons_cons, List.append_assoc, cookieParts_joined, later]
          rfl

theorem flatMap_cookieParts_length {parts : List (List Char)} :
    parts.length ≤ (parts.flatMap cookieParts).length ∧
      ((parts.flatMap cookieParts).length = parts.length ↔ ∀ part ∈ parts, ¬cookieBreak <:+: part) := by
  induction parts with
  | nil => simp
  | cons part rest ih =>
      obtain ⟨bound, same⟩ := ih
      have first := List.length_pos_of_ne_nil (cookieParts_ne_nil part)
      simp only [List.flatMap_cons, List.length_append, List.length_cons, List.forall_mem_cons,
        ← cookieParts_length_eq_one_iff part, ← same]
      omega

/-! Cookies as they are written. -/

structure IsCookieName (name : String) : Prop where
  undivided : '=' ∉ name.toList
  unbroken : ';' ∉ name.toList

def cookieText (cookie : String × String) : List Char := cookie.1.toList ++ '=' :: cookie.2.toList

theorem cookieText_broken_iff {cookie : String × String} (unbroken : ';' ∉ cookie.1.toList) :
    cookieBreak <:+: cookieText cookie ↔ cookieBreak <:+: cookie.2.toList := by
  have passed : ∀ {c : Char} {rest : List Char}, c ≠ ';' → (cookieBreak <:+: c :: rest ↔ cookieBreak <:+: rest) := by
    intro c rest different
    rw [List.infix_cons_iff, or_iff_right]
    rintro ⟨following, same⟩
    exact different (List.cons.inj same).1.symm
  rw [cookieText]
  generalize cookie.1.toList = name at unbroken
  induction name with
  | nil => exact passed (by decide)
  | cons c name ih =>
      obtain ⟨different, others⟩ := not_or.mp (mt List.mem_cons.mpr unbroken)
      exact (passed (Ne.symm different)).trans (ih others)

theorem readCookie_cookieText {cookie : String × String} (named : IsCookieName cookie.1) :
    readCookie (cookieText cookie) = cookie := by
  have before : ∀ c ∈ cookie.1.toList, (c != '=') = true := by
    intro c member
    have different : c ≠ '=' := fun same => named.undivided (same ▸ member)
    simpa using different
  rw [readCookie, cookieText, List.takeWhile_append_of_pos before, List.dropWhile_append_of_pos before]
  simp

/-- Cookies that are written are read back exactly if no text among them is divided: where one is, there are more
cookies in the header than were written. -/
theorem readCookies_joined_iff {cookies : List (String × String)} (filled : cookies ≠ [])
    (named : ∀ cookie ∈ cookies, IsCookieName cookie.1) {header : String}
    (written : header.toList = cookieBreak.intercalate (cookies.map cookieText)) :
    readCookies header = cookies ↔ ∀ cookie ∈ cookies, ¬cookieBreak <:+: cookie.2.toList := by
  have texts : (∀ part ∈ cookies.map cookieText, ¬cookieBreak <:+: part) ↔
      ∀ cookie ∈ cookies, ¬cookieBreak <:+: cookie.2.toList := by
    rw [List.forall_mem_map]
    exact forall₂_congr fun cookie member => not_congr (cookieText_broken_iff (named cookie member).unbroken)
  have listed : cookies.map cookieText ≠ [] := mt List.map_eq_nil_iff.mp filled
  rw [readCookies, written, cookieParts_intercalate listed, ← texts]
  constructor
  · intro same
    have counted := congrArg List.length same
    rw [List.length_map] at counted
    exact flatMap_cookieParts_length.2.mp (counted.trans (List.length_map cookieText).symm)
  · intro whole
    have single : (cookies.map cookieText).flatMap cookieParts = cookies.map cookieText := by
      rw [List.flatMap_congr fun part member => cookieParts_whole (whole part member), List.flatMap_singleton']
    rw [single, List.map_map]
    exact (List.map_congr_left fun cookie member => readCookie_cookieText (named cookie member)).trans
      (List.map_id cookies)

/-! Cookies that are set. -/

def ReadyRequest.cookies (ready : ReadyRequest) : List (String × String) :=
  ((Entries.find? "Cookie" ready.headers).map readCookies).getD []

namespace Request

def withCookies (request : Request) (calls : List (String × Value)) : Request :=
  calls.foldl (fun request call => (request.setCookie call.1 call.2).request) request

theorem setCookie_headers (request : Request) (key : String) (value : Value) :
    (request.setCookie key value).request.headers = request.headers :=
  setting_keeps Request.headers fun _ => rfl

theorem withCookies_headers (request : Request) (calls : List (String × Value)) :
    (request.withCookies calls).headers = request.headers := by
  induction calls generalizing request with
  | nil => rfl
  | cons call rest ih => exact (ih _).trans (setCookie_headers request call.1 call.2)

theorem setCookie_named {request : Request} (named : ∀ cookie ∈ request.cookies, IsCookieName cookie.1)
    {key : String} (own : IsCookieName key) (value : Value) :
    ∀ cookie ∈ (request.setCookie key value).request.cookies, IsCookieName cookie.1 := by
  rw [setCookie]
  rcases setting_request request value _ with same | ⟨text, stored⟩
  · rw [same]
    exact named
  · rw [stored]
    intro cookie member
    rcases Entries.key_of_mem_set member with same | known
    · exact same ▸ own
    · obtain ⟨old, among, same⟩ := List.mem_map.mp known
      exact same ▸ named old among

theorem withCookies_named {request : Request} (named : ∀ cookie ∈ request.cookies, IsCookieName cookie.1)
    {calls : List (String × Value)} (own : ∀ call ∈ calls, IsCookieName call.1) :
    ∀ cookie ∈ (request.withCookies calls).cookies, IsCookieName cookie.1 := by
  induction calls generalizing request with
  | nil => exact named
  | cons call rest ih =>
      obtain ⟨first, others⟩ := List.forall_mem_cons.mp own
      exact ih (setCookie_named named first call.2) others

theorem ownHeaders_joined {request : Request} (filled : request.cookies ≠ []) :
    ∃ header, Entries.find? "Cookie" request.ownHeaders = some header ∧
      header.toList = cookieBreak.intercalate (request.cookies.map cookieText) := by
  refine ⟨"; ".intercalate (request.cookies.map fun cookie => cookie.1 ++ "=" ++ cookie.2), ?_, ?_⟩
  · rw [ownHeaders, if_neg (by simpa using filled)]
    exact Entries.find?_set_self _ _ _
  · rw [String.toList_intercalate, List.map_map]
    refine congrArg (List.intercalate _) (List.map_congr_left fun cookie _ => ?_)
    simp [cookieText]

/-- A body changes the header of its own type only. -/
theorem ready_cookies {classes : Classes} {request : Request} {body : Value} {contentType : String}
    {ready : ReadyRequest} (made : request.ready classes body contentType = .ok ready) :
    ready.cookies = ((Entries.find? "Cookie" request.ownHeaders).map readCookies).getD [] := by
  obtain ⟨url, -, made⟩ := except_bind_ok.mp made
  split at made
  · obtain rfl := except_pure_ok.mp made
    rfl
  · obtain ⟨data, -, made⟩ := except_bind_ok.mp made
    obtain ⟨payload, -, made⟩ := except_bind_ok.mp made
    obtain rfl := except_pure_ok.mp made
    rw [ReadyRequest.cookies, Entries.find?_set_other (by decide)]

end Request

/-- The cookies that were collected are read back from the request, the same ones in the same order, exactly if none of
their texts has a semicolon with a blank after it. -/
theorem cookies_readBack_iff (classes : Classes) {request : Request} (bare : request.cookies = [])
    (unset : Entries.find? "Cookie" request.headers = none) (calls : List (String × Value))
    (named : ∀ call ∈ calls, IsCookieName call.1) {body : Value} {contentType : String} {ready : ReadyRequest}
    (made : (request.withCookies calls).ready classes body contentType = .ok ready) :
    ready.cookies = (request.withCookies calls).cookies ↔
      ∀ cookie ∈ (request.withCookies calls).cookies, ¬cookieBreak <:+: cookie.2.toList := by
  rw [Request.ready_cookies made]
  by_cases empty : (request.withCookies calls).cookies = []
  · have headers : (request.withCookies calls).ownHeaders = request.headers := by
      rw [Request.ownHeaders, empty, List.isEmpty_nil, if_pos rfl, Request.withCookies_headers]
    rw [headers, unset, empty]
    exact iff_of_true rfl (by simp)
  · obtain ⟨header, sent, written⟩ := Request.ownHeaders_joined empty
    have own : ∀ cookie ∈ (request.withCookies calls).cookies, IsCookieName cookie.1 :=
      Request.withCookies_named (by simp [bare]) named
    rw [sent]
    exact readCookies_joined_iff empty own written

/-- A session whose text is set anew, in its first place, beside texts that are empty or hold what divides cookies one
by one. -/
def sessionCalls : List (String × Value) :=
  [("session", .string "s1"), ("tries", .int 3), ("theme", .null), ("note", .string "a=b;c;"),
    ("session", .string " s2"), ("draft", .string "")]

def notesRequest (calls : List (String × Value)) : Request :=
  (Request.start "get" "https://api.test" "/notes").withCookies calls

def notesReady (header : String) : ReadyRequest :=
  ⟨"GET", "https://api.test/notes", [("Cookie", header)], .none⟩

theorem sessionCalls_readBack :
    (notesRequest sessionCalls).ready ⟨[]⟩ .null "application/json" =
        .ok (notesReady "session= s2; tries=3; note=a=b;c;; draft=") ∧
      (notesReady "session= s2; tries=3; note=a=b;c;; draft=").cookies =
        [("session", " s2"), ("tries", "3"), ("note", "a=b;c;"), ("draft", "")] := by
  have made : (notesRequest sessionCalls).ready ⟨[]⟩ .null "application/json" =
      .ok (notesReady "session= s2; tries=3; note=a=b;c;; draft=") := by rfl
  have collected : (notesRequest sessionCalls).cookies =
      [("session", " s2"), ("tries", "3"), ("note", "a=b;c;"), ("draft", "")] := by decide +kernel
  have named : ∀ call ∈ sessionCalls, IsCookieName call.1 := by
    have apart : ∀ call ∈ sessionCalls, '=' ∉ call.1.toList ∧ ';' ∉ call.1.toList := by decide +kernel
    exact fun call member => ⟨(apart call member).1, (apart call member).2⟩
  have whole : ∀ cookie ∈ (notesRequest sessionCalls).cookies, ¬cookieBreak <:+: cookie.2.toList := by
    rw [collected]
    decide +kernel
  have read := (cookies_readBack_iff ⟨[]⟩ rfl rfl sessionCalls named made).mpr whole
  exact ⟨made, read.trans collected⟩

/-- A text that holds what divides cookies adds a cookie that was not collected. -/
theorem divided_session_adds :
    IsCookieName "session" ∧
      (notesRequest [("session", .string "s1; lang=en")]).cookies = [("session", "s1; lang=en")] ∧
      (notesRequest [("session", .string "s1; lang=en")]).ready ⟨[]⟩ .null "application/json" =
        .ok (notesReady "session=s1; lang=en") ∧
      (notesReady "session=s1; lang=en").cookies = [("session", "s1"), ("lang", "en")] := by
  have named : IsCookieName "session" := ⟨by decide, by decide⟩
  exact ⟨named, by decide +kernel, by rfl, by decide +kernel⟩

end OpenApiClient.Client
