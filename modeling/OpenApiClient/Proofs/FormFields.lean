import OpenApiClient.Json.Reader
import OpenApiClient.Proofs.Outcome
import OpenApiClient.Proofs.Utf8
import OpenApiClient.Text.Percent

/-! Form fields. What is written for a name or a value holds none of the characters that tell fields apart, so
that fields are read back from their text, the same ones in the same order. -/

namespace OpenApiClient.Text

/-- The octets that form text stands for. A percent sign that two hexadecimal digits do not follow stands for
itself. -/
def formOctets : List Char → List UInt8
  | [] => []
  | '+' :: rest => 32 :: formOctets rest
  | '%' :: high :: low :: rest =>
      match Json.hexValue? high, Json.hexValue? low with
      | some high, some low => UInt8.ofNat (high * 16 + low) :: formOctets rest
      | _, _ => String.utf8EncodeChar '%' ++ formOctets (high :: low :: rest)
  | c :: rest => String.utf8EncodeChar c ++ formOctets rest

def formDecode (text : List Char) : Except Utf8Fault String :=
  String.ofList <$> decodeUtf8 (formOctets text)

def readFormPair (part : List Char) : Except Utf8Fault (String × String) := do
  let name ← formDecode (part.takeWhile (· != '='))
  let value ← formDecode ((part.dropWhile (· != '=')).drop 1)
  pure (name, value)

def readFormFields (text : List Char) : Except Utf8Fault (List (String × String)) :=
  (splitAt '&' text).mapM readFormPair

theorem percentDigit_spec : ∀ n < 16,
    Json.hexValue? (percentDigit n) = some n ∧ isUnreserved (percentDigit n) = true := by
  decide

theorem percentOctet_halves (octet : UInt8) : octet.toNat / 16 < 16 ∧ octet.toNat % 16 < 16 := by
  have bound := octet.toNat_lt
  omega

/-! Which characters are written. -/

theorem percentCharacter_plain (c : Char) : ∀ d ∈ percentCharacter c, isUnreserved d = true ∨ d = '%' := by
  intro d member
  unfold percentCharacter at member
  split at member
  · rename_i plain
    rw [List.mem_singleton.mp member]
    exact .inl plain
  · obtain ⟨octet, -, among⟩ := List.mem_flatMap.mp member
    have halves := percentOctet_halves octet
    simp only [percentOctet, List.mem_cons, List.not_mem_nil, or_false] at among
    rcases among with rfl | rfl | rfl
    · exact .inr rfl
    · exact .inl (percentDigit_spec _ halves.1).2
    · exact .inl (percentDigit_spec _ halves.2).2

theorem percentEncode_plain (text : List Char) : ∀ d ∈ percentEncode text, isUnreserved d = true ∨ d = '%' := by
  intro d member
  obtain ⟨c, -, among⟩ := List.mem_flatMap.mp member
  exact percentCharacter_plain c d among

theorem formEncode_plain (text : List Char) :
    ∀ d ∈ formEncode text, isUnreserved d = true ∨ d = '%' ∨ d = '+' := by
  intro d member
  obtain ⟨c, -, among⟩ := List.mem_flatMap.mp member
  split at among
  · exact .inr (.inr (List.mem_singleton.mp among))
  · rcases percentCharacter_plain c d among with plain | percent
    · exact .inl plain
    · exact .inr (.inl percent)

/-- No separator of fields is written for a name or a value. -/
theorem not_mem_formEncode {separator : Char} (special : separator = '&' ∨ separator = '=') (text : List Char) :
    separator ∉ formEncode text := by
  intro member
  have plain := formEncode_plain text separator member
  rcases special with rfl | rfl
  · exact absurd plain (by decide)
  · exact absurd plain (by decide)

/-! Names and values are read back. -/

theorem formOctets_octet (octet : UInt8) (rest : List Char) :
    formOctets (percentOctet octet ++ rest) = octet :: formOctets rest := by
  have halves := percentOctet_halves octet
  have whole : octet.toNat / 16 * 16 + octet.toNat % 16 = octet.toNat := by omega
  change formOctets ('%' :: percentDigit (octet.toNat / 16) :: percentDigit (octet.toNat % 16) :: rest) = _
  rw [formOctets]
  simp only [(percentDigit_spec _ halves.1).1, (percentDigit_spec _ halves.2).1, whole, UInt8.ofNat_toNat]

theorem formOctets_octets (octets : List UInt8) (rest : List Char) :
    formOctets (octets.flatMap percentOctet ++ rest) = octets ++ formOctets rest := by
  induction octets with
  | nil => rfl
  | cons octet others ih =>
      rw [List.flatMap_cons, List.append_assoc, formOctets_octet, ih, List.cons_append]

theorem formOctets_plain {c : Char} (plain : isUnreserved c = true) (rest : List Char) :
    formOctets (c :: rest) = String.utf8EncodeChar c ++ formOctets rest := by
  have notPlus : c ≠ '+' := by
    rintro rfl
    exact absurd plain (by decide)
  have notPercent : c ≠ '%' := by
    rintro rfl
    exact absurd plain (by decide)
  rw [formOctets.eq_def]
  split <;> simp_all

theorem formOctets_formEncode (text : List Char) : formOctets (formEncode text) = encodeUtf8 text := by
  induction text with
  | nil => rfl
  | cons c rest ih =>
      have first : formOctets ((if c = ' ' then ['+'] else percentCharacter c) ++ formEncode rest) =
          String.utf8EncodeChar c ++ formOctets (formEncode rest) := by
        by_cases space : c = ' '
        · rw [if_pos space, space]
          rfl
        · rw [if_neg space, percentCharacter]
          by_cases plain : isUnreserved c = true
          · rw [if_pos plain]
            exact formOctets_plain plain _
          · rw [if_neg plain]
            exact formOctets_octets _ _
      rw [encodeUtf8, List.flatMap_cons, ← encodeUtf8, ← ih]
      exact first

theorem formDecode_formEncode (text : String) : formDecode (formEncode text.toList) = .ok text := by
  rw [formDecode, formOctets_formEncode, decodeUtf8_encodeUtf8]
  exact congrArg Except.ok (String.ofList_toList)

/-! Fields are told apart. -/

theorem splitAt_append {separator : Char} {part : List Char} (absent : separator ∉ part) (rest : List Char) :
    splitAt separator (part ++ separator :: rest) = part :: splitAt separator rest := by
  induction part with
  | nil => simp [splitAt]
  | cons c part ih =>
      obtain ⟨different, absent⟩ := not_or.mp (mt List.mem_cons.mpr absent)
      rw [List.cons_append, splitAt, if_neg (Ne.symm different), ih absent]

theorem splitAt_whole {separator : Char} {part : List Char} (absent : separator ∉ part) :
    splitAt separator part = [part] := by
  induction part with
  | nil => rfl
  | cons c part ih =>
      obtain ⟨different, absent⟩ := not_or.mp (mt List.mem_cons.mpr absent)
      rw [splitAt, if_neg (Ne.symm different), ih absent]

theorem splitAt_joinWith {separator : Char} {parts : List (List Char)} (filled : parts ≠ [])
    (absent : ∀ part ∈ parts, separator ∉ part) : splitAt separator (joinWith [separator] parts) = parts := by
  induction parts with
  | nil => contradiction
  | cons part rest ih =>
      obtain ⟨first, others⟩ := List.forall_mem_cons.mp absent
      cases rest with
      | nil => exact splitAt_whole first
      | cons next rest =>
          have later := ih (List.cons_ne_nil next rest) others
          rw [joinWith, List.append_assoc, List.singleton_append, splitAt_append first, later]
          simp

theorem readFormPair_formPair (pair : String × String) : readFormPair (formPair pair) = .ok pair := by
  have named : ∀ c ∈ formEncode pair.1.toList, (c != '=') = true := by
    intro c member
    have different : c ≠ '=' := fun same => not_mem_formEncode (.inr rfl) _ (same ▸ member)
    simpa using different
  have name : (formPair pair).takeWhile (· != '=') = formEncode pair.1.toList := by
    rw [formPair, List.takeWhile_append_of_pos named]
    simp
  have value : ((formPair pair).dropWhile (· != '=')).drop 1 = formEncode pair.2.toList := by
    rw [formPair, List.dropWhile_append_of_pos named]
    simp
  rw [readFormPair, name, value, formDecode_formEncode, formDecode_formEncode]
  rfl

theorem readFormFields_formFields {pairs : List (String × String)} (filled : pairs ≠ []) :
    readFormFields (formFields pairs).toList = .ok pairs := by
  have apart : ∀ part ∈ pairs.map formPair, '&' ∉ part := by
    intro part member
    obtain ⟨pair, -, rfl⟩ := List.mem_map.mp member
    rw [formPair, List.mem_append, List.mem_cons]
    rintro (inName | separates | inValue)
    · exact not_mem_formEncode (.inl rfl) _ inName
    · exact absurd separates (by decide)
    · exact not_mem_formEncode (.inl rfl) _ inValue
  have listed : pairs.map formPair ≠ [] := by simpa using filled
  rw [readFormFields, formFields, String.toList_ofList, splitAt_joinWith listed apart, mapM_ok_iff,
    List.forall₂_map_left_iff, List.forall₂_same]
  exact fun pair _ => readFormPair_formPair pair

end OpenApiClient.Text
