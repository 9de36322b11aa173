import OpenApiClient.Proofs.Dispatch

/-! Status patterns as they are written. A pattern is put into small letters before it is read, and no letter from
elsewhere comes to a digit or a wildcard by this: what is read as three of them was written as three of them, with
perhaps a line feed at the end. -/

namespace OpenApiClient.Client

def isPlace (c : Char) : Bool := Text.isAsciiDigit c || c == 'x' || c == 'X'

def smallWildcard (c : Char) : Char := if c = 'X' then 'x' else c

/-- The digit at a place, where a wildcard is read as the digit given. -/
def placeValue (wildcard : Nat) (c : Char) : Nat := if c = 'x' ∨ c = 'X' then wildcard else c.toNat - '0'.toNat

def placesValue (wildcard : Nat) (a b c : Char) : Nat :=
  placeValue wildcard a * 100 + placeValue wildcard b * 10 + placeValue wildcard c

def IsWritten (pattern : String) (a b c : Char) (ending : List Char) : Prop :=
  pattern.toList = a :: b :: c :: ending ∧ ∀ d ∈ [a, b, c], isPlace d = true

/-! Small letters. -/

def patternPoints : List Nat := '\n'.toNat :: 'x'.toNat :: (List.range 10).map (· + '0'.toNat)

theorem counterpart?_some {runs : List (Nat × Nat × Nat × Int)} {point found : Nat}
    (counterpart : Text.counterpart? runs point = some found) :
    ∃ run ∈ runs, run.1 ≤ point ∧ point ≤ run.2.1 ∧ found = (point + run.2.2.2).toNat := by
  induction runs with
  | nil => cases counterpart
  | cons run rest ih =>
      rw [Text.counterpart?] at counterpart
      split at counterpart
      case isTrue inside =>
        exact ⟨run, List.mem_cons_self, inside.1, inside.2.1, (Option.some.inj counterpart).symm⟩
      case isFalse =>
        obtain ⟨other, member, bounds⟩ := ih counterpart
        exact ⟨other, List.mem_cons_of_mem _ member, bounds⟩

/-- No run of capital letters has a small letter among the characters of patterns. -/
theorem lowerRuns_apart : ∀ run ∈ Unicode.lowerRuns, ∀ point ∈ patternPoints,
    (point : Int) < run.1 + run.2.2.2 ∨ run.2.1 + run.2.2.2 < point := by
  decide +kernel

theorem lowerExpansions_apart : ∀ entry ∈ Unicode.lowerExpansions, ∀ point ∈ entry.2,
    (Char.ofNat point).toNat ∉ patternPoints := by
  decide +kernel

theorem patternPoints_ascii : ∀ point ∈ patternPoints, 0 < point ∧ point < 128 := by decide

theorem toNat_ofNat_cases (point : Nat) : (Char.ofNat point).toNat = point ∨ (Char.ofNat point).toNat = 0 := by
  by_cases valid : point.isValidChar
  · left
    rw [Char.ofNat, dif_pos valid]
    rfl
  · right
    rw [Char.ofNat, dif_neg valid]
    rfl

/-- What is brought in for a character beyond ASCII stands in no pattern. -/
theorem lowerCharacter_beyond {c d : Char} (beyond : Text.isAscii c = false) (member : d ∈ Text.lowerCharacter c) :
    d.toNat ∉ patternPoints := by
  intro present
  have ascii := patternPoints_ascii _ present
  rw [Text.lowerCharacter, beyond, if_neg Bool.false_ne_true, Text.mapBeyondAscii] at member
  split at member
  case h_1 points expansion =>
    obtain ⟨before, after, listed, -⟩ := List.lookup_eq_some_iff.mp expansion
    obtain ⟨point, among, rfl⟩ := List.mem_map.mp member
    exact lowerExpansions_apart (c.toNat, points) (by simp [listed]) point among present
  case h_2 =>
    split at member
    case h_1 found counterpart =>
      obtain rfl := List.mem_singleton.mp member
      obtain ⟨run, among, first, last, rfl⟩ := counterpart?_some counterpart
      have apart := lowerRuns_apart run among _ present
      have cases := toNat_ofNat_cases (c.toNat + run.2.2.2).toNat
      omega
    case h_2 =>
      obtain rfl := List.mem_singleton.mp member
      simp only [Text.isAscii, decide_eq_false_iff_not] at beyond
      omega

theorem lowerCharacter_ne_nil (c : Char) : Text.lowerCharacter c ≠ [] := by
  have filled : ∀ entry ∈ Unicode.lowerExpansions, entry.2 ≠ [] := by decide
  unfold Text.lowerCharacter Text.mapBeyondAscii
  split
  case isTrue => simp
  case isFalse =>
    split
    case h_1 points expansion =>
      obtain ⟨before, after, listed, -⟩ := List.lookup_eq_some_iff.mp expansion
      simpa using filled (c.toNat, points) (by simp [listed])
    case h_2 => split <;> simp

def isPatternLetter (c : Char) : Bool := isPlace c || c == '\n'

theorem lowerCharacter_ascii {c : Char} (ascii : Text.isAscii c = true) :
    ∃ d, Text.lowerCharacter c = [d] ∧ (d.toNat ∈ patternPoints ↔ isPatternLetter c = true) ∧
      (isPatternLetter c = true → d = smallWildcard c) := by
  refine ⟨if Text.isAsciiUpper c then Char.ofNat (c.toNat + 32) else c, by simp [Text.lowerCharacter, ascii], ?_⟩
  have checked := Text.of_ascii
    (fun c =>
      let d := if Text.isAsciiUpper c then Char.ofNat (c.toNat + 32) else c
      decide ((d.toNat ∈ patternPoints ↔ isPatternLetter c = true) ∧ (isPatternLetter c = true → d = smallWildcard c)))
    (by decide +kernel) ascii
  exact of_decide_eq_true checked

theorem isPatternLetter_ascii {c : Char} (letter : isPatternLetter c = true) : Text.isAscii c = true := by
  have bound : c ≤ 'z' := by
    simp only [isPatternLetter, isPlace, Text.isAsciiDigit, Bool.or_eq_true, Bool.and_eq_true, decide_eq_true_eq,
      beq_iff_eq] at letter
    rcases letter with ((⟨-, last⟩ | rfl) | rfl) | rfl
    · exact Char.le_trans last (by decide)
    all_goals decide
  exact Text.isAscii_of_le bound

/-- Small letters keep places and line feeds, but for the wildcards that are capital. -/
theorem lowerAfter_letters {text : List Char} (letters : ∀ c ∈ text, isPatternLetter c = true) (before : List Char) :
    Text.lowerAfter before text = text.map smallWildcard := by
  induction text generalizing before with
  | nil => rfl
  | cons c rest ih =>
      obtain ⟨letter, others⟩ := List.forall_mem_cons.mp letters
      have ascii := isPatternLetter_ascii letter
      have small : c ≠ 'Σ' := by
        rintro rfl
        exact absurd ascii (by decide)
      obtain ⟨d, lowered, -, same⟩ := lowerCharacter_ascii ascii
      rw [Text.lowerAfter, if_neg small, lowered, same letter, ih others]
      rfl

/-- Where nothing but places and line feeds comes out, nothing else was there before. -/
theorem letters_of_lowerAfter {text before : List Char}
    (points : ∀ d ∈ Text.lowerAfter before text, d.toNat ∈ patternPoints) : ∀ c ∈ text, isPatternLetter c = true := by
  induction text generalizing before with
  | nil => simp
  | cons c rest ih =>
      rw [Text.lowerAfter] at points
      obtain ⟨own, later⟩ := List.forall_mem_append.mp points
      refine List.forall_mem_cons.mpr ⟨?_, ih later⟩
      split at own
      case isTrue =>
        split at own <;> exact absurd (own _ (List.mem_singleton_self _)) (by decide)
      case isFalse =>
        cases ascii : Text.isAscii c with
        | true =>
            obtain ⟨d, lowered, present, -⟩ := lowerCharacter_ascii ascii
            exact present.mp (own d (by simp [lowered]))
        | false =>
            obtain ⟨d, member⟩ := List.exists_mem_of_ne_nil _ (lowerCharacter_ne_nil c)
            exact absurd (own d member) (lowerCharacter_beyond ascii member)

/-! Reading. -/

theorem smallWildcard_place (c : Char) : isPatternCharacter (smallWildcard c) = isPlace c := by
  by_cases capital : c = 'X'
  · subst capital
    decide
  · simp [smallWildcard, isPatternCharacter, isPlace, capital]

theorem smallWildcard_lineFeed {c : Char} : smallWildcard c = '\n' ↔ c = '\n' := by
  by_cases capital : c = 'X'
  · subst capital
    decide
  · simp [smallWildcard, capital]

theorem point_of_patternCharacter {c : Char} (found : isPatternCharacter c = true) : c.toNat ∈ patternPoints := by
  have checked := Text.of_ascii (fun c => !isPatternCharacter c || decide (c.toNat ∈ patternPoints))
    (by decide +kernel) (isPatternCharacter_plain found).1
  simpa [found] using checked

theorem patternDigits?_lower_iff {pattern : String} {digits : List Char} :
    patternDigits? pattern = some digits ↔ ∃ a b c ending, Text.lower pattern.toList = a :: b :: c :: ending ∧
      (ending = [] ∨ ending = ['\n']) ∧ (∀ d ∈ [a, b, c], isPatternCharacter d = true) ∧ digits = [a, b, c] := by
  constructor
  · intro found
    unfold patternDigits? at found
    split at found
    case h_1 a b c same =>
      simp only [Option.ite_none_right_eq_some, List.all_eq_true, Option.some.injEq] at found
      exact ⟨a, b, c, [], same, .inl rfl, found.1, found.2.symm⟩
    case h_2 a b c same =>
      simp only [Option.ite_none_right_eq_some, List.all_eq_true, Option.some.injEq] at found
      exact ⟨a, b, c, ['\n'], same, .inr rfl, found.1, found.2.symm⟩
    case h_3 => cases found
  · rintro ⟨a, b, c, ending, lowered, rfl | rfl, all, rfl⟩ <;>
      simp only [patternDigits?, lowered, List.all_eq_true.mpr all, ↓reduceIte]

theorem IsWritten.letters {pattern : String} {a b c : Char} {ending : List Char}
    (written : IsWritten pattern a b c ending) (short : ending = [] ∨ ending = ['\n']) :
    ∀ d ∈ pattern.toList, isPatternLetter d = true := by
  intro d member
  rw [written.1, show a :: b :: c :: ending = [a, b, c] ++ ending from rfl] at member
  rcases List.mem_append.mp member with place | last
  · simp [isPatternLetter, written.2 d place]
  · rcases short with rfl | rfl
    · contradiction
    · simp [isPatternLetter, List.mem_singleton.mp last]

/-- Three places are read whether or not a line feed stands after them, and nothing else is. -/
theorem patternDigits?_some_iff {pattern : String} {digits : List Char} :
    patternDigits? pattern = some digits ↔ ∃ a b c ending, IsWritten pattern a b c ending ∧
      (ending = [] ∨ ending = ['\n']) ∧ digits = [a, b, c].map smallWildcard := by
  rw [patternDigits?_lower_iff]
  constructor
  · rintro ⟨a', b', c', ending', lowered, short, all, rfl⟩
    have points : ∀ d ∈ Text.lower pattern.toList, d.toNat ∈ patternPoints := by
      intro d member
      rw [lowered, show a' :: b' :: c' :: ending' = [a', b', c'] ++ ending' from rfl] at member
      rcases List.mem_append.mp member with place | last
      · exact point_of_patternCharacter (all d place)
      · rcases short with rfl | rfl
        · contradiction
        · obtain rfl := List.mem_singleton.mp last
          decide
    -- The letters that the small ones come from stand in the same places.
    have kept : pattern.toList.map smallWildcard = a' :: b' :: c' :: ending' :=
      (lowerAfter_letters (letters_of_lowerAfter points) []).symm.trans lowered
    obtain ⟨a, _, text, rfl, others⟩ := List.map_eq_cons_iff.mp kept
    obtain ⟨b, _, rfl, rfl, third⟩ := List.map_eq_cons_iff.mp others
    obtain ⟨c, ending, rfl, rfl, left⟩ := List.map_eq_cons_iff.mp third
    refine ⟨a, b, c, ending, ⟨text, fun d place => ?_⟩, ?_, rfl⟩
    · rw [← smallWildcard_place]
      exact all _ (List.mem_map_of_mem (f := smallWildcard) place)
    · rcases short with rfl | rfl
      · exact .inl (List.map_eq_nil_iff.mp left)
      · obtain ⟨d, rfl, last⟩ := List.map_eq_singleton_iff.mp left
        exact .inr (by rw [smallWildcard_lineFeed.mp last])
  · rintro ⟨a, b, c, ending, written, short, rfl⟩
    refine ⟨_, _, _, ending.map smallWildcard, ?_, ?_, ?_, rfl⟩
    · rw [Text.lower, lowerAfter_letters (written.letters short), written.1]
      rfl
    · rcases short with rfl | rfl
      · exact .inl rfl
      · exact .inr rfl
    · change ∀ d ∈ [a, b, c].map smallWildcard, isPatternCharacter d = true
      simpa only [List.forall_mem_map, smallWildcard_place] using written.2

/-! Ranges. -/

theorem readDigits_places (wildcard : Nat) (a b c : Char) :
    readDigits wildcard ([a, b, c].map smallWildcard) = placesValue wildcard a b c := by
  have place (d : Char) :
      (if smallWildcard d = 'x' then wildcard else (smallWildcard d).toNat - 48) = placeValue wildcard d := by
    by_cases capital : d = 'X' <;> simp [smallWildcard, placeValue, capital]
  simp only [readDigits, List.map_cons, List.map_nil, List.foldl_cons, List.foldl_nil, place, placesValue]
  omega

theorem statusRange_ok_iff {pattern : String} {range : Nat × Nat} :
    statusRange pattern = .ok range ↔ ∃ a b c ending, IsWritten pattern a b c ending ∧
      (ending = [] ∨ ending = ['\n']) ∧ range = (placesValue 0 a b c, placesValue 9 a b c) := by
  have read : statusRange pattern = .ok range ↔
      ∃ digits, patternDigits? pattern = some digits ∧ range = (readDigits 0 digits, readDigits 9 digits) := by
    rw [statusRange]
    cases patternDigits? pattern <;> simp [eq_comm]
  rw [read]
  constructor
  · rintro ⟨digits, found, rfl⟩
    obtain ⟨a, b, c, ending, written, short, rfl⟩ := patternDigits?_some_iff.mp found
    exact ⟨a, b, c, ending, written, short, by rw [readDigits_places, readDigits_places]⟩
  · rintro ⟨a, b, c, ending, written, short, rfl⟩
    refine ⟨_, patternDigits?_some_iff.mpr ⟨a, b, c, ending, written, short, rfl⟩, ?_⟩
    rw [readDigits_places, readDigits_places]

theorem isStatusPattern_iff {pattern : String} :
    isStatusPattern pattern = true ↔ pattern = defaultPattern ∨ ∃ range, statusRange pattern = .ok range := by
  rw [isStatusPattern, Bool.or_eq_true, beq_iff_eq, statusRange]
  cases patternDigits? pattern <;> simp

theorem placeValue_bounds {c : Char} (place : isPlace c = true) :
    placeValue 0 c ≤ placeValue 9 c ∧ placeValue 9 c ≤ 9 := by
  have ascii : Text.isAscii c = true := isPatternLetter_ascii (by simp [isPatternLetter, place])
  have checked := Text.of_ascii
    (fun c => !isPlace c || decide (placeValue 0 c ≤ placeValue 9 c ∧ placeValue 9 c ≤ 9)) (by decide +kernel) ascii
  simpa [place] using checked

theorem placesValue_bounds {a b c : Char} (places : ∀ d ∈ [a, b, c], isPlace d = true) :
    placesValue 0 a b c ≤ placesValue 9 a b c ∧ placesValue 9 a b c ≤ 999 := by
  have first := placeValue_bounds (places a (by simp))
  have second := placeValue_bounds (places b (by simp))
  have third := placeValue_bounds (places c (by simp))
  unfold placesValue
  omega

def IsRanged (pattern : String) : Prop := ∃ a b c, IsWritten pattern a b c []

def EndsInLineFeed (pattern : String) : Prop := ∃ a b c, IsWritten pattern a b c ['\n']

/-- A pattern is the default or has three digits or wildcards. These have a range, from what they are with every
wildcard a nought to what they are with every wildcard a nine. -/
structure FollowsGrammar (pattern : String) : Prop where
  accepted : isStatusPattern pattern = true ↔ pattern = defaultPattern ∨ IsRanged pattern
  ranged : (∃ range, statusRange pattern = .ok range) ↔ IsRanged pattern
  bounds : ∀ low high, statusRange pattern = .ok (low, high) → low ≤ high ∧ high ≤ 999 ∧
    ∃ a b c, IsWritten pattern a b c [] ∧ low = placesValue 0 a b c ∧ high = placesValue 9 a b c

theorem statusRange_succeeds_iff {pattern : String} :
    (∃ range, statusRange pattern = .ok range) ↔ IsRanged pattern ∨ EndsInLineFeed pattern := by
  constructor
  · rintro ⟨range, read⟩
    obtain ⟨a, b, c, ending, written, rfl | rfl, -⟩ := statusRange_ok_iff.mp read
    · exact .inl ⟨a, b, c, written⟩
    · exact .inr ⟨a, b, c, written⟩
  · rintro (⟨a, b, c, written⟩ | ⟨a, b, c, written⟩)
    · exact ⟨_, statusRange_ok_iff.mpr ⟨a, b, c, [], written, .inl rfl, rfl⟩⟩
    · exact ⟨_, statusRange_ok_iff.mpr ⟨a, b, c, ['\n'], written, .inr rfl, rfl⟩⟩

theorem not_isRanged_of_lineFeed {pattern : String} (trailing : EndsInLineFeed pattern) : ¬IsRanged pattern := by
  rintro ⟨a, b, c, written, -⟩
  obtain ⟨_, _, _, longer, -⟩ := trailing
  simpa using congrArg List.length (written.symm.trans longer)

/-- Every text is read as the grammar says, but for a pattern with a line feed at its end, which is read as the
pattern before it. -/
theorem followsGrammar_iff (pattern : String) : FollowsGrammar pattern ↔ ¬EndsInLineFeed pattern := by
  constructor
  · intro follows trailing
    exact not_isRanged_of_lineFeed trailing (follows.ranged.mp (statusRange_succeeds_iff.mpr (.inr trailing)))
  · intro plain
    have ranged : (∃ range, statusRange pattern = .ok range) ↔ IsRanged pattern := by
      rw [statusRange_succeeds_iff, or_iff_left plain]
    refine ⟨by rw [isStatusPattern_iff, ranged], ranged, ?_⟩
    intro low high read
    obtain ⟨a, b, c, ending, written, short, same⟩ := statusRange_ok_iff.mp read
    obtain ⟨rfl, rfl⟩ := Prod.mk.inj same
    rcases short with rfl | rfl
    · obtain ⟨ordered, bound⟩ := placesValue_bounds written.2
      exact ⟨ordered, bound, a, b, c, written, rfl, rfl⟩
    · exact absurd ⟨a, b, c, written⟩ plain

theorem mixedCase_follows :
    FollowsGrammar "4Xx" ∧ isStatusPattern "4Xx" = true ∧ statusRange "4Xx" = .ok (400, 499) := by
  have plain : ¬EndsInLineFeed "4Xx" := by
    rintro ⟨a, b, c, written, -⟩
    exact absurd (congrArg List.length written) (by simp)
  have follows := (followsGrammar_iff "4Xx").mpr plain
  have written : IsWritten "4Xx" '4' 'X' 'x' [] := ⟨rfl, List.all_eq_true.mp (by decide)⟩
  refine ⟨follows, follows.accepted.mpr (.inr ⟨_, _, _, written⟩), ?_⟩
  exact statusRange_ok_iff.mpr ⟨'4', 'X', 'x', [], written, .inl rfl, by decide⟩

/-- A status with a line feed after it is accepted, though it has four characters. -/
theorem lineFeed_accepted :
    isStatusPattern "200\n" = true ∧ statusRange "200\n" = .ok (200, 200) ∧ ¬IsRanged "200\n" ∧
      ¬FollowsGrammar "200\n" := by
  have written : IsWritten "200\n" '2' '0' '0' ['\n'] := ⟨rfl, List.all_eq_true.mp (by decide)⟩
  have read : statusRange "200\n" = .ok (200, 200) :=
    statusRange_ok_iff.mpr ⟨'2', '0', '0', ['\n'], written, .inr rfl, by decide⟩
  have apart : ¬IsRanged "200\n" := not_isRanged_of_lineFeed ⟨_, _, _, written⟩
  exact ⟨isStatusPattern_iff.mpr (.inr ⟨_, read⟩), read, apart, fun follows => apart (follows.ranged.mp ⟨_, read⟩)⟩

end OpenApiClient.Client
