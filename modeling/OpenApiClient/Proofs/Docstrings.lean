import OpenApiClient.Source.Layout
import Mathlib.Data.List.DropRight

/-! Docstrings read back. Quotes that end a text are left as they are unless three of them come together, and those that
are left meet the quotes that close the docstring. -/

namespace OpenApiClient.Source

/-! Reading a literal. -/

/-- What a backslash and the character after it stand for. Escapes by number or by name are not read. -/
def escaped? (c : Char) : Option (List Char) :=
  match c with
  | '\n' => some []
  | '\\' => some ['\\']
  | '"' => some ['"']
  | '\'' => some ['\'']
  | 'a' => some ['\x07']
  | 'b' => some ['\x08']
  | 'f' => some ['\x0c']
  | 'n' => some ['\n']
  | 'r' => some ['\r']
  | 't' => some ['\t']
  | 'v' => some ['\x0b']
  | c => if ['x', 'u', 'U', 'N'].contains c || ('0' ≤ c && c ≤ '7') then none else some ['\\', c]

def readTripleQuoted : List Char → Option (List Char × List Char)
  | [] => none
  | ['\\'] => none
  | '"' :: '"' :: '"' :: rest => some ([], rest)
  | '\\' :: c :: rest => do
      let value ← escaped? c
      let (text, after) ← readTripleQuoted rest
      pure (value ++ text, after)
  | c :: rest => (readTripleQuoted rest).map fun (text, after) => (c :: text, after)

/-- The text that a source means which is one literal between triple quotes. All line ends are read as line feeds, and
a source holds no NUL. -/
def literalText? (source : List Char) : Option (List Char) :=
  if source.contains '\x00' then none
  else
    match Text.universalNewlines source with
    | '"' :: '"' :: '"' :: body =>
        match readTripleQuoted body with
        | some (text, []) => some text
        | _ => none
    | _ => none

theorem universalNewlines_plain {text : List Char} (plain : '\r' ∉ text) : Text.universalNewlines text = text := by
  induction text with
  | nil => rfl
  | cons c rest ih =>
      obtain ⟨first, others⟩ : '\r' ≠ c ∧ '\r' ∉ rest := by simpa using plain
      rw [Text.universalNewlines.eq_3 _ _ fun _ same => absurd same.symm first, if_neg (Ne.symm first), ih others]

theorem readTripleQuoted_plain {c : Char} {rest : List Char} (noEscape : c ≠ '\\')
    (goesOn : c = '"' → ∀ after, rest ≠ '"' :: '"' :: after) :
    readTripleQuoted (c :: rest) = (readTripleQuoted rest).map fun (text, after) => (c :: text, after) := by
  rw [readTripleQuoted.eq_5]
  · exact fun same => absurd same noEscape
  · exact fun after same next => goesOn same after next
  · exact fun _ _ same => absurd same noEscape

theorem readTripleQuoted_escape {c : Char} {value : List Char} (means : escaped? c = some value)
    (rest : List Char) : readTripleQuoted ('\\' :: c :: rest) =
      (readTripleQuoted rest).map fun (text, after) => (value ++ text, after) := by
  rw [readTripleQuoted, means]
  cases readTripleQuoted rest <;> rfl

/-! The quotes at the end of a text. -/

def closingQuotes (text : List Char) : Nat := (text.rtakeWhile (· == '"')).length

theorem closingQuotes_le (text : List Char) : closingQuotes text ≤ text.length :=
  (List.rtakeWhile_suffix _ text).length_le

theorem closingQuotes_cons (c : Char) (rest : List Char) : closingQuotes (c :: rest) =
    if closingQuotes rest = rest.length ∧ c = '"' then rest.length + 1 else closingQuotes rest := by
  have whole : closingQuotes rest = (rest.reverse.takeWhile (· == '"')).length := List.length_reverse
  rw [whole, closingQuotes, List.rtakeWhile, List.length_reverse, List.reverse_cons, List.takeWhile_append,
    List.length_reverse]
  by_cases quote : c = '"'
  · simp only [quote, and_true]
    split <;> simp
  · simp only [quote, and_false, if_false]
    split
    · rename_i all
      simp [quote, all]
    · rfl

def looseQuotes (text : List Char) : Nat := closingQuotes text % 3

theorem looseQuotes_le (text : List Char) : looseQuotes text ≤ text.length :=
  Nat.le_trans (Nat.mod_le _ 3) (closingQuotes_le text)

theorem looseQuotes_other {c : Char} (other : c ≠ '"') (rest : List Char) :
    looseQuotes (c :: rest) = looseQuotes rest := by
  rw [looseQuotes, closingQuotes_cons, if_neg fun both => other both.2, looseQuotes]

theorem looseQuotes_triple (rest : List Char) : looseQuotes ('"' :: '"' :: '"' :: rest) = looseQuotes rest := by
  have bound := closingQuotes_le rest
  simp only [looseQuotes, closingQuotes_cons, and_true, List.length_cons]
  by_cases all : closingQuotes rest = rest.length
  · simp only [all, if_true]
    omega
  · have short : closingQuotes rest ≠ rest.length + 1 := by omega
    have shorter : closingQuotes rest ≠ rest.length + 1 + 1 := by omega
    simp only [all, short, shorter, if_false]

theorem take_kept (c : Char) (rest : List Char) (loose : Nat) (bound : loose ≤ rest.length) :
    (c :: rest).take ((c :: rest).length - loose) = c :: rest.take (rest.length - loose) := by
  rw [List.length_cons, Nat.succ_sub bound, List.take_succ_cons]

theorem escapeDocstring_head {c : Char} (other : c ≠ '"') (rest : List Char) :
    ∃ d more, escapeDocstring (c :: rest) = d :: more ∧ d ≠ '"' := by
  rw [escapeDocstring.eq_2 _ _ fun _ same => absurd same other]
  split
  · exact ⟨_, _, rfl, by decide⟩
  · exact ⟨_, _, rfl, other⟩

/-- After a quote that begins no three of them, the text ends with at most one more or goes on with another
character. -/
theorem short_or_other {rest : List Char} (goesOn : ∀ after, rest ≠ '"' :: '"' :: after) :
    rest = [] ∨ rest = ['"'] ∨ ∃ c others, c ≠ '"' ∧ (rest = c :: others ∨ rest = '"' :: c :: others) := by
  rcases rest with _ | ⟨c, _ | ⟨d, others⟩⟩
  · exact .inl rfl
  · by_cases quote : c = '"'
    · exact .inr (.inl (by rw [quote]))
    · exact .inr (.inr ⟨c, [], quote, .inl rfl⟩)
  · by_cases quote : c = '"'
    · subst quote
      by_cases second : d = '"'
      · subst second
        exact absurd rfl (goesOn others)
      · exact .inr (.inr ⟨d, others, second, .inr rfl⟩)
    · exact .inr (.inr ⟨c, d :: others, quote, .inl rfl⟩)

theorem looseQuotes_quote {c : Char} {rest others : List Char} (other : c ≠ '"')
    (shape : rest = c :: others ∨ rest = '"' :: c :: others) : looseQuotes ('"' :: rest) = looseQuotes rest := by
  have bound := closingQuotes_le others
  rcases shape with rfl | rfl
  all_goals
    simp only [looseQuotes, closingQuotes_cons, other, and_false, if_false, List.length_cons, and_true]
    grind

theorem escapeDocstring_opens {c : Char} {rest others : List Char} (other : c ≠ '"')
    (shape : rest = c :: others ∨ rest = '"' :: c :: others) (more after : List Char) :
    escapeDocstring rest ++ more ≠ '"' :: '"' :: after := by
  obtain ⟨d, escaped, same, noQuote⟩ := escapeDocstring_head other others
  rcases shape with rfl | rfl
  · rw [same]
    simp [noQuote]
  · rw [escapeDocstring.eq_2 _ _ (by simp [other]), if_neg (by decide), same]
    simp [noQuote]

/-- Reading what is escaped stops at the loose quotes: they are taken for the end, and what closes the docstring is left
over instead. -/
theorem readTripleQuoted_escaped (text after : List Char) :
    readTripleQuoted (escapeDocstring text ++ '"' :: '"' :: '"' :: after) =
      some (text.take (text.length - looseQuotes text), List.replicate (looseQuotes text) '"' ++ after) := by
  induction text using escapeDocstring.induct with
  | case1 rest ih =>
      have bound := looseQuotes_le rest
      rw [escapeDocstring, looseQuotes_triple, take_kept _ _ _ (by simp only [List.length_cons]; omega),
        take_kept _ _ _ (by simp only [List.length_cons]; omega), take_kept _ _ _ bound]
      simp only [List.cons_append]
      rw [readTripleQuoted_escape rfl, readTripleQuoted_escape rfl, readTripleQuoted_escape rfl, ih]
      rfl
  | case2 rest goesOn ih =>
      rw [escapeDocstring.eq_2 _ _ goesOn, if_pos rfl, looseQuotes_other (by decide),
        take_kept _ _ _ (looseQuotes_le rest)]
      simp only [List.cons_append]
      rw [readTripleQuoted_escape rfl, ih]
      rfl
  | case3 c rest goesOn noEscape ih =>
      have plain : escapeDocstring (c :: rest) = c :: escapeDocstring rest := by
        rw [escapeDocstring.eq_2 _ _ goesOn, if_neg noEscape]
      -- Unless the text ends here, its first character is read by itself.
      have reads (loose : looseQuotes (c :: rest) = looseQuotes rest)
          (opens : c = '"' → ∀ ending, escapeDocstring rest ++ '"' :: '"' :: '"' :: after ≠ '"' :: '"' :: ending) :
          readTripleQuoted (escapeDocstring (c :: rest) ++ '"' :: '"' :: '"' :: after) =
            some ((c :: rest).take ((c :: rest).length - looseQuotes (c :: rest)),
              List.replicate (looseQuotes (c :: rest)) '"' ++ after) := by
        rw [plain, List.cons_append, readTripleQuoted_plain noEscape opens, ih, loose,
          take_kept _ _ _ (looseQuotes_le rest)]
        rfl
      by_cases quote : c = '"'
      · subst quote
        obtain rfl | rfl | ⟨d, others, other, shape⟩ := short_or_other fun after => goesOn after rfl
        · rfl
        · rfl
        · exact reads (looseQuotes_quote other shape) fun _ => escapeDocstring_opens other shape _
      · exact reads (looseQuotes_other quote rest) fun same => absurd same quote
  | case4 => rfl

/-! The whole docstring. -/

theorem mem_escapeDocstring {text : List Char} {c : Char} (member : c ∈ escapeDocstring text) :
    c ∈ text ∨ c = '\\' := by
  induction text using escapeDocstring.induct with
  | case1 rest ih =>
      simp only [escapeDocstring, List.mem_cons] at member ⊢
      tauto
  | case2 rest goesOn ih =>
      simp only [escapeDocstring.eq_2 _ _ goesOn, if_true, List.mem_cons] at member ⊢
      tauto
  | case3 d rest goesOn noEscape ih =>
      simp only [escapeDocstring.eq_2 _ _ goesOn, noEscape, if_false, List.mem_cons] at member ⊢
      tauto
  | case4 => contradiction

theorem toList_shortDocstring (text : String) : (shortDocstring text).toList =
    '"' :: '"' :: '"' :: (escapeDocstring text.toList ++ ['"', '"', '"']) := by
  simp [shortDocstring, tripleQuote, docstringSafe]

theorem not_mem_shortDocstring {text : String} {c : Char} (absent : c ∉ text.toList) (noQuote : c ≠ '"')
    (noEscape : c ≠ '\\') : c ∉ (shortDocstring text).toList := by
  rw [toList_shortDocstring]
  simp only [List.mem_cons, List.mem_append, List.not_mem_nil, noQuote, or_false, false_or]
  exact fun member => (mem_escapeDocstring member).elim absent noEscape

/-- A docstring is one literal of its text exactly when the quotes at the end of the text come in threes. -/
theorem shortDocstring_reads_iff {text : String} (noReturn : '\r' ∉ text.toList) (noNull : '\x00' ∉ text.toList) :
    literalText? (shortDocstring text).toList = some text.toList ↔ 3 ∣ closingQuotes text.toList := by
  have sourceNoNull : (shortDocstring text).toList.contains '\x00' = false := by
    simpa using not_mem_shortDocstring noNull (by decide) (by decide)
  have sourceNoReturn := not_mem_shortDocstring noReturn (by decide) (by decide)
  have read := readTripleQuoted_escaped text.toList []
  rw [List.append_nil] at read
  rw [literalText?, sourceNoNull, universalNewlines_plain sourceNoReturn, toList_shortDocstring]
  simp only [Bool.false_eq_true, if_false, read]
  rw [Nat.dvd_iff_mod_eq_zero, ← looseQuotes]
  cases looseQuotes text.toList with
  | zero => simp
  | succ loose => simp [List.replicate_succ]

/-- Quotes and backslashes within a text do no harm, and neither do three quotes at its end. -/
theorem quotation_reads :
    '\r' ∉ "The \"\"\"\"\\\" and \"\"\"".toList ∧ '\x00' ∉ "The \"\"\"\"\\\" and \"\"\"".toList ∧
      3 ∣ closingQuotes "The \"\"\"\"\\\" and \"\"\"".toList ∧
      literalText? (shortDocstring "The \"\"\"\"\\\" and \"\"\"").toList =
        some "The \"\"\"\"\\\" and \"\"\"".toList := by
  have noReturn : '\r' ∉ "The \"\"\"\"\\\" and \"\"\"".toList := by decide +kernel
  have noNull : '\x00' ∉ "The \"\"\"\"\\\" and \"\"\"".toList := by decide +kernel
  have threes : 3 ∣ closingQuotes "The \"\"\"\"\\\" and \"\"\"".toList := by decide +kernel
  exact ⟨noReturn, noNull, threes, (shortDocstring_reads_iff noReturn noNull).mpr threes⟩

/-- A quoted word at the end closes the docstring before its last quote. -/
theorem quoted_word_closes :
    '\r' ∉ "The key is named \"token\"".toList ∧ '\x00' ∉ "The key is named \"token\"".toList ∧
      literalText? (shortDocstring "The key is named \"token\"").toList = none := by
  decide +kernel

end OpenApiClient.Source
