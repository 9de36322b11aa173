import OpenApiClient.Proofs.Paths
import OpenApiClient.Source.Class

/-! Wrapped text. A line is laid out by turns: a turn takes the chunks that fit, fills up the line with part of a chunk
that no line could hold, and drops white space at both ends. What a turn takes and what it leaves are the whole
together, the line is never too long, and only white space is dropped. -/

namespace OpenApiClient.Text

def visible (text : List Char) : List Char := text.filter fun c => !isSpace c

theorem visible_append (text rest : List Char) : visible (text ++ rest) = visible text ++ visible rest :=
  List.filter_append ..

theorem visible_cons_congr (c : Char) {text other : List Char} (same : visible text = visible other) :
    visible (c :: text) = visible (c :: other) :=
  (visible_append [c] text).trans (same ▸ (visible_append [c] other).symm)

theorem visible_allSpace {text : List Char} (space : isAllSpace text = true) : visible text = [] := by
  rw [visible, List.filter_eq_nil_iff]
  intro c member
  simpa using List.all_eq_true.mp space c member

theorem visible_cons_space {c : Char} (space : isSpace c = true) (rest : List Char) :
    visible (c :: rest) = visible rest := by
  rw [visible, List.filter_cons_of_neg (by simpa using space), visible]

theorem isSpace_of_isBlank {c : Char} (blank : isBlank c = true) : isSpace c = true := by
  simp only [isBlank, List.contains_iff_mem, List.mem_cons, List.not_mem_nil, or_false] at blank
  rcases blank with rfl | rfl | rfl | rfl | rfl | rfl <;> decide

/-! A line before it is cut into chunks. -/

theorem visible_expandTabs (column : Nat) (line : List Char) : visible (expandTabs column line) = visible line := by
  induction line generalizing column with
  | nil => rfl
  | cons c rest ih =>
      rw [expandTabs]
      split
      · rename_i tab
        have blanks (width : Nat) : isAllSpace (List.replicate width ' ') = true :=
          List.all_eq_true.mpr fun d member => List.eq_of_mem_replicate member ▸ by decide
        rw [visible_append, visible_allSpace (blanks _), ih, tab, visible_cons_space (by decide)]
        rfl
      · split
        · exact visible_cons_congr c (ih 0)
        · exact visible_cons_congr c (ih (column + 1))

def plainLine (line : List Char) : List Char :=
  (expandTabs 0 line).map fun c => if isBlank c then ' ' else c

theorem visible_plainLine (line : List Char) : visible (plainLine line) = visible line := by
  rw [← visible_expandTabs 0 line, plainLine]
  induction expandTabs 0 line with
  | nil => rfl
  | cons c rest ih =>
      rw [List.map_cons]
      split
      · rename_i blank
        rw [visible_cons_space (by decide), visible_cons_space (isSpace_of_isBlank blank), ih]
      · exact visible_cons_congr c ih

theorem plainLine_unbroken {c : Char} (ending : c = '\n' ∨ c = '\r') (line : List Char) : c ∉ plainLine line := by
  have blank : isBlank c = true := by
    rcases ending with rfl | rfl <;> decide
  intro member
  obtain ⟨d, -, same⟩ := List.mem_map.mp member
  split at same
  · rcases ending with rfl | rfl <;> exact absurd same (by decide)
  · rename_i other
    exact other (same ▸ blank)

theorem flatten_chunks (line : List Char) : (chunks line).flatten = line := by
  induction line with
  | nil => rfl
  | cons c rest ih =>
      rw [chunks]
      split
      · rename_i d chunk more same
        rw [same] at ih
        split <;> simp [← ih]
      · simp [ih]

theorem chunks_filled (line : List Char) : ∀ chunk ∈ chunks line, chunk ≠ [] := by
  induction line with
  | nil => simp [chunks]
  | cons c rest ih =>
      rw [chunks]
      split
      · rename_i d chunk more same
        rw [same] at ih
        obtain ⟨first, others⟩ := List.forall_mem_cons.mp ih
        split
        · exact List.forall_mem_cons.mpr ⟨by simp, others⟩
        · exact List.forall_mem_cons.mpr ⟨by simp, ih⟩
      · exact List.forall_mem_cons.mpr ⟨by simp, ih⟩

/-! One turn. -/

theorem takeFitting_whole (room : Nat) (all : List (List Char)) :
    (takeFitting room all).1 ++ (takeFitting room all).2 = all := by
  induction all generalizing room with
  | nil => rfl
  | cons chunk rest ih =>
      rw [takeFitting]
      split
      · exact congrArg (chunk :: ·) (ih _)
      · rfl

theorem takeFitting_fits (room : Nat) (all : List (List Char)) : (takeFitting room all).1.flatten.length ≤ room := by
  induction all generalizing room with
  | nil => simp [takeFitting]
  | cons chunk rest ih =>
      rw [takeFitting]
      split
      · have later := ih (room - chunk.length)
        simp only [List.flatten_cons, List.length_append]
        omega
      · simp

theorem takeFitting_full {room : Nat} {all rest : List (List Char)} {chunk : List Char}
    (left : (takeFitting room all).2 = chunk :: rest) :
    room < (takeFitting room all).1.flatten.length + chunk.length := by
  induction all generalizing room with
  | nil => cases left
  | cons first others ih =>
      rw [takeFitting] at left ⊢
      split at left
      · rename_i fits
        have later := ih left
        rw [if_pos fits]
        simp only [List.flatten_cons, List.length_append]
        omega
      · rename_i broad
        rw [if_neg broad]
        obtain ⟨rfl, -⟩ := List.cons.inj left
        simp only [List.flatten_nil, List.length_nil]
        omega

/-- A line that was filled from chunks, and the chunks that are left for later lines. -/
structure Fills (width : Nat) (all line left : List (List Char)) : Prop where
  whole : line.flatten ++ left.flatten = all.flatten
  fits : line.flatten.length ≤ width
  filled : ∀ chunk ∈ left, chunk ≠ []
  grows : all ≠ [] → 0 < line.flatten.length

theorem fillUp_fills {width : Nat} (positive : 1 ≤ width) {all : List (List Char)}
    (filled : ∀ chunk ∈ all, chunk ≠ []) :
    Fills width all (fillUp width (takeFitting width all).1 (takeFitting width all).2).1
      (fillUp width (takeFitting width all).1 (takeFitting width all).2).2 := by
  have whole := takeFitting_whole width all
  have fits := takeFitting_fits width all
  have full := @takeFitting_full width all
  generalize (takeFitting width all).1 = taken at whole fits full ⊢
  generalize (takeFitting width all).2 = left at whole fits full ⊢
  subst whole
  cases left with
  | nil =>
      refine ⟨by simp [fillUp], fits, by simp [fillUp], ?_⟩
      intro some
      obtain ⟨chunk, rest, rfl⟩ := List.exists_cons_of_ne_nil (show taken ≠ [] by simpa using some)
      have first := List.length_pos_of_ne_nil (filled chunk (by simp))
      simp only [fillUp, List.flatten_cons, List.length_append]
      omega
  | cons chunk rest =>
      have excess := full rfl
      rw [fillUp]
      split
      · rename_i long
        refine ⟨?_, ?_, ?_, ?_⟩
        · rw [List.flatten_append, List.flatten_singleton, List.flatten_cons, List.flatten_append, List.flatten_cons,
            List.append_assoc, ← List.append_assoc (chunk.take _), List.take_append_drop]
        · simp only [List.flatten_append, List.flatten_singleton, List.length_append, List.length_take]
          omega
        · refine List.forall_mem_cons.mpr ⟨?_, fun other member => filled other (by simp [member])⟩
          rw [ne_eq, List.drop_eq_nil_iff]
          omega
        · intro _
          simp only [List.flatten_append, List.flatten_singleton, List.length_append, List.length_take]
          omega
      · rename_i short
        refine ⟨by simp, fits, fun other member => filled other (List.mem_append_right _ member), ?_⟩
        intro _
        change 0 < taken.flatten.length
        omega

theorem flatten_dropFinalSpace (line : List (List Char)) :
    ∃ space, (dropFinalSpace line).flatten ++ space = line.flatten ∧ isAllSpace space = true := by
  unfold dropFinalSpace
  split
  · rename_i chunk last
    split
    · rename_i space
      refine ⟨chunk, ?_, space⟩
      have whole := List.dropLast_append_getLast? chunk last
      rw [← List.flatten_concat, whole]
    · exact ⟨[], by simp, rfl⟩
  · rename_i none
    rw [List.getLast?_eq_none_iff.mp none]
    exact ⟨[], rfl, rfl⟩

theorem flatten_dropLeadingSpace (all : List (List Char)) :
    ∃ space, space ++ (dropLeadingSpace all).flatten = all.flatten ∧ isAllSpace space = true := by
  unfold dropLeadingSpace
  split
  · exact ⟨[], rfl, rfl⟩
  · rename_i chunk rest
    split
    · rename_i space
      exact ⟨chunk, rfl, space⟩
    · exact ⟨[], rfl, rfl⟩

/-! All turns. -/

structure LaidOut (width : Nat) (text : List Char) (lines : List (List Char)) : Prop where
  fits : ∀ line ∈ lines, line.length ≤ width
  drawn : ∀ line ∈ lines, line ⊆ text
  kept : lines.flatMap visible = visible text

namespace LaidOut

variable {width : Nat} {text rest own : List Char} {lines : List (List Char)}

theorem nil (width : Nat) : LaidOut width [] [] := ⟨by simp, by simp, rfl⟩

/-- Beside what is left for later lines and what a line shows there was only white space. -/
theorem cons (laid : LaidOut width rest lines) {before after : List Char} (spaceBefore : isAllSpace before = true)
    (spaceAfter : isAllSpace after = true) (whole : before ++ (own ++ after ++ rest) = text)
    (fits : own.length ≤ width) : LaidOut width text (own :: lines) := by
  subst whole
  refine ⟨List.forall_mem_cons.mpr ⟨fits, laid.fits⟩, List.forall_mem_cons.mpr ⟨?_, fun line member => ?_⟩, ?_⟩
  · intro c member
    simp [member]
  · intro c within
    have among := laid.drawn line member within
    simp [among]
  · rw [List.flatMap_cons, laid.kept]
    simp only [visible_append, visible_allSpace spaceBefore, visible_allSpace spaceAfter, List.nil_append,
      List.append_nil]

theorem of_empty (laid : LaidOut width text ([] :: lines)) : LaidOut width text lines :=
  ⟨fun line member => laid.fits line (List.mem_cons_of_mem _ member),
    fun line member => laid.drawn line (List.mem_cons_of_mem _ member), laid.kept⟩

end LaidOut

def lineStart (started : Bool) (all : List (List Char)) : List (List Char) :=
  if started then dropLeadingSpace all else all

theorem flatten_lineStart (started : Bool) (all : List (List Char)) :
    ∃ space, space ++ (lineStart started all).flatten = all.flatten ∧ isAllSpace space = true := by
  unfold lineStart
  split
  · exact flatten_dropLeadingSpace all
  · exact ⟨[], rfl, rfl⟩

theorem lineStart_subset (started : Bool) (all : List (List Char)) : lineStart started all ⊆ all := by
  unfold lineStart dropLeadingSpace
  intro chunk member
  split at member
  · split at member
    · exact member
    · split at member
      · exact List.mem_cons_of_mem _ member
      · exact member
  · exact member

theorem layOut_turn (width fuel : Nat) (started : Bool) {all : List (List Char)} (some : all ≠ []) :
    ∃ line left, (line, left) = fillUp width (takeFitting width (lineStart started all)).1
        (takeFitting width (lineStart started all)).2 ∧
      layOut width started (fuel + 1) all =
        if (dropFinalSpace line).isEmpty then layOut width started fuel left
        else (dropFinalSpace line).flatten :: layOut width true fuel left := by
  cases all with
  | nil => contradiction
  | cons chunk rest => exact ⟨_, _, rfl, rfl⟩

/-- The fuel is used up by the characters: every turn takes one at least, unless nothing is left to lay out. -/
theorem layOut_laidOut {width : Nat} (positive : 1 ≤ width) (started : Bool) {fuel : Nat} {all : List (List Char)}
    (filled : ∀ chunk ∈ all, chunk ≠ []) (enough : all.flatten.length ≤ fuel) :
    LaidOut width all.flatten (layOut width started fuel all) := by
  induction fuel generalizing started all with
  | zero =>
      have none : all.flatten = [] := List.length_eq_zero_iff.mp (by omega)
      rw [none]
      exact .nil width
  | succ fuel ih =>
      by_cases some : all = []
      · rw [some]
        exact .nil width
      · obtain ⟨line, left, turn, same⟩ := layOut_turn width fuel started some
        have fills : Fills width (lineStart started all) line left := by
          have own := fillUp_fills positive fun chunk member => filled chunk (lineStart_subset started all member)
          rwa [← turn] at own
        obtain ⟨before, startWhole, spaceBefore⟩ := flatten_lineStart started all
        obtain ⟨after, lineWhole, spaceAfter⟩ := flatten_dropFinalSpace line
        have whole : before ++ ((dropFinalSpace line).flatten ++ after ++ left.flatten) = all.flatten := by
          rw [lineWhole, fills.whole, startWhole]
        have fits : (dropFinalSpace line).flatten.length ≤ width := by
          have shorter := congrArg List.length lineWhole
          have room := fills.fits
          rw [List.length_append] at shorter
          omega
        have less : left.flatten.length ≤ fuel := by
          have counted := congrArg List.length fills.whole
          have within := congrArg List.length startWhole
          rw [List.length_append] at counted within
          by_cases ended : lineStart started all = []
          · rw [ended] at counted
            simp only [List.flatten_nil, List.length_nil] at counted
            omega
          · have grows := fills.grows ended
            omega
        rw [same]
        split
        · rename_i empty
          have laid := (ih started fills.filled less).cons spaceBefore spaceAfter whole fits
          rw [List.isEmpty_iff.mp empty] at laid
          exact laid.of_empty
        · exact (ih true fills.filled less).cons spaceBefore spaceAfter whole fits

/-! The lines of a text. -/

theorem wrapLine_laidOut {width : Nat} (positive : 1 ≤ width) (line : List Char) :
    LaidOut width (plainLine line) (wrapLine width line) := by
  have enough : (chunks (plainLine line)).flatten.length ≤ (plainLine line).length + 1 := by
    rw [flatten_chunks]
    omega
  have laid := layOut_laidOut positive false (chunks_filled (plainLine line)) enough
  rwa [flatten_chunks] at laid

def linesOf (width : Nat) (line : List Char) : List (List Char) :=
  match wrapLine width line with
  | [] => [[]]
  | wrapped => wrapped

theorem wrap_eq (width : Nat) (text : List Char) :
    wrap width text = if text.isEmpty then [] else (splitAt '\n' text).flatMap (linesOf width) := rfl

theorem linesOf_ne_nil (width : Nat) (line : List Char) : linesOf width line ≠ [] := by
  unfold linesOf
  split
  · simp
  · assumption

theorem linesOf_laidOut {width : Nat} (positive : 1 ≤ width) (line : List Char) :
    LaidOut width (plainLine line) (linesOf width line) := by
  have laid := wrapLine_laidOut positive line
  unfold linesOf
  split
  · rename_i none
    rw [none] at laid
    exact ⟨by simp, by simp, laid.kept⟩
  · exact laid

theorem visible_splitAt (text : List Char) : (splitAt '\n' text).flatMap visible = visible text := by
  induction text with
  | nil => rfl
  | cons c rest ih =>
      obtain ⟨part, parts, split⟩ := List.exists_cons_of_ne_nil (splitAt_ne_nil '\n' rest)
      rw [split, List.flatMap_cons] at ih
      rw [splitAt, split]
      by_cases ending : c = '\n'
      · subst ending
        rw [if_pos rfl, visible_cons_space (by decide), ← ih]
        rfl
      · rw [if_neg ending, List.flatMap_cons, ← List.singleton_append, visible_append, List.append_assoc, ih,
          ← visible_append, List.singleton_append]

/-- A text is wrapped into lines: they are not too long and have no line end in them, there are some if there is any
text, and together they show what the text shows, in its order. -/
structure Wraps (width : Nat) (text : String) (lines : List String) : Prop where
  fits : ∀ line ∈ lines, line.length ≤ width
  unbroken : ∀ line ∈ lines, '\n' ∉ line.toList ∧ '\r' ∉ line.toList
  filled : text ≠ "" → lines ≠ []
  kept : lines.flatMap (fun line => visible line.toList) = visible text.toList

theorem wrapText_wraps {width : Nat} (positive : 1 ≤ width) (text : String) :
    Wraps width text (wrapText width text) := by
  by_cases empty : text = ""
  · subst empty
    exact ⟨by simp [wrapText, wrap], by simp [wrapText, wrap], by simp, rfl⟩
  · have lines : wrap width text.toList = (splitAt '\n' text.toList).flatMap (linesOf width) := by
      rw [wrap_eq, if_neg (by simpa using empty)]
    have laid : ∀ line ∈ wrap width text.toList, ∃ own, line ∈ linesOf width own := by
      rw [lines]
      intro line member
      obtain ⟨own, -, among⟩ := List.mem_flatMap.mp member
      exact ⟨own, among⟩
    refine ⟨?_, ?_, ?_, ?_⟩
    · rw [wrapText, List.forall_mem_map]
      intro line member
      obtain ⟨own, among⟩ := laid line member
      rw [String.length_ofList]
      exact (linesOf_laidOut positive own).fits line among
    · rw [wrapText, List.forall_mem_map]
      intro line member
      obtain ⟨own, among⟩ := laid line member
      have drawn := (linesOf_laidOut positive own).drawn line among
      rw [String.toList_ofList]
      exact ⟨fun ending => plainLine_unbroken (.inl rfl) own (drawn ending),
        fun ending => plainLine_unbroken (.inr rfl) own (drawn ending)⟩
    · intro _
      obtain ⟨first, others, split⟩ := List.exists_cons_of_ne_nil (splitAt_ne_nil '\n' text.toList)
      rw [wrapText, lines, split]
      simp [linesOf_ne_nil]
    · have kept : ∀ line, (linesOf width line).flatMap visible = visible line := fun line => by
        rw [(linesOf_laidOut positive line).kept, visible_plainLine]
      rw [wrapText, List.flatMap_map, lines, ← visible_splitAt text.toList]
      simp only [String.toList_ofList, List.flatMap_assoc, kept]

end OpenApiClient.Text

namespace OpenApiClient

/-- Every text is wrapped at every width from one on, and its lines after a number sign are its comment: none of them
leaves the comment. -/
theorem wrapAt_wraps {width : Int} (positive : 1 ≤ width) (text : String) :
    ∃ lines, wrapAt width text = .ok lines ∧ Text.Wraps width.toNat text lines ∧
      Source.commentLines width.toNat (.string text) = .ok (lines.map ("# " ++ ·)) := by
  have wraps := Text.wrapText_wraps (show 1 ≤ width.toNat by omega) text
  by_cases empty : text = ""
  · subst empty
    exact ⟨[], rfl, wraps, rfl⟩
  · refine ⟨Text.wrapText width.toNat text, ?_, wraps, ?_⟩
    · rw [wrapAt, if_neg (by simpa using empty), if_neg (by omega)]
    · have given : (Value.string text).truth = true := by simpa [Value.truth] using empty
      rw [Source.commentLines, Value.wrapped, if_pos given]
      rfl

/-- A description with a tab, a word that is longer than a line, a carriage return and a line of white space. -/
def loanDescription : String := "Due\tdate:\rThirty-one-days\n \u2003\nper loan "

def loanLines : List String := ["Due", "date: Thirt", "y-one-days", " ", "per loan"]

theorem loanDescription_wraps :
    wrapAt 11 loanDescription = .ok loanLines ∧ Text.Wraps 11 loanDescription loanLines := by
  have made : wrapAt 11 loanDescription = .ok loanLines := by decide +kernel
  obtain ⟨lines, wrapped, wraps, -⟩ := wrapAt_wraps (show 1 ≤ (11 : Int) by decide) loanDescription
  obtain rfl := Except.ok.inj (made.symm.trans wrapped)
  exact ⟨made, wraps⟩

end OpenApiClient
