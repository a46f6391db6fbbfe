import KnightFront.Proofs.Token.Places
import KnightFront.Proofs.Token.Spelling
import KnightFront.Report

namespace KnightFront

/-!
# What a report shows

A report ends with two rows: the line of the source that a position names, without
its indent and its trailing blanks, and a row that ends in a caret.  The indent is
left out of the line and the column alike, so the caret stands below the character
at the position whenever that character is shown.
-/

/-- A line of a text, counted from one.  Only the line feed ends a line. -/
def sourceLine? (source : String) : Nat → Option (List Char)
  | 0 => none
  | number + 1 => (source.toList.splitOn '\n')[number]?

theorem length_splitOn (text : List Char) : (text.splitOn '\n').length = text.count '\n' + 1 := by
  induction text with
  | nil => rfl
  | cons first rest inductionHypothesis =>
      rw [List.splitOn_eq_splitOnP] at inductionHypothesis ⊢
      rw [List.splitOnP_cons_eq_if_modifyHead, List.count_cons]
      by_cases feed : first = '\n' <;> simp [feed, inductionHypothesis]

/-- A line is what stands in front of the next line feed. -/
theorem takeWhile_afterLines (number : Nat) (text : List Char) :
    (afterLines number text).map (List.takeWhile (· ≠ '\n')) = (text.splitOn '\n')[number]? := by
  rw [List.splitOn_eq_splitOnP]
  induction text generalizing number with
  | nil => cases number <;> rfl
  | cons first rest inductionHypothesis =>
      rw [List.splitOnP_cons_eq_if_modifyHead]
      by_cases feed : first = '\n'
      · cases number with
        | zero => simp [afterLines, feed]
        | succ number => simpa [afterLines, feed] using inductionHypothesis number
      · cases number with
        | zero =>
            have same := inductionHypothesis 0
            simp [afterLines, feed] at same ⊢
            simp [← same]
        | succ number =>
            have same := inductionHypothesis (number + 1)
            simp [afterLines, feed] at same ⊢
            exact same

/-- The line that is fetched for a report is that of the text without the carriage
returns at its end. -/
theorem lineText?_eq (source : String) (line : Nat) :
    lineText? source line =
      (sourceLine? source line).map fun text => (text.reverse.dropWhile (· = '\r')).reverse := by
  cases line with
  | zero => rfl
  | succ number =>
      rw [lineText?, sourceLine?, ← takeWhile_afterLines, Option.map_map]
      rfl

/-- A place in a text is on one of its lines. -/
theorem exists_sourceLine {source : String} {front : List Char} (within : front <+: source.toList)
    (file : String) :
    ∃ text, sourceLine? source ((Position.start file).after front).line = some text := by
  have number : ((Position.start file).after front).line = front.count '\n' + 1 := by
    rw [Position.line_after, Nat.add_comm]
    rfl
  have inside : front.count '\n' < (source.toList.splitOn '\n').length := by
    rw [length_splitOn]
    exact Nat.lt_succ_of_le (within.sublist.count_le '\n')
  exact ⟨_, by rw [number, sourceLine?, List.getElem?_eq_getElem inside]⟩

/-- What stands in front of a shown line. -/
def Report.lead (number : Nat) : List Char := (toString number).toList ++ [' ', '|', ' ']

/-- How a report shows a position of a line of the source. -/
structure Report.Picture (report : String) (position : Position) (line : List Char) where
  /-- The spaces and tabs that are left out at the beginning of the line. -/
  indent : List Char
  shown : List Char
  /-- The blanks that are left out at its end. -/
  trail : List Char
  /-- The rows above. -/
  above : List Char
  /-- What stands in front of the caret. -/
  ruler : List Char
  line_eq : line = indent ++ shown ++ trail
  indented : ∀ character ∈ indent, Report.isIndent character = true
  opens : ∀ character ∈ shown.head?, Report.isIndent character = false
  trailing : ∀ character ∈ trail, Text.isBlank character = true
  closes : ∀ character ∈ shown.getLast?, Text.isBlank character = false
  report_eq : report.toList =
    above ++ '\n' :: (Report.lead position.line ++ shown) ++ '\n' :: (ruler ++ ['^'])
  singleRow : '\n' ∉ Report.lead position.line ++ shown
  singleCaret : '\n' ∉ ruler ∧ '^' ∉ ruler
  /-- The caret stands below the character at the position, if that is shown. -/
  below : ∀ index < shown.length, position.column = indent.length + index + 1 →
    ruler.length = (Report.lead position.line).length + index

namespace Report

/-- What is dropped at the end of a text is a run of what may be dropped. -/
theorem exists_trail (test : Char → Bool) (text : List Char) :
    ∃ trail, text = (text.reverse.dropWhile test).reverse ++ trail ∧
      ∀ character ∈ trail, test character = true := by
  refine ⟨(text.reverse.takeWhile test).reverse, ?_, fun character among => ?_⟩
  · rw [← List.reverse_append, List.takeWhile_append_dropWhile, List.reverse_reverse]
  · exact List.all_eq_true.mp List.all_takeWhile character (List.mem_reverse.mp among)

theorem not_of_mem_head?_dropWhile {test : Char → Bool} {text : List Char} {character : Char}
    (first : character ∈ (text.dropWhile test).head?) : test character = false := by
  have fails := List.head?_dropWhile_not test text
  rwa [first] at fails

theorem toList_padLeft (width : Nat) (fill : Char) (text : String) :
    (padLeft width fill text).toList =
      List.replicate (width - text.length) fill ++ text.toList := by
  simp [padLeft]

/-- A line without its indent, its trailing blanks and the carriage returns at its
end. -/
theorem exists_shown (line : List Char) :
    let text := (line.reverse.dropWhile (· = '\r')).reverse
    ∃ trail, line = text.takeWhile isIndent ++ Text.trimBlankEnd (text.dropWhile isIndent) ++ trail ∧
      ∀ character ∈ trail, Text.isBlank character = true := by
  intro text
  rcases exists_trail (· = '\r') line with ⟨returns, whole, allReturns⟩
  rcases exists_trail Text.isBlank (text.dropWhile isIndent) with ⟨blanks, body, allBlank⟩
  refine ⟨blanks ++ returns, ?_, fun character among => ?_⟩
  · rw [List.append_assoc, ← List.append_assoc _ blanks, Text.trimBlankEnd, ← body,
      ← List.append_assoc, List.takeWhile_append_dropWhile]
    exact whole
  · rcases List.mem_append.mp among with blank | ret
    · exact allBlank character blank
    · rw [of_decide_eq_true (allReturns character ret)]
      decide

/-- What stands in front of the caret of a report. -/
def rulerOf (number arrows : Nat) : List Char :=
  List.replicate ((toString number).length + 1) ' ' ++ ['|', ' '] ++ List.replicate (arrows - 1) '-'

/-- The last two rows of a report whose line exists. -/
theorem toList_render (heading : String) {position : Position} {source : String}
    {line : List Char} (found : sourceLine? source position.line = some line) :
    let text := (line.reverse.dropWhile (· = '\r')).reverse
    ∃ above, (render heading position source).toList =
      above ++ '\n' :: (lead position.line ++ Text.trimBlankEnd (text.dropWhile isIndent)) ++
        '\n' :: (rulerOf position.line (max (position.column - (text.takeWhile isIndent).length) 1) ++
          ['^']) := by
  intro text
  refine ⟨heading.toList ++ "\n-> ".toList ++ position.file.toList ++ ['\n'] ++
    List.replicate ((toString position.line).length + 1) ' ' ++ ['|'], ?_⟩
  have fetched : lineText? source position.line = some text := by rw [lineText?_eq, found]; rfl
  have bar : "|".length = 1 := rfl
  have caret : "^".length = 1 := rfl
  rw [render, fetched]
  simp [toList_padLeft, lead, rulerOf, bar, caret]

theorem not_mem_lead (number : Nat) : '\n' ∉ lead number := by
  intro among
  rcases List.mem_append.mp among with digit | sign
  · exact absurd (isDigit_of_mem_toString number _ digit) (by decide)
  · exact absurd sign (by decide)

theorem not_mem_rulerOf (number arrows : Nat) :
    '\n' ∉ rulerOf number arrows ∧ '^' ∉ rulerOf number arrows := by
  simp [rulerOf]

/-- The lines of a text have no line feeds in them. -/
theorem not_mem_sourceLine {source : String} {number : Nat} {line : List Char}
    (found : sourceLine? source number = some line) : '\n' ∉ line := by
  cases number with
  | zero => cases found
  | succ number =>
      rw [sourceLine?, ← takeWhile_afterLines] at found
      rcases Option.map_eq_some_iff.mp found with ⟨rest, _, rfl⟩
      intro among
      simpa using List.all_eq_true.mp List.all_takeWhile _ among

/-- A report of a position whose line exists ends with that line and a caret. -/
theorem picture_render (heading : String) {position : Position} {source : String}
    {line : List Char} (found : sourceLine? source position.line = some line) :
    Nonempty (Picture (render heading position source) position line) := by
  rcases exists_shown line with ⟨trail, whole, blanks⟩
  rcases toList_render heading found with ⟨above, report⟩
  have oneLine := not_mem_sourceLine found
  generalize (line.reverse.dropWhile (· = '\r')).reverse = text at whole report
  refine ⟨{
    indent := text.takeWhile isIndent
    shown := Text.trimBlankEnd (text.dropWhile isIndent)
    trail
    above
    ruler := rulerOf position.line (max (position.column - (text.takeWhile isIndent).length) 1)
    line_eq := whole
    indented := List.all_eq_true.mp List.all_takeWhile
    opens := ?_
    trailing := blanks
    closes := ?_
    report_eq := report
    singleRow := ?_
    singleCaret := not_mem_rulerOf _ _
    below := ?_ }⟩
  · intro character first
    rcases exists_trail Text.isBlank (text.dropWhile isIndent) with ⟨blanks, body, -⟩
    rw [Text.trimBlankEnd] at first
    have kept : character ∈ (text.dropWhile isIndent).head? := by
      rw [body, List.head?_append, first]
      rfl
    exact not_of_mem_head?_dropWhile kept
  · intro character last
    rw [Text.trimBlankEnd, List.getLast?_reverse] at last
    exact not_of_mem_head?_dropWhile last
  · rw [List.mem_append, not_or]
    refine ⟨not_mem_lead _, fun among => oneLine ?_⟩
    rw [whole]
    exact List.mem_append_left _ (List.mem_append_right _ among)
  · intro index _ column
    simp only [rulerOf, lead, column, List.length_append, List.length_replicate, List.length_cons,
      List.length_nil, String.length_toList]
    omega

end Report

end KnightFront
