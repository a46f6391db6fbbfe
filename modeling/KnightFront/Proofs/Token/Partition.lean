import KnightFront.Proofs.Token.Lexical
import KnightFront.Proofs.Token.Places

namespace KnightFront

/-!
# Tokens as a partition of the source

Offsets count bytes and lie between characters, whereas lines and columns
count characters.  The tokens of a source text are the lexemes between certain
offsets, in ascending order; the gaps in front of them and the tail behind them
hold blanks and comments.  Every span is made of the places of the two offsets,
and the place of an offset depends on nothing but the text before it.
-/

section Offsets

variable {source : String}

/-- The characters between two offsets. -/
def textBetween (start finish : source.Pos) : List Char :=
  (source.extract start finish).toList

theorem textBetween_append {first second third : source.Pos} (early : first ≤ second)
    (late : second ≤ third) :
    textBetween first second ++ textBetween second third = textBetween first third := by
  rw [String.Pos.le_iff, String.Pos.Raw.le_iff] at early late
  have bytes : source.extract first second ++ source.extract second third =
      source.extract first third := by
    rw [← String.toByteArray_inj]
    simp [String.toByteArray_append, String.toByteArray_extract, Nat.min_eq_left early,
      Nat.max_eq_right late]
  calc
    textBetween first second ++ textBetween second third =
        (source.extract first second ++ source.extract second third).toList :=
      String.toList_append.symm
    _ = textBetween first third := congrArg String.toList bytes

theorem splits_extract (offset : source.Pos) :
    offset.Splits (source.extract source.startPos offset)
      (source.extract offset source.endPos) where
  eq_append := by
    rw [← String.toByteArray_inj]
    simp [String.toByteArray_append, String.toByteArray_extract, ← String.size_toByteArray]
  offset_eq_rawEndPos := by
    have within := offset.isValid.le_rawEndPos
    rw [String.Pos.Raw.le_iff] at within
    simp [String.Pos.Raw.ext_iff, ← String.size_toByteArray, String.toByteArray_extract] at within ⊢
    omega

@[simp]
theorem textBetween_startPos_endPos :
    textBetween source.startPos source.endPos = source.toList := by
  rw [textBetween, (splits_extract source.endPos).eq_left source.splits_endPos]

@[simp]
theorem textBetween_self (offset : source.Pos) : textBetween offset offset = [] := by
  have twice := textBetween_append (Nat.le_refl offset.offset.byteIdx) (Nat.le_refl _)
  simpa using twice

/-- Only the end has nothing behind it. -/
theorem eq_endPos_of_textBetween {offset : source.Pos}
    (nothing : textBetween offset source.endPos = []) : offset = source.endPos := by
  refine (splits_extract offset).eq_endPos_iff.mpr ?_
  rwa [textBetween, String.toList_eq_nil_iff] at nothing

/-- Where the text behind an offset is put together of two parts, an offset
lies between them. -/
theorem exists_offset {start : source.Pos} {text rest : List Char}
    (cut : textBetween start source.endPos = text ++ rest) :
    ∃ finish : source.Pos, start ≤ finish ∧ textBetween start finish = text ∧
      textBetween finish source.endPos = rest := by
  have whole := (splits_extract start).eq_append
  have behind : source.extract start source.endPos = String.ofList text ++ String.ofList rest := by
    rw [← String.ofList_append, ← cut, textBetween, String.ofList_toList]
  rw [behind, ← String.append_assoc] at whole
  obtain ⟨finish, splits⟩ : ∃ finish : source.Pos,
      finish.Splits (source.extract source.startPos start ++ String.ofList text)
        (String.ofList rest) :=
    ⟨⟨_, String.Pos.Raw.isValid_iff_exists_append.mpr ⟨_, _, whole, rfl⟩⟩, whole, rfl⟩
  have left := (splits_extract finish).eq_left splits
  have right := (splits_extract finish).eq_right splits
  have ascending : start ≤ finish := by
    have before := (splits_extract start).offset_eq_rawEndPos
    rw [String.Pos.le_iff, String.Pos.Raw.le_iff, before, splits.offset_eq_rawEndPos]
    simp
  refine ⟨finish, ascending, ?_, by rw [textBetween, right, String.toList_ofList]⟩
  have parts := textBetween_append (String.Pos.startPos_le _) ascending
  have grown : textBetween source.startPos finish = textBetween source.startPos start ++ text :=
    calc
      textBetween source.startPos finish =
          (source.extract source.startPos start ++ String.ofList text).toList :=
        congrArg String.toList left
      _ = textBetween source.startPos start ++ text := by
        rw [String.toList_append, String.toList_ofList, textBetween]
  rw [grown, List.append_cancel_left_eq] at parts
  exact parts

/-- The place of an offset: one line for every line feed before it, and one
column for every character since the last of them. -/
def placeAt (file : String) (offset : source.Pos) : Position where
  line := 1 + (textBetween source.startPos offset).count '\n'
  column := 1 + ((textBetween source.startPos offset).reverse.takeWhile (· != '\n')).length
  file := file

theorem placeAt_eq_after (file : String) (offset : source.Pos) :
    placeAt file offset = (Position.start file).after (textBetween source.startPos offset) := by
  have line := (Position.start file).line_after (textBetween source.startPos offset)
  have column := Position.column_after_start file (textBetween source.startPos offset)
  have named := (Position.start file).file_after (textBetween source.startPos offset)
  generalize (Position.start file).after (textBetween source.startPos offset) = reached
    at line column named ⊢
  calc placeAt file offset = ⟨reached.line, reached.column, reached.file⟩ := by
        rw [line, column, named]
        rfl
    _ = reached := rfl

/-- The place of a later offset is behind the text in between. -/
theorem after_placeAt {start finish : source.Pos} (ascending : start ≤ finish) (file : String) :
    (placeAt file start).after (textBetween start finish) = placeAt file finish := by
  let front := textBetween source.startPos start
  calc
    (placeAt file start).after (textBetween start finish) =
        ((Position.start file).after front).after (textBetween start finish) := by
      rw [placeAt_eq_after]
    _ = (Position.start file).after (front ++ textBetween start finish) :=
      (Position.after_append _ _ _).symm
    _ = (Position.start file).after (textBetween source.startPos finish) := by
      rw [textBetween_append (String.Pos.startPos_le _) ascending]
    _ = placeAt file finish := (placeAt_eq_after file finish).symm

end Offsets

section Partition

variable {source : String} {file : String}

/-- Between two offsets there are only blanks and comments. -/
inductive Gap : source.Pos → source.Pos → Prop
  | empty {offset : source.Pos} : Gap offset offset
  | piece {start middle finish : source.Pos} : start < middle →
      Lexical (textBetween start middle) (textBetween middle source.endPos) none →
      Gap middle finish → Gap start finish

/-- From an offset on, the source is partitioned into gaps and tokens.  A token
stands between two offsets, the places of which are its span, and the text
there is a lexeme of its kind and value. -/
inductive Partition (file : String) : source.Pos → List Token → Prop
  | tail {offset : source.Pos} : Gap offset source.endPos →
      Partition file offset [.endOfInput (placeAt file source.endPos)]
  | token {offset first last : source.Pos} {kind : TokenKind} {value : String}
      {tokens : List Token} : Gap offset first → first < last →
      Lexical (textBetween first last) (textBetween last source.endPos) (some (kind, value)) →
      Partition file last tokens →
      Partition file offset (⟨kind, value, ⟨placeAt file first, placeAt file last⟩⟩ :: tokens)

/-- A gap in front of lexemes gives them no further tokens. -/
theorem Gap.cuts {start finish : source.Pos} {tokens : List Token} (gap : Gap start finish)
    (cuts : Cuts (placeAt file finish) (textBetween finish source.endPos) tokens) :
    Cuts (placeAt file start) (textBetween start source.endPos) tokens := by
  induction gap with
  | empty => exact cuts
  | piece ascending lexical _ inductionHypothesis =>
      have ascending := String.Pos.le_of_lt ascending
      have further := inductionHypothesis cuts
      rw [← after_placeAt ascending] at further
      rw [← textBetween_append ascending (String.Pos.le_endPos _)]
      exact .lexeme lexical further

theorem Partition.cuts {offset : source.Pos} {tokens : List Token}
    (partition : Partition file offset tokens) :
    Cuts (placeAt file offset) (textBetween offset source.endPos) tokens := by
  induction partition with
  | tail gap =>
      refine gap.cuts ?_
      rw [textBetween_self]
      exact .finish
  | token gap ascending lexical _ inductionHypothesis =>
      have ascending := String.Pos.le_of_lt ascending
      refine gap.cuts ?_
      rw [← after_placeAt ascending] at inductionHypothesis ⊢
      rw [← textBetween_append ascending (String.Pos.le_endPos _)]
      exact .lexeme lexical inductionHypothesis

/-- A piece of a gap can be put in front of a partition. -/
theorem Partition.skip {start middle : source.Pos} {tokens : List Token}
    (ascending : start < middle)
    (lexical : Lexical (textBetween start middle) (textBetween middle source.endPos) none)
    (partition : Partition file middle tokens) : Partition file start tokens := by
  cases partition with
  | tail gap => exact .tail (.piece ascending lexical gap)
  | token gap further content behind =>
      exact .token (.piece ascending lexical gap) further content behind

theorem partition_of_cuts {position : Position} {text : List Char} {tokens : List Token}
    (cuts : Cuts position text tokens) {offset : source.Pos}
    (here : position = placeAt file offset) (remainder : text = textBetween offset source.endPos) :
    Partition file offset tokens := by
  induction cuts generalizing offset with
  | finish =>
      obtain rfl := eq_endPos_of_textBetween remainder.symm
      rw [here]
      exact .tail .empty
  | @lexeme position text rest content tokens lexical _ inductionHypothesis =>
      obtain ⟨finish, ascending, rfl, rfl⟩ := exists_offset remainder.symm
      have nonempty : offset ≠ finish := by
        rintro rfl
        exact lexical.text_ne_nil (textBetween_self offset)
      have further := Std.lt_of_le_of_ne ascending nonempty
      subst here
      have behind := inductionHypothesis (after_placeAt ascending file) rfl
      cases content with
      | none => exact .skip further lexical behind
      | some content =>
          rw [after_placeAt ascending]
          exact .token .empty further lexical behind

end Partition

end KnightFront
