import KnightFront.Token.Lexer

namespace KnightFront

/-!
# Where tokens stand

Cutting a text into lexemes only moves on, so the tokens of a file stand in
the order in which they begin, no two at the same place, and the end of input
closes them.
-/

namespace Position

/-- A place in the same file and further on. -/
def Precedes (first second : Position) : Prop :=
  first.file = second.file ∧
    (first.line < second.line ∨ first.line = second.line ∧ first.column < second.column)

theorem Precedes.trans {first second third : Position} (before : first.Precedes second)
    (after : second.Precedes third) : first.Precedes third := by
  obtain ⟨file, further⟩ := before
  obtain ⟨file', further'⟩ := after
  exact ⟨file.trans file', by omega⟩

theorem Precedes.ne {first second : Position} (before : first.Precedes second) :
    first ≠ second := by
  rintro rfl
  have further := before.2
  omega

/-- A character moves a place on. -/
theorem precedes_advance (position : Position) (character : Char) :
    position.Precedes (position.advance character) := by
  unfold advance
  split
  · exact ⟨rfl, .inl (Nat.lt_succ_self _)⟩
  · exact ⟨rfl, .inr ⟨rfl, Nat.lt_succ_self _⟩⟩

/-- A text moves a place on, unless there is nothing in it. -/
theorem precedes_after {text : List Char} (nonempty : text ≠ []) (position : Position) :
    position.Precedes (position.after text) := by
  induction text generalizing position with
  | nil => exact absurd rfl nonempty
  | cons first rest inductionHypothesis =>
      rw [after_cons]
      have moved := precedes_advance position first
      by_cases single : rest = []
      · rw [single]
        exact moved
      · exact moved.trans (inductionHypothesis single _)

/-- A text stays in its file. -/
theorem file_after (position : Position) (text : List Char) :
    (position.after text).file = position.file := by
  by_cases nothing : text = []
  · rw [nothing]
    rfl
  · exact (precedes_after nothing position).1.symm

/-- Every line feed moves a place down by a line. -/
theorem line_after (position : Position) (text : List Char) :
    (position.after text).line = position.line + text.count '\n' := by
  induction text generalizing position with
  | nil => rfl
  | cons first rest inductionHypothesis =>
      rw [after_cons, inductionHypothesis, List.count_cons, advance]
      by_cases feed : first = '\n'
      · simp only [feed, if_true, beq_self_eq_true]
        omega
      · simp [feed]

/-- In the first line a place has one column for every character before it, and
in every other line one for every character since the last line feed. -/
theorem column_after_start (file : String) (text : List Char) :
    ((start file).after text).column = 1 + (text.reverse.takeWhile (· != '\n')).length := by
  suffices backwards : ((start file).after text.reverse.reverse).column =
      1 + (text.reverse.takeWhile (· != '\n')).length by
    rwa [List.reverse_reverse] at backwards
  induction text.reverse with
  | nil => rfl
  | cons final before inductionHypothesis =>
      have last : (start file).after (final :: before).reverse =
          ((start file).after before.reverse).advance final := by
        rw [List.reverse_cons, after_append, after_cons, after_nil]
      rw [last, advance]
      by_cases feed : final = '\n'
      · simp [feed]
      · simp only [feed, if_false, inductionHypothesis]
        simp [feed]
        omega

end Position

/-- Tokens that begin at a place or behind it, each one behind the one before
it. -/
structure InOrder (position : Position) (tokens : List Token) : Prop where
  behind : ∀ token ∈ tokens, token.span.start = position ∨ position.Precedes token.span.start
  ordered : tokens.Pairwise fun first second => first.span.start.Precedes second.span.start
  ends : ∀ token ∈ tokens, token.span.finish.file = position.file

/-- Tokens begin in the file of the place. -/
theorem InOrder.begins {position : Position} {tokens : List Token}
    (inOrder : InOrder position tokens) :
    ∀ token ∈ tokens, token.span.start.file = position.file := by
  intro token member
  rcases inOrder.behind token member with same | further
  · exact congrArg Position.file same
  · exact further.1.symm

/-- Tokens that begin behind a place begin behind every earlier one. -/
theorem InOrder.precedes {first second : Position} {tokens : List Token}
    (inOrder : InOrder second tokens) (before : first.Precedes second) :
    ∀ token ∈ tokens, first.Precedes token.span.start := by
  intro token member
  rcases inOrder.behind token member with same | further
  · exact same ▸ before
  · exact before.trans further

/-- The tokens of a text are in order from where the text begins. -/
theorem inOrder_tokensFrom {position : Position} {text : List Char} {tokens : List Token}
    (read : tokensFrom position text = .ok tokens) : InOrder position tokens := by
  fun_induction tokensFrom position text generalizing tokens with
  | case1 position =>
      cases read
      exact ⟨by simp [Token.endOfInput, Span.empty], List.pairwise_singleton _ _,
        by simp [Token.endOfInput, Span.empty]⟩
  | case2 | case3 => cases read
  | case4 position head tail lexeme =>
      rename_i rest _ inductionHypothesis
      cases read
      have inOrder := inductionHypothesis rest
      have moved := Position.precedes_after lexeme.text_ne_nil position
      exact ⟨fun token member => .inr (inOrder.precedes moved token member), inOrder.ordered,
        fun token member => (inOrder.ends token member).trans (Position.file_after _ _)⟩
  | case5 position head tail lexeme =>
      rename_i rest _ _ _ inductionHypothesis
      cases read
      have inOrder := inductionHypothesis rest
      have moved := Position.precedes_after lexeme.text_ne_nil position
      refine ⟨fun token member => ?_, List.pairwise_cons.mpr ⟨?_, inOrder.ordered⟩,
        fun token member => ?_⟩
      · rcases List.mem_cons.mp member with rfl | later
        · exact .inl rfl
        · exact .inr (inOrder.precedes moved token later)
      · exact inOrder.precedes moved
      · rcases List.mem_cons.mp member with rfl | later
        · exact Position.file_after _ _
        · exact (inOrder.ends token later).trans (Position.file_after _ _)

/-- The tokens of a text are closed by the end of input. -/
theorem exists_endOfInput_of_tokensFrom {position : Position} {text : List Char}
    {tokens : List Token} (read : tokensFrom position text = .ok tokens) :
    ∃ final, tokens.getLast? = some final ∧ final.kind = .eof := by
  fun_induction tokensFrom position text generalizing tokens with
  | case1 position =>
      cases read
      exact ⟨_, rfl, rfl⟩
  | case2 | case3 => cases read
  | case4 position head tail lexeme =>
      rename_i rest _ inductionHypothesis
      cases read
      exact inductionHypothesis rest
  | case5 position head tail lexeme =>
      rename_i rest _ _ _ inductionHypothesis
      cases read
      obtain ⟨final, last, closed⟩ := inductionHypothesis rest
      exact ⟨final, by rw [List.getLast?_cons, last]; rfl, closed⟩

end KnightFront
