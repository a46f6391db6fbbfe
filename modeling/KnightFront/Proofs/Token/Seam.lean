import KnightFront.Proofs.Token.Lexical
import KnightFront.Proofs.Token.Places

namespace KnightFront

/-!
# Joining texts at a line end

No lexeme that ends with a text goes on behind a line feed: words, numbers and
signs stop there, a line comment ends there, and what is closed stays closed.
So the tokens of two texts joined by a line feed are the tokens of the one and
then those of the other, further down.
-/

/-- A place that many lines further down. -/
def Position.lower (lines : Nat) (position : Position) : Position :=
  { position with line := position.line + lines }

/-- A span that many lines further down. -/
def Span.lower (lines : Nat) (span : Span) : Span :=
  ⟨span.start.lower lines, span.finish.lower lines⟩

/-- A token that many lines further down. -/
def Token.lower (lines : Nat) (token : Token) : Token :=
  { token with span := token.span.lower lines }

/-- A fault that many lines further down. -/
def SyntaxFault.lower (lines : Nat) (fault : SyntaxFault) : SyntaxFault :=
  { fault with position := fault.position.lower lines }

theorem Position.lower_advance (lines : Nat) (position : Position) (character : Char) :
    (position.lower lines).advance character = (position.advance character).lower lines := by
  unfold advance
  split
  · simp only [lower, Position.mk.injEq, and_true]
    omega
  · rfl

theorem Position.lower_after (lines : Nat) (position : Position) (text : List Char) :
    (position.lower lines).after text = (position.after text).lower lines := by
  induction text generalizing position with
  | nil => rfl
  | cons first rest inductionHypothesis =>
      rw [after_cons, after_cons, lower_advance, inductionHypothesis]

/-- Further down in a file, a text has the same tokens and the same fault. -/
theorem tokensFrom_lower (lines : Nat) (position : Position) (text : List Char) :
    tokensFrom (position.lower lines) text =
      ((tokensFrom position text).map (List.map (Token.lower lines))).mapError
        (SyntaxFault.lower lines) := by
  fun_induction tokensFrom position text with
  | case1 position =>
      rw [tokensFrom]
      rfl
  | case2 position first rest cause failed =>
      rw [tokensFrom, failed]
      rfl
  | case3 position first rest lexeme found behind fault failed inductionHypothesis =>
      rw [tokensFrom_of_nextLexeme found, Position.lower_after, inductionHypothesis, failed]
      rfl
  | case4 position first rest lexeme found behind tokens read without inductionHypothesis =>
      rw [tokensFrom_of_nextLexeme found, Position.lower_after, inductionHypothesis, read, without]
      rfl
  | case5 position first rest lexeme found behind tokens read kind value content
      inductionHypothesis =>
      rw [tokensFrom_of_nextLexeme found, Position.lower_after, inductionHypothesis, read, content]
      rfl

/-- A lexeme in front of a text is one in front of the text with a further line
behind it. -/
theorem Lexical.append_lineFeed {text rest : List Char} {content : Option TokenContent}
    (lexical : Lexical text rest content) (more : List Char) :
    Lexical text (rest ++ '\n' :: more) content := by
  have head {test : Char → Prop} (stop : ∀ next ∈ rest.head?, test next) (feed : test '\n') :
      ∀ next ∈ (rest ++ '\n' :: more).head?, test next := by
    cases rest with
    | nil => simpa using feed
    | cons first others => simpa using stop
  cases lexical with
  | blanks nonempty blank => exact .blanks nonempty blank
  | lineComment oneLine stop => exact .lineComment oneLine (head stop rfl)
  | blockComment unclosed => exact .blockComment unclosed
  | identifier identifier boundary => exact .identifier identifier (head boundary (by decide))
  | reserved reserved boundary => exact .reserved reserved (head boundary (by decide))
  | number nonempty within stop => exact .number nonempty within (head stop (by decide))
  | string denotes => exact .string denotes
  | sign sign apart => exact .sign sign (head apart (by simp [extendedSigns]))

/-- Behind the tokens of a text come those of the next line. -/
theorem Cuts.exists_append_lineFeed {position : Position} {text : List Char} {tokens : List Token}
    (cuts : Cuts position text tokens) (more : List Char) :
    ∃ leading, tokens = leading ++ [.endOfInput (position.after text)] ∧
      tokensFrom position (text ++ '\n' :: more) =
        (tokensFrom ((position.after text).advance '\n') more).map (leading ++ ·) := by
  induction cuts with
  | @finish position =>
      refine ⟨[], rfl, ?_⟩
      have feed : tokensFrom position (['\n'] ++ more) = tokensFrom (position.after ['\n']) more :=
        tokensFrom_append_of_blank (List.all_eq_true.mp (by decide)) position more
      rw [List.nil_append, Position.after_nil]
      refine feed.trans ?_
      rw [Position.after_cons, Position.after_nil]
      cases tokensFrom (position.advance '\n') more <;> rfl
  | @lexeme position text rest content tokens lexical _ inductionHypothesis =>
      obtain ⟨leading, rfl, joined⟩ := inductionHypothesis
      rw [← Position.after_append] at joined ⊢
      refine ⟨(content.map (.ofContent ⟨position, position.after text⟩)).toList ++ leading,
        (List.append_assoc ..).symm, ?_⟩
      rw [List.append_assoc, tokensFrom_of_lexical (lexical.append_lineFeed more), joined]
      cases tokensFrom ((position.after (text ++ rest)).advance '\n') more with
      | error fault => rfl
      | ok others => simp [Except.map]

end KnightFront
