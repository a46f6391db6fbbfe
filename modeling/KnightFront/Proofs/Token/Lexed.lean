import KnightFront.Proofs.Token.Spelling
import KnightFront.Token.Stream

namespace KnightFront

/-!
# Tokens of source text

What can be said of the tokens of a text beyond their kinds: an identifier has
the spelling of one, and a number consists of digits, without a sign.  A token
stream made of such tokens yields no others.
-/

/-- A token says what a text can spell for its kind. -/
structure TokenContent.Lexed (content : TokenContent) : Prop where
  identifier : content.1 = .identifier → IsIdentifier content.2
  number : content.1 = .number → ∀ character ∈ content.2.toList, character.isDigit = true

/-- A token is spelled as a text can spell it. -/
def Token.Lexed (token : Token) : Prop := token.content.Lexed

theorem TokenContent.lexed_of_ne {content : TokenContent} (noName : content.1 ≠ .identifier)
    (noNumber : content.1 ≠ .number) : content.Lexed :=
  ⟨fun same => absurd same noName, fun same => absurd same noNumber⟩

/-- A word is an identifier unless it is reserved, and never a number. -/
theorem wordContent_lexed {text : List Char} (word : IsWord text) :
    TokenContent.Lexed (wordContent text) := by
  cases found : TokenKind.ofReservedWord? (String.ofList text) with
  | none =>
      have same : wordContent text = (.identifier, String.ofList text) := by
        simp [wordContent, found]
      rw [same]
      refine ⟨fun _ => ⟨?_, found⟩, by simp⟩
      rwa [String.toList_ofList]
  | some kind =>
      rcases Option.map_eq_some_iff.mp found with ⟨entry, listed, rfl⟩
      have apart : ∀ entry ∈ TokenKind.reservedWords,
          entry.2 ≠ .identifier ∧ entry.2 ≠ .number := by decide
      have same : wordContent text = (entry.2, String.ofList text) := by
        simp [wordContent, found]
      have plain := apart entry (List.mem_of_find?_eq_some listed)
      rw [same]
      exact TokenContent.lexed_of_ne plain.1 plain.2

/-- No sign is an identifier or a number. -/
theorem lexed_of_scanSign {text : List Char} {content : TokenContent}
    (scanned : scanSign text = some content) : content.Lexed := by
  rcases Option.map_eq_some_iff.mp scanned with ⟨sign, listed, rfl⟩
  have apart : ∀ sign ∈ TokenKind.signs, sign.2 ≠ .identifier ∧ sign.2 ≠ .number := by decide
  have plain := apart sign (List.mem_of_find?_eq_some listed)
  exact TokenContent.lexed_of_ne plain.1 plain.2

/-- What is cut off from a text is spelled as its kind asks. -/
theorem lexed_of_nextLexeme {first : Char} {rest : List Char} {lexeme : Lexeme (first :: rest)}
    {content : TokenContent} (found : nextLexeme first rest = .ok lexeme)
    (made : lexeme.content = some content) : content.Lexed := by
  unfold nextLexeme at found
  split at found
  · cases found
    simp [Lexeme.run] at made
  · split at found
    · next start =>
        cases found
        obtain rfl := Option.some.inj made
        refine wordContent_lexed ⟨first, rest.takeWhile isWordPart, rfl, start, ?_⟩
        exact List.all_eq_true.mp List.all_takeWhile
    · split at found
      · next digit =>
          cases found
          obtain rfl := Option.some.inj made
          refine ⟨by simp, fun _ character member => ?_⟩
          rw [String.toList_ofList] at member
          rcases List.mem_cons.mp member with rfl | later
          · exact digit
          · exact List.all_eq_true.mp List.all_takeWhile character later
      · split at found
        · cases found
          simp [Lexeme.run] at made
        · split at found
          · cases found
          · cases found
            simp at made
        · split at found
          · cases found
          · split at found
            · cases found
            · cases found
              obtain rfl := Option.some.inj made
              exact TokenContent.lexed_of_ne (by simp) (by simp)
        · split at found
          · cases found
          · next kind spelling scanned =>
              cases found
              obtain rfl := Option.some.inj made
              exact lexed_of_scanSign scanned

/-- The tokens of a text are lexed. -/
theorem lexed_of_tokensFrom {position : Position} {text : List Char} {tokens : List Token}
    (read : tokensFrom position text = .ok tokens) : ∀ token ∈ tokens, token.Lexed := by
  fun_induction tokensFrom position text generalizing tokens with
  | case1 position =>
      cases read
      intro token member
      rw [List.mem_singleton.mp member]
      exact TokenContent.lexed_of_ne (by simp [Token.endOfInput, Token.content])
        (by simp [Token.endOfInput, Token.content])
  | case2 => cases read
  | case3 => cases read
  | case4 position first rest lexeme found behind others follow without =>
      rename_i inductionHypothesis
      cases read
      exact inductionHypothesis follow
  | case5 position first rest lexeme found behind others follow kind value content =>
      rename_i inductionHypothesis
      cases read
      intro token member
      rcases List.mem_cons.mp member with rfl | later
      · exact lexed_of_nextLexeme found content
      · exact inductionHypothesis follow token later

namespace TokenStream

/-- Every token that a stream yields is lexed. -/
def Lexed (stream : TokenStream) : Prop := ∀ token ∈ stream.ahead, token.Lexed

theorem lexed_ofTokens {tokens : List Token} (lexed : ∀ token ∈ tokens, token.Lexed) :
    (ofTokens tokens).Lexed := by
  intro token member
  unfold ofTokens at member
  split at member
  · simp at member
  · split at member
    · exact lexed token (List.dropLast_subset tokens member)
    · exact lexed token member

theorem Lexed.tail {stream : TokenStream} (lexed : stream.Lexed) : stream.tail.Lexed :=
  fun token member => lexed token (List.mem_of_mem_tail member)

theorem Lexed.current {stream : TokenStream} (lexed : stream.Lexed) : stream.current.Lexed := by
  cases ahead : stream.ahead with
  | nil =>
      have last : stream.current.kind = .eof := by
        simp [TokenStream.current, ahead, stream.finish_kind]
      refine TokenContent.lexed_of_ne ?_ ?_ <;> simp [Token.content, last]
  | cons first rest =>
      rw [show stream.current = first by simp [TokenStream.current, ahead]]
      exact lexed first (by simp [ahead])

end TokenStream

end KnightFront
