import KnightFront.Token.Lexer

namespace KnightFront

/-!
# What a text spells

The kinds and values of the tokens of a text do not depend on where the text
stands.  `contents?` lists them, and the theorems here say how they grow when
a blank, a word, a number, a sign or a string literal is put in front of a
text.  A word or number must not run on into the text behind it, and a sign
must not be the beginning of a longer one or of a comment.
-/

/-- Kind and value of a token: all of it but its place. -/
abbrev TokenContent := TokenKind × String

/-- What a token is, wherever it stands. -/
def Token.content (token : Token) : TokenContent := (token.kind, token.value)

/-- The contents of a text's tokens, the end of input included, unless the
text has a fault. -/
def contents? (text : List Char) : Option (List TokenContent) :=
  (tokensFrom .nowhere text).toOption.map (List.map Token.content)

/-- Tokens at another position have the same contents. -/
theorem tokensFrom_contents (first second : Position) (text : List Char) :
    (tokensFrom first text).toOption.map (List.map Token.content) =
      (tokensFrom second text).toOption.map (List.map Token.content) := by
  fun_induction tokensFrom first text generalizing second with
  | case1 position => simp [tokensFrom, Except.toOption, Token.endOfInput, Token.content]
  | case2 position head tail cause failed => simp [tokensFrom, failed, Except.toOption]
  | case3 position head tail lexeme found behind fault failed inductionHypothesis =>
      have same := inductionHypothesis (second.after lexeme.text)
      rw [failed] at same
      cases tokens : tokensFrom (second.after lexeme.text) lexeme.rest with
      | error other => simp [tokensFrom, found, tokens, Except.toOption]
      | ok others => simp [tokens, Except.toOption] at same
  | case4 position head tail lexeme found behind tokens read without inductionHypothesis =>
      have same := inductionHypothesis (second.after lexeme.text)
      rw [read] at same
      cases others : tokensFrom (second.after lexeme.text) lexeme.rest with
      | error other => simp [others, Except.toOption] at same
      | ok more => simpa [tokensFrom, found, others, without, Except.toOption] using same
  | case5 position head tail lexeme found behind tokens read kind value content
      inductionHypothesis =>
      have same := inductionHypothesis (second.after lexeme.text)
      rw [read] at same
      cases others : tokensFrom (second.after lexeme.text) lexeme.rest with
      | error other => simp [others, Except.toOption] at same
      | ok more =>
          simp only [tokensFrom, found, others, content, Except.toOption, Option.map_some,
            List.map_cons, Option.some.injEq, List.cons.injEq] at same ⊢
          exact ⟨rfl, same⟩

@[simp]
theorem contents?_nil : contents? [] = some [(.eof, "EOF")] := by
  simp [contents?, tokensFrom, Except.toOption, Token.endOfInput, Token.content]

/-- The contents of a text are those of its first lexeme and of what follows
it. -/
theorem contents?_of_nextLexeme {first : Char} {rest : List Char} {lexeme : Lexeme (first :: rest)}
    (found : nextLexeme first rest = .ok lexeme) :
    contents? (first :: rest) = (contents? lexeme.rest).map (lexeme.content.toList ++ ·) := by
  have elsewhere := tokensFrom_contents (Position.nowhere.after lexeme.text) .nowhere lexeme.rest
  rw [contents?, contents?, ← elsewhere, tokensFrom]
  simp only [found]
  cases tokensFrom (Position.nowhere.after lexeme.text) lexeme.rest with
  | error fault => rfl
  | ok tokens => cases lexeme.content <;> rfl

theorem nextLexeme_of_isBlank {first : Char} (rest : List Char) (blank : Text.isBlank first = true) :
    nextLexeme first rest = .ok (Lexeme.run Text.isBlank (fun _ => none) first rest) := by
  simp [nextLexeme, blank]

/-- Blanks at the beginning of a text do not count. -/
theorem contents?_dropWhile_isBlank (text : List Char) :
    contents? (text.dropWhile Text.isBlank) = contents? text := by
  cases text with
  | nil => rfl
  | cons first rest =>
      cases blank : Text.isBlank first with
      | false => simp [blank]
      | true =>
          rw [contents?_of_nextLexeme (nextLexeme_of_isBlank rest blank), List.dropWhile_cons_of_pos blank]
          simp [Lexeme.run]

/-- A blank adds nothing. -/
theorem contents?_cons_of_isBlank {first : Char} (rest : List Char)
    (blank : Text.isBlank first = true) : contents? (first :: rest) = contents? rest := by
  rw [← contents?_dropWhile_isBlank (first :: rest), List.dropWhile_cons_of_pos blank,
    contents?_dropWhile_isBlank]

/-- No word or number runs on into the text. -/
def Boundary (rest : List Char) : Prop := ∀ next ∈ rest.head?, isWordPart next = false

@[simp]
theorem boundary_nil : Boundary [] := by simp [Boundary]

@[simp]
theorem boundary_cons {next : Char} {rest : List Char} :
    Boundary (next :: rest) ↔ isWordPart next = false := by
  simp [Boundary]

theorem takeWhile_append_of_stop {test : Char → Bool} {run rest : List Char}
    (within : ∀ character ∈ run, test character = true)
    (stop : ∀ next ∈ rest.head?, test next = false) : (run ++ rest).takeWhile test = run := by
  rw [List.takeWhile_append_of_pos within]
  cases rest with
  | nil => simp
  | cons next others => simp [stop next rfl]

theorem dropWhile_append_of_stop {test : Char → Bool} {run rest : List Char}
    (within : ∀ character ∈ run, test character = true)
    (stop : ∀ next ∈ rest.head?, test next = false) : (run ++ rest).dropWhile test = rest := by
  rw [List.dropWhile_append_of_pos within]
  cases rest with
  | nil => rfl
  | cons next others => simp [stop next rfl]

/-- The characters of a word: a letter or underscore, and then letters,
digits and underscores. -/
def IsWord (word : List Char) : Prop :=
  ∃ first more, word = first :: more ∧ isWordStart first = true ∧
    ∀ character ∈ more, isWordPart character = true

/-- The letters are two ranges of ASCII characters. -/
theorem isAlpha_iff_toNat {character : Char} :
    character.isAlpha = true ↔ (65 ≤ character.toNat ∧ character.toNat ≤ 90) ∨
      (97 ≤ character.toNat ∧ character.toNat ≤ 122) := by
  change (decide (character.val ≥ 'A'.val ∧ character.val ≤ 'Z'.val) ||
    (decide (character.val ≥ 'a'.val) && decide (character.val ≤ 'z'.val))) = true ↔ _
  simp only [Bool.or_eq_true, Bool.and_eq_true, decide_eq_true_eq, ge_iff_le,
    UInt32.le_iff_toNat_le]
  exact Iff.rfl

/-- Letters, digits and the underscore lie among the ASCII characters behind
the blank ones. -/
theorem toNat_of_isWordPart {character : Char} (part : isWordPart character = true) :
    48 ≤ character.toNat ∧ character.toNat ≤ 122 := by
  simp only [isWordPart, Char.isAlphanum, Char.isDigit, isAlpha_iff_toNat, Bool.or_eq_true,
    Bool.and_eq_true, decide_eq_true_eq, beq_iff_eq, ge_iff_le, UInt32.le_iff_toNat_le] at part
  change (((65 ≤ character.toNat ∧ character.toNat ≤ 90) ∨
    (97 ≤ character.toNat ∧ character.toNat ≤ 122)) ∨
    (48 ≤ character.toNat ∧ character.toNat ≤ 57)) ∨ character = '_' at part
  rcases part with ((range | range) | range) | rfl
  · omega
  · omega
  · omega
  · decide

theorem not_isBlank_of_isWordPart {character : Char} (part : isWordPart character = true) :
    Text.isBlank character = false := by
  have range := toNat_of_isWordPart part
  rw [Text.isBlank, Bool.eq_false_iff]
  intro blank
  obtain ⟨points, member, inside⟩ := (Text.CodePoints.contains_eq_true_iff _ _).mp blank
  simp only [Text.blankPoints, List.mem_cons, List.not_mem_nil, or_false] at member
  rcases member with rfl | rfl | rfl | rfl | rfl | rfl | rfl | rfl | rfl | rfl <;>
    simp only at inside <;> omega

theorem isWordPart_of_isWordStart {character : Char} (start : isWordStart character = true) :
    isWordPart character = true := by
  simp only [isWordStart, isWordPart, Char.isAlphanum, Bool.or_eq_true] at start ⊢
  exact start.elim (fun letter => .inl (.inl letter)) .inr

theorem isWordPart_of_isDigit {character : Char} (digit : character.isDigit = true) :
    isWordPart character = true := by
  simp [isWordPart, Char.isAlphanum, digit]

theorem not_isWordStart_of_isDigit {character : Char} (digit : character.isDigit = true) :
    isWordStart character = false := by
  simp only [Char.isDigit, Bool.and_eq_true, decide_eq_true_eq, ge_iff_le,
    UInt32.le_iff_toNat_le] at digit
  change 48 ≤ character.toNat ∧ character.toNat ≤ 57 at digit
  rw [Bool.eq_false_iff]
  intro start
  simp only [isWordStart, isAlpha_iff_toNat, Bool.or_eq_true, beq_iff_eq] at start
  rcases start with (range | range) | rfl
  · omega
  · omega
  · exact absurd digit (by decide)

theorem nextLexeme_of_isWordStart {first : Char} (rest : List Char)
    (start : isWordStart first = true) :
    nextLexeme first rest =
      .ok (Lexeme.run isWordPart (fun text => some (wordContent text)) first rest) := by
  simp [nextLexeme, not_isBlank_of_isWordPart (isWordPart_of_isWordStart start), start]

theorem nextLexeme_of_isDigit {first : Char} (rest : List Char) (digit : first.isDigit = true) :
    nextLexeme first rest =
      .ok (Lexeme.run Char.isDigit (fun text => some (.number, String.ofList text)) first rest) := by
  simp [nextLexeme, not_isBlank_of_isWordPart (isWordPart_of_isDigit digit),
    not_isWordStart_of_isDigit digit, digit]

/-- A word adds its own content. -/
theorem contents?_word {word rest : List Char} (isWord : IsWord word) (boundary : Boundary rest) :
    contents? (word ++ rest) = (contents? rest).map (wordContent word :: ·) := by
  obtain ⟨first, more, rfl, start, within⟩ := isWord
  rw [List.cons_append, contents?_of_nextLexeme (nextLexeme_of_isWordStart _ start)]
  simp [Lexeme.run, takeWhile_append_of_stop within boundary, dropWhile_append_of_stop within boundary]

/-- A number adds its own content.  A letter behind a number would begin a
word, but no printed number stands before one. -/
theorem contents?_number {digits rest : List Char} (nonempty : digits ≠ [])
    (within : ∀ digit ∈ digits, digit.isDigit = true) (boundary : Boundary rest) :
    contents? (digits ++ rest) =
      (contents? rest).map ((.number, String.ofList digits) :: ·) := by
  obtain ⟨first, more, rfl⟩ := List.exists_cons_of_ne_nil nonempty
  have digit := within first List.mem_cons_self
  have others : ∀ other ∈ more, other.isDigit = true :=
    fun other member => within other (List.mem_cons_of_mem first member)
  have stop : ∀ next ∈ rest.head?, next.isDigit = false := by
    intro next head
    have part := boundary next head
    simp only [isWordPart, Char.isAlphanum, Bool.or_eq_false_iff] at part
    exact part.1.2
  rw [List.cons_append, contents?_of_nextLexeme (nextLexeme_of_isDigit _ digit)]
  simp [Lexeme.run, takeWhile_append_of_stop others stop, dropWhile_append_of_stop others stop]

/-- A sign is scanned where neither a blank, a word, a number, a comment nor a
string literal begins. -/
theorem exists_nextLexeme_of_scanSign {first : Char} {rest : List Char} {kind : TokenKind}
    {spelling : String} (scanned : scanSign (first :: rest) = some (kind, spelling))
    (notBlank : Text.isBlank first = false) (notWord : isWordStart first = false)
    (notDigit : first.isDigit = false) (notQuote : first ≠ '"')
    (notComment : first = '/' → ∀ next ∈ rest.head?, next ≠ '/' ∧ next ≠ '*') :
    ∃ lexeme : Lexeme (first :: rest), nextLexeme first rest = .ok lexeme ∧
      lexeme.content = some (kind, spelling) ∧
      lexeme.rest = (first :: rest).drop spelling.toList.length := by
  unfold nextLexeme
  rw [if_neg (by simp [notBlank]), if_neg (by simp [notWord]), if_neg (by simp [notDigit])]
  split
  · exact absurd rfl (notComment rfl _ rfl).1
  · exact absurd rfl (notComment rfl _ rfl).2
  · exact absurd rfl notQuote
  · split
    · simp_all
    · simp_all

/-- The tokens of a file have the contents of its text. -/
theorem contents?_of_tokenize {file source : String} {tokens : List Token}
    (read : tokenize file source = .ok tokens) :
    contents? source.toList = some (tokens.map Token.content) := by
  calc
    contents? source.toList =
        (tokensFrom (.start file) source.toList).toOption.map (List.map Token.content) :=
      tokensFrom_contents .nowhere (.start file) source.toList
    _ = some (tokens.map Token.content) := by
      rw [← tokenize, read]
      rfl

/-- The tokens of a given text can be computed. -/
theorem tokenize_eq_of_toOption {file source : String} {tokens : List Token}
    (listed : (tokenize file source).toOption = some tokens) :
    tokenize file source = .ok tokens := by
  cases read : tokenize file source with
  | error fault => simp [read, Except.toOption] at listed
  | ok others => simpa [read, Except.toOption] using listed

/-- A text whose contents can be listed has tokens in every file. -/
theorem exists_tokenize_of_contents? {source : String} {contents : List TokenContent}
    (listed : contents? source.toList = some contents) (file : String) :
    ∃ tokens, tokenize file source = .ok tokens ∧ tokens.map Token.content = contents := by
  rw [contents?, tokensFrom_contents .nowhere (.start file), ← tokenize] at listed
  obtain ⟨tokens, read, same⟩ := Option.map_eq_some_iff.mp listed
  exact ⟨tokens, tokenize_eq_of_toOption read, same⟩

end KnightFront
