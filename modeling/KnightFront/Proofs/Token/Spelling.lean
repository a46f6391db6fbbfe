import KnightFront.Proofs.Token.Contents
import KnightFront.Tree.Operator

namespace KnightFront

/-!
# Spelling tokens

How the tokens that printed source consists of are spelled: reserved words,
identifiers, signs, numbers and string literals.  Each theorem puts the
spelling of one token in front of a text.  Printed source sets blanks around
the signs that could run on, so the theorems for single characters ask for
nothing.
-/

/-- A name that a program can write: a word that is not reserved. -/
def IsIdentifier (name : String) : Prop :=
  IsWord name.toList ∧ TokenKind.ofReservedWord? name = none

theorem contents?_identifier {name : String} (identifier : IsIdentifier name) {rest : List Char}
    (boundary : Boundary rest) :
    contents? (name.toList ++ rest) = (contents? rest).map ((.identifier, name) :: ·) := by
  rw [contents?_word identifier.1 boundary]
  simp [wordContent, identifier.2]

/-- Reserved words are words. -/
theorem isWord_of_mem_reservedWords {word : String} {kind : TokenKind}
    (reserved : (word, kind) ∈ TokenKind.reservedWords) : IsWord word.toList := by
  have all : ∀ entry ∈ TokenKind.reservedWords,
      ((entry.1.toList.head?.map isWordStart).getD false &&
        entry.1.toList.tail.all isWordPart) = true := by
    decide
  have checked := all _ reserved
  cases letters : word.toList with
  | nil => simp [letters] at checked
  | cons first more =>
      simp only [letters, List.head?_cons, Option.map_some, Option.getD_some, List.tail_cons,
        Bool.and_eq_true, List.all_eq_true] at checked
      exact ⟨first, more, rfl, checked.1, checked.2⟩

theorem ofReservedWord?_of_mem {word : String} {kind : TokenKind}
    (reserved : (word, kind) ∈ TokenKind.reservedWords) :
    TokenKind.ofReservedWord? word = some kind := by
  have all : ∀ entry ∈ TokenKind.reservedWords,
      TokenKind.ofReservedWord? entry.1 = some entry.2 := by
    decide
  exact all _ reserved

theorem contents?_reserved {word : String} {kind : TokenKind}
    (reserved : (word, kind) ∈ TokenKind.reservedWords) {rest : List Char}
    (boundary : Boundary rest) :
    contents? (word.toList ++ rest) = (contents? rest).map ((kind, word) :: ·) := by
  rw [contents?_word (isWord_of_mem_reservedWords reserved) boundary]
  simp [wordContent, ofReservedWord?_of_mem reserved]

/-- The signs that run on into a longer sign or a comment, each with the
character that it must not stand before. -/
def extendedSigns : List (String × Char) :=
  [("=", '='), ("<", '='), (">", '='), ("/", '/'), ("/", '*')]

/-- A sign is found at the beginning of its spelling. -/
theorem scanSign_append {spelling : String} {kind : TokenKind}
    (sign : (spelling, kind) ∈ TokenKind.signs) {rest : List Char}
    (apart : ∀ next ∈ rest.head?, (spelling, next) ∉ extendedSigns) :
    scanSign (spelling.toList ++ rest) = some (kind, spelling) := by
  simp only [TokenKind.signs, List.mem_cons, Prod.mk.injEq, List.not_mem_nil, or_false] at sign
  rcases sign with h | h | h | h | h | h | h | h | h | h | h | h | h | h | h | h | h | h | h | h |
    h | h | h | h <;> obtain ⟨rfl, rfl⟩ := h <;> try rfl
  -- What follows decides only about the three signs that an equality sign makes longer.
  all_goals
    cases rest with
    | nil => rfl
    | cons next others =>
        have other : ('=' == next) = false := by
          have notExtended := apart next rfl
          simp only [extendedSigns, List.mem_cons, Prod.mk.injEq, true_and] at notExtended
          simp only [beq_eq_false_iff_ne, ne_eq]
          rintro rfl
          simp at notExtended
        simp [scanSign, TokenKind.signs, List.isPrefixOf, other]

/-- Every sign begins like a sign and like nothing else, the slash apart, which begins
like a comment. -/
theorem first_of_mem_signs {spelling : String} {kind : TokenKind}
    (sign : (spelling, kind) ∈ TokenKind.signs) :
    ∃ first more, spelling.toList = first :: more ∧ Text.isBlank first = false ∧
      isWordStart first = false ∧ first.isDigit = false ∧ first ≠ '"' ∧
      (first = '/' → spelling = "/" ∧ more = []) := by
  have plain : ∀ entry ∈ TokenKind.signs, (entry.1.toList.head?.any fun first =>
      !Text.isBlank first && !isWordStart first && !first.isDigit && first != '"' &&
        (first != '/' || entry.1 == "/")) = true := by
    decide
  have checked := plain _ sign
  cases letters : spelling.toList with
  | nil => simp [letters] at checked
  | cons first more =>
      simp only [letters, List.head?_cons, Option.any_some, Bool.and_eq_true, Bool.not_eq_true',
        bne_iff_ne, Bool.or_eq_true, beq_iff_eq] at checked
      obtain ⟨⟨⟨⟨notBlank, notWord⟩, notDigit⟩, notQuote⟩, slash⟩ := checked
      refine ⟨first, more, rfl, notBlank, notWord, notDigit, notQuote, fun isSlash => ?_⟩
      obtain rfl : spelling = "/" := slash.resolve_left (not_not_intro isSlash)
      exact ⟨rfl, (List.cons.inj letters).2.symm⟩

/-- A sign is cut off where no longer sign and no comment begins. -/
theorem exists_nextLexeme_of_sign {spelling : String} {kind : TokenKind}
    (sign : (spelling, kind) ∈ TokenKind.signs) {rest : List Char}
    (apart : ∀ next ∈ rest.head?, (spelling, next) ∉ extendedSigns) :
    ∃ first more, ∃ lexeme : Lexeme (first :: more), spelling.toList ++ rest = first :: more ∧
      nextLexeme first more = .ok lexeme ∧ lexeme.content = some (kind, spelling) ∧
      lexeme.rest = rest := by
  obtain ⟨first, more, letters, notBlank, notWord, notDigit, notQuote, slash⟩ :=
    first_of_mem_signs sign
  have scanned := scanSign_append sign apart
  rw [letters, List.cons_append] at scanned
  have notComment : first = '/' → ∀ next ∈ (more ++ rest).head?, next ≠ '/' ∧ next ≠ '*' := by
    intro isSlash next head
    obtain ⟨rfl, rfl⟩ := slash isSlash
    simpa [extendedSigns] using apart next head
  obtain ⟨lexeme, found, means, behind⟩ :=
    exists_nextLexeme_of_scanSign scanned notBlank notWord notDigit notQuote notComment
  exact ⟨first, _, lexeme, by rw [letters, List.cons_append], found, means,
    by simp [behind, letters]⟩

/-- A sign adds its own content. -/
theorem contents?_sign {spelling : String} {kind : TokenKind}
    (sign : (spelling, kind) ∈ TokenKind.signs) {rest : List Char}
    (apart : ∀ next ∈ rest.head?, (spelling, next) ∉ extendedSigns) :
    contents? (spelling.toList ++ rest) = (contents? rest).map ((kind, spelling) :: ·) := by
  obtain ⟨first, more, lexeme, input, found, means, behind⟩ := exists_nextLexeme_of_sign sign apart
  rw [input, contents?_of_nextLexeme found, means, behind]
  rfl

/-! ## Single marks and words as printed source sets them -/

section Marks

variable (rest : List Char)

@[simp]
theorem contents?_space : contents? (' ' :: rest) = contents? rest :=
  contents?_cons_of_isBlank rest rfl

@[simp]
theorem contents?_newline : contents? ('\n' :: rest) = contents? rest :=
  contents?_cons_of_isBlank rest rfl

@[simp]
theorem contents?_openParen :
    contents? ('(' :: rest) = (contents? rest).map ((.openParen, "(") :: ·) :=
  contents?_sign (show ("(", .openParen) ∈ TokenKind.signs by decide) (by simp [extendedSigns])

@[simp]
theorem contents?_closeParen :
    contents? (')' :: rest) = (contents? rest).map ((.closeParen, ")") :: ·) :=
  contents?_sign (show (")", .closeParen) ∈ TokenKind.signs by decide) (by simp [extendedSigns])

@[simp]
theorem contents?_openBracket :
    contents? ('[' :: rest) = (contents? rest).map ((.openBracket, "[") :: ·) :=
  contents?_sign (show ("[", .openBracket) ∈ TokenKind.signs by decide) (by simp [extendedSigns])

@[simp]
theorem contents?_closeBracket :
    contents? (']' :: rest) = (contents? rest).map ((.closeBracket, "]") :: ·) :=
  contents?_sign (show ("]", .closeBracket) ∈ TokenKind.signs by decide) (by simp [extendedSigns])

@[simp]
theorem contents?_openCurly :
    contents? ('{' :: rest) = (contents? rest).map ((.openCurly, "\x7b") :: ·) :=
  contents?_sign (show ("\x7b", .openCurly) ∈ TokenKind.signs by decide) (by simp [extendedSigns])

@[simp]
theorem contents?_closeCurly :
    contents? ('}' :: rest) = (contents? rest).map ((.closeCurly, "\x7d") :: ·) :=
  contents?_sign (show ("\x7d", .closeCurly) ∈ TokenKind.signs by decide) (by simp [extendedSigns])

@[simp]
theorem contents?_dot : contents? ('.' :: rest) = (contents? rest).map ((.dot, ".") :: ·) :=
  contents?_sign (show (".", .dot) ∈ TokenKind.signs by decide) (by simp [extendedSigns])

@[simp]
theorem contents?_comma : contents? (',' :: rest) = (contents? rest).map ((.comma, ",") :: ·) :=
  contents?_sign (show (",", .comma) ∈ TokenKind.signs by decide) (by simp [extendedSigns])

@[simp]
theorem contents?_semicolon :
    contents? (';' :: rest) = (contents? rest).map ((.semicolon, ";") :: ·) :=
  contents?_sign (show (";", .semicolon) ∈ TokenKind.signs by decide) (by simp [extendedSigns])

@[simp]
theorem contents?_colon : contents? (':' :: rest) = (contents? rest).map ((.colon, ":") :: ·) :=
  contents?_sign (show (":", .colon) ∈ TokenKind.signs by decide) (by simp [extendedSigns])

@[simp]
theorem contents?_assignment :
    contents? ('=' :: ' ' :: rest) = (contents? rest).map ((.assignment, "=") :: ·) := by
  rw [← contents?_space rest]
  change contents? ("=".toList ++ ' ' :: rest) = _
  exact contents?_sign (by decide) (by simp [extendedSigns])

@[simp]
theorem contents?_greaterNewline :
    contents? ('>' :: '\n' :: rest) = (contents? rest).map ((.greater, ">") :: ·) := by
  rw [← contents?_newline rest]
  change contents? (">".toList ++ '\n' :: rest) = _
  exact contents?_sign (by decide) (by simp [extendedSigns])

end Marks

/-- The sign in front of the name of a library. -/
theorem contents?_lessIdentifier {name : String} (identifier : IsIdentifier name)
    (rest : List Char) :
    contents? ('<' :: (name.toList ++ rest)) =
      (contents? (name.toList ++ rest)).map ((.less, "<") :: ·) := by
  rcases identifier.1 with ⟨first, more, letters, start, -⟩
  have notEqual : first ≠ '=' := by
    rintro rfl
    exact absurd start (by decide)
  exact contents?_sign (show ("<", .less) ∈ TokenKind.signs by decide)
    (by simp [letters, extendedSigns, notEqual])

/-- A binary operator between blanks. -/
theorem contents?_symbol (op : BinaryOp) (rest : List Char) :
    contents? (op.symbol.toList ++ ' ' :: rest) =
      (contents? rest).map ((op.token, op.symbol) :: ·) := by
  have sign : (op.symbol, op.token) ∈ TokenKind.signs := by cases op <;> decide
  rw [contents?_sign sign (by cases op <;> simp [extendedSigns, BinaryOp.symbol]), contents?_space]

/-- A reserved word before a blank. -/
theorem contents?_keyword {word : String} {kind : TokenKind}
    (reserved : (word, kind) ∈ TokenKind.reservedWords) (rest : List Char) :
    contents? (word.toList ++ ' ' :: rest) = (contents? rest).map ((kind, word) :: ·) := by
  rw [contents?_reserved reserved (boundary_cons.mpr (by decide)), contents?_space]

section Keywords

variable (rest : List Char)

@[simp]
theorem contents?_new :
    contents? ('n' :: 'e' :: 'w' :: ' ' :: rest) =
      (contents? rest).map ((.newWord, "new") :: ·) :=
  contents?_keyword (show ("new", .newWord) ∈ TokenKind.reservedWords by decide) rest

@[simp]
theorem contents?_ret :
    contents? ('r' :: 'e' :: 't' :: ' ' :: rest) =
      (contents? rest).map ((.retWord, "ret") :: ·) :=
  contents?_keyword (show ("ret", .retWord) ∈ TokenKind.reservedWords by decide) rest

@[simp]
theorem contents?_if :
    contents? ('i' :: 'f' :: ' ' :: rest) =
      (contents? rest).map ((.ifWord, "if") :: ·) :=
  contents?_keyword (show ("if", .ifWord) ∈ TokenKind.reservedWords by decide) rest

@[simp]
theorem contents?_while :
    contents? ('w' :: 'h' :: 'i' :: 'l' :: 'e' :: ' ' :: rest) =
      (contents? rest).map ((.whileWord, "while") :: ·) :=
  contents?_keyword (show ("while", .whileWord) ∈ TokenKind.reservedWords by decide) rest

@[simp]
theorem contents?_for :
    contents? ('f' :: 'o' :: 'r' :: ' ' :: rest) =
      (contents? rest).map ((.forWord, "for") :: ·) :=
  contents?_keyword (show ("for", .forWord) ∈ TokenKind.reservedWords by decide) rest

@[simp]
theorem contents?_fn :
    contents? ('f' :: 'n' :: ' ' :: rest) =
      (contents? rest).map ((.fnWord, "fn") :: ·) :=
  contents?_keyword (show ("fn", .fnWord) ∈ TokenKind.reservedWords by decide) rest

@[simp]
theorem contents?_class :
    contents? ('c' :: 'l' :: 'a' :: 's' :: 's' :: ' ' :: rest) =
      (contents? rest).map ((.classWord, "class") :: ·) :=
  contents?_keyword (show ("class", .classWord) ∈ TokenKind.reservedWords by decide) rest

@[simp]
theorem contents?_interface :
    contents? ('i' :: 'n' :: 't' :: 'e' :: 'r' :: 'f' :: 'a' :: 'c' :: 'e' :: ' ' :: rest) =
      (contents? rest).map ((.interfaceWord, "interface") :: ·) :=
  contents?_keyword (show ("interface", .interfaceWord) ∈ TokenKind.reservedWords by decide) rest

@[simp]
theorem contents?_enum :
    contents? ('e' :: 'n' :: 'u' :: 'm' :: ' ' :: rest) =
      (contents? rest).map ((.enumWord, "enum") :: ·) :=
  contents?_keyword (show ("enum", .enumWord) ∈ TokenKind.reservedWords by decide) rest

@[simp]
theorem contents?_include :
    contents? ('i' :: 'n' :: 'c' :: 'l' :: 'u' :: 'd' :: 'e' :: ' ' :: rest) =
      (contents? rest).map ((.includeWord, "include") :: ·) :=
  contents?_keyword (show ("include", .includeWord) ∈ TokenKind.reservedWords by decide) rest

@[simp]
theorem contents?_else :
    contents? ('e' :: 'l' :: 's' :: 'e' :: '\n' :: rest) =
      (contents? rest).map ((.elseWord, "else") :: ·) := by
  rw [← contents?_newline rest]
  exact contents?_reserved (show ("else", .elseWord) ∈ TokenKind.reservedWords by decide)
    (boundary_cons.mpr (by decide))

/-- A return without a value. -/
@[simp]
theorem contents?_retSemicolon :
    contents? ('r' :: 'e' :: 't' :: ';' :: rest) =
      (contents? rest).map fun others => (.retWord, "ret") :: (.semicolon, ";") :: others := by
  have word : contents? ("ret".toList ++ ';' :: rest) =
      (contents? (';' :: rest)).map ((.retWord, "ret") :: ·) :=
    contents?_reserved (by decide) (boundary_cons.mpr (by decide))
  rw [contents?_semicolon, Option.map_map] at word
  exact word

end Keywords

theorem isDigit_of_mem_toString (number : Nat) :
    ∀ digit ∈ (toString number).toList, digit.isDigit = true := by
  intro digit member
  rw [show (toString number).toList = Nat.toDigits 10 number by simp] at member
  exact Nat.isDigit_of_mem_toDigits (by decide) (by decide) member

/-- A number adds the number written in decimal. -/
theorem contents?_toString (number : Nat) {rest : List Char} (boundary : Boundary rest) :
    contents? ((toString number).toList ++ rest) =
      (contents? rest).map ((.number, toString number) :: ·) := by
  have spelled := contents?_number (by simp) (isDigit_of_mem_toString number) boundary
  rwa [String.ofList_toList] at spelled

namespace StringLiteral

/-- The two forms in which a character stands in a literal. -/
theorem encodeCharacter_cases (character : Char) :
    (∃ escaped, encodeCharacter character = ['\\', escaped] ∧ escaped ≠ '\n' ∧
        ∀ rest, decode ('\\' :: escaped :: rest) = (decode rest).map (character :: ·)) ∨
      encodeCharacter character = [character] ∧ character ≠ '"' ∧ character ≠ '\\' ∧
        character ≠ '\n' := by
  unfold encodeCharacter
  split
  · exact .inl ⟨_, rfl, by decide, fun rest => by simp [decode]⟩
  · exact .inl ⟨_, rfl, by decide, fun rest => by simp [decode]⟩
  · exact .inl ⟨_, rfl, by decide, fun rest => by simp [decode]⟩
  · exact .inl ⟨_, rfl, by decide, fun rest => by simp [decode]⟩
  · exact .inl ⟨_, rfl, by decide, fun rest => by simp [decode]⟩
  · exact .inl ⟨_, rfl, by decide, fun rest => by simp [decode]⟩
  · next notQuote notSlash notFeed _ _ _ => exact .inr ⟨rfl, notQuote, notSlash, notFeed⟩

/-- A written text ends at the quote behind it. -/
theorem scanBody_flatMap_encodeCharacter (text rest : List Char) :
    scanBody (text.flatMap encodeCharacter ++ '"' :: rest) =
      some (text.flatMap encodeCharacter, rest) := by
  induction text with
  | nil => simp [scanBody]
  | cons character others inductionHypothesis =>
      rcases encodeCharacter_cases character with ⟨escaped, form, notFeed, -⟩ |
        ⟨form, notQuote, notSlash, notFeed⟩
      · simp [form, scanBody, notFeed, inductionHypothesis]
      · rw [List.flatMap_cons, form, List.cons_append, List.nil_append, List.cons_append, scanBody]
        · simp [inductionHypothesis]
        all_goals simp_all

/-- Reading a written text gives the text back. -/
theorem decode_flatMap_encodeCharacter (text : List Char) :
    decode (text.flatMap encodeCharacter) = some text := by
  induction text with
  | nil => rfl
  | cons character others inductionHypothesis =>
      rcases encodeCharacter_cases character with ⟨escaped, form, -, decoded⟩ |
        ⟨form, -, notSlash, -⟩
      · simp [form, decoded, inductionHypothesis]
      · rw [List.flatMap_cons, form, List.cons_append, List.nil_append, decode]
        · simp [inductionHypothesis]
        all_goals simp_all

end StringLiteral

/-- A quote begins the lexeme of a closed literal. -/
theorem nextLexeme_of_scanBody {first : Char} {literal body rest value : List Char}
    (isQuote : first = '"') (scanned : StringLiteral.scanBody literal = some (body, rest))
    (decoded : StringLiteral.decode body = some value) :
    ∃ lexeme : Lexeme (first :: literal), nextLexeme first literal = .ok lexeme ∧
      lexeme.content = some (.string, String.ofList value) ∧ lexeme.rest = rest := by
  unfold nextLexeme
  rw [if_neg (by rw [isQuote]; decide), if_neg (by rw [isQuote]; decide),
    if_neg (by rw [isQuote]; decide)]
  split
  · next slash => simp at isQuote
  · next slash => simp at isQuote
  · split
    · next failed => simp [scanned] at failed
    · next found =>
        rw [scanned, Option.some.injEq, Prod.mk.injEq] at found
        obtain ⟨rfl, rfl⟩ := found
        simp [decoded]
  · next notQuote _ _ => exact absurd isQuote notQuote

/-- A written text adds that text. -/
theorem contents?_encode (value : String) (rest : List Char) :
    contents? ((StringLiteral.encode value).toList ++ rest) =
      (contents? rest).map ((.string, value) :: ·) := by
  have literal : (StringLiteral.encode value).toList ++ rest =
      '"' :: (value.toList.flatMap StringLiteral.encodeCharacter ++ '"' :: rest) := by
    simp [StringLiteral.encode]
  obtain ⟨lexeme, next, content, behind⟩ := nextLexeme_of_scanBody rfl
    (StringLiteral.scanBody_flatMap_encodeCharacter value.toList rest)
    (StringLiteral.decode_flatMap_encodeCharacter value.toList)
  calc
    contents? ((StringLiteral.encode value).toList ++ rest) =
        (contents? lexeme.rest).map (lexeme.content.toList ++ ·) := by
      rw [literal, contents?_of_nextLexeme next]
    _ = (contents? rest).map ((.string, value) :: ·) := by
      rw [content, behind, String.ofList_toList]
      rfl

end KnightFront
