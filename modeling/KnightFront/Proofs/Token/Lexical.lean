import KnightFront.Proofs.Token.Literal
import KnightFront.Proofs.Token.Spelling

namespace KnightFront
/-!
# The lexical grammar

What each lexeme looks like, said without the order in which the rules are
tried.  A lexeme that could run on is told apart from a longer one by what may
stand behind it.  Blanks need not be cut off all at once: a run of them is as
good as its parts.
-/

/-- A text is a lexeme of a content when it stands in front of the rest. -/
inductive Lexical : List Char → List Char → Option TokenContent → Prop
  | blanks {text rest : List Char} : text ≠ [] →
      (∀ character ∈ text, Text.isBlank character = true) → Lexical text rest none
  | lineComment {comment rest : List Char} : '\n' ∉ comment →
      (∀ next ∈ rest.head?, next = '\n') → Lexical ('/' :: '/' :: comment) rest none
  /-- The closing mark is the first one.  Its star may close no earlier mark. -/
  | blockComment {comment rest : List Char} : ¬ ['*', '/'] <:+: comment ++ ['*'] →
      Lexical ('/' :: '*' :: comment ++ ['*', '/']) rest none
  | identifier {name : String} {rest : List Char} : IsIdentifier name → Boundary rest →
      Lexical name.toList rest (some (.identifier, name))
  | reserved {word : String} {kind : TokenKind} {rest : List Char} :
      (word, kind) ∈ TokenKind.reservedWords → Boundary rest →
      Lexical word.toList rest (some (kind, word))
  | number {digits rest : List Char} : digits ≠ [] →
      (∀ digit ∈ digits, digit.isDigit = true) →
      (∀ next ∈ rest.head?, next.isDigit = false) →
      Lexical digits rest (some (.number, String.ofList digits))
  | string {body value rest : List Char} : StringLiteral.Denotes body value →
      Lexical ('"' :: body ++ ['"']) rest (some (.string, String.ofList value))
  | sign {spelling : String} {kind : TokenKind} {rest : List Char} :
      (spelling, kind) ∈ TokenKind.signs →
      (∀ next ∈ rest.head?, (spelling, next) ∉ extendedSigns) →
      Lexical spelling.toList rest (some (kind, spelling))

/-- A lexeme is cut off in front of a rest. -/
def CutOff (text rest : List Char) (content : Option TokenContent) : Prop :=
  ∃ first more, ∃ lexeme : Lexeme (first :: more), nextLexeme first more = .ok lexeme ∧
    lexeme.text = text ∧ lexeme.rest = rest ∧ lexeme.content = content

/-- Where a comment ends: at the first closing mark. -/
theorem scanBlockComment_append {comment : List Char} (unclosed : ¬ ['*', '/'] <:+: comment ++ ['*'])
    (rest : List Char) :
    scanBlockComment (comment ++ '*' :: '/' :: rest) = some (comment ++ ['*', '/'], rest) := by
  induction comment with
  | nil => rfl
  | cons first others inductionHypothesis =>
      have further : ¬ ['*', '/'] <:+: others ++ ['*'] :=
        fun closed => unclosed (closed.trans (List.suffix_cons first _).isInfix)
      rw [List.cons_append, scanBlockComment]
      · simp [inductionHypothesis further]
      · rintro tail rfl behind
        apply unclosed
        cases others with
        | nil => simp at behind
        | cons next more =>
            obtain ⟨rfl, -⟩ := List.cons.inj behind
            exact (List.prefix_append ['*', '/'] (more ++ ['*'])).isInfix

/-- What is scanned of a comment ends with the first closing mark. -/
theorem exists_of_scanBlockComment {input scanned rest : List Char}
    (found : scanBlockComment input = some (scanned, rest)) :
    ∃ comment, scanned = comment ++ ['*', '/'] ∧ ¬ ['*', '/'] <:+: comment ++ ['*'] := by
  fun_induction scanBlockComment input generalizing scanned rest with
  | case1 => cases found
  | case2 tail =>
      obtain ⟨rfl, rfl⟩ := Prod.mk.inj (Option.some.inj found)
      exact ⟨[], rfl, by simp [List.infix_cons_iff]⟩
  | case3 character tail notMark inductionHypothesis =>
      obtain ⟨⟨inner, remaining⟩, more, equal⟩ := Option.map_eq_some_iff.mp found
      obtain ⟨rfl, rfl⟩ := Prod.mk.inj equal
      obtain ⟨comment, rfl, unclosed⟩ := inductionHypothesis more
      refine ⟨character :: comment, rfl, ?_⟩
      have input := scanBlockComment_eq_some more
      rw [List.cons_append, List.infix_cons_iff]
      rintro (begins | further)
      · cases comment with
        | nil => simp at begins
        | cons next others =>
            simp at begins
            obtain ⟨rfl, rfl⟩ := begins
            exact notMark _ rfl input
      · exact unclosed further

/-- A lexeme with the right content and rest has the right text. -/
theorem cutOff_of_rest {first : Char} {more text rest : List Char} {content : Option TokenContent}
    {lexeme : Lexeme (first :: more)} (input : first :: more = text ++ rest)
    (found : nextLexeme first more = .ok lexeme) (behind : lexeme.rest = rest)
    (means : lexeme.content = content) : CutOff text rest content := by
  refine ⟨first, more, lexeme, found, ?_, behind, means⟩
  have whole := lexeme.text_append_rest.trans input
  rwa [behind, List.append_cancel_right_eq] at whole

theorem cutOff_word {word rest : List Char} (isWord : IsWord word) (boundary : Boundary rest) :
    CutOff word rest (some (wordContent word)) := by
  obtain ⟨first, more, rfl, start, within⟩ := isWord
  refine cutOff_of_rest rfl (nextLexeme_of_isWordStart _ start) ?_ ?_
  · simp [Lexeme.run, dropWhile_append_of_stop within boundary]
  · simp [Lexeme.run, takeWhile_append_of_stop within boundary]

theorem cutOff_number {digits rest : List Char} (nonempty : digits ≠ [])
    (within : ∀ digit ∈ digits, digit.isDigit = true)
    (stop : ∀ next ∈ rest.head?, next.isDigit = false) :
    CutOff digits rest (some (.number, String.ofList digits)) := by
  obtain ⟨first, more, rfl⟩ := List.exists_cons_of_ne_nil nonempty
  rw [List.forall_mem_cons] at within
  refine cutOff_of_rest rfl (nextLexeme_of_isDigit _ within.1) ?_ ?_
  · simp [Lexeme.run, dropWhile_append_of_stop within.2 stop]
  · simp [Lexeme.run, takeWhile_append_of_stop within.2 stop]

theorem cutOff_lineComment {comment rest : List Char} (oneLine : '\n' ∉ comment)
    (stop : ∀ next ∈ rest.head?, next = '\n') : CutOff ('/' :: '/' :: comment) rest none := by
  have within : ∀ character ∈ comment, (character != '\n') = true := by
    intro character member
    rw [bne_iff_ne]
    rintro rfl
    exact oneLine member
  have ends : ∀ next ∈ rest.head?, (next != '\n') = false := by simpa using stop
  have found : nextLexeme '/' ('/' :: (comment ++ rest)) =
      .ok (Lexeme.run (fun character => character != '\n') (fun _ => none) _ _) := by
    simp [nextLexeme, show Text.isBlank '/' = false by decide, show isWordStart '/' = false by decide]
  refine cutOff_of_rest rfl found ?_ rfl
  simp [Lexeme.run, dropWhile_append_of_stop within ends]

theorem cutOff_blockComment {comment : List Char} (unclosed : ¬ ['*', '/'] <:+: comment ++ ['*'])
    (rest : List Char) : CutOff ('/' :: '*' :: comment ++ ['*', '/']) rest none := by
  have scanned := scanBlockComment_append unclosed rest
  have found : ∃ lexeme : Lexeme ('/' :: '*' :: (comment ++ '*' :: '/' :: rest)),
      nextLexeme '/' ('*' :: (comment ++ '*' :: '/' :: rest)) = .ok lexeme ∧
        lexeme.rest = rest ∧ lexeme.content = none := by
    simp only [nextLexeme, show Text.isBlank '/' = false by decide,
      show isWordStart '/' = false by decide, show '/'.isDigit = false by decide,
      Bool.false_eq_true, if_false]
    split
    · next missing => simp [scanned] at missing
    · next closed behind found =>
        obtain ⟨-, rfl⟩ := Prod.mk.inj (Option.some.inj (scanned.symm.trans found))
        exact ⟨_, rfl, rfl, rfl⟩
  obtain ⟨lexeme, next, behind, means⟩ := found
  exact cutOff_of_rest (by simp) next behind means

theorem cutOff_string {body value : List Char} (denotes : StringLiteral.Denotes body value)
    (rest : List Char) : CutOff ('"' :: body ++ ['"']) rest (some (.string, String.ofList value)) := by
  obtain ⟨scanned, decoded⟩ := (StringLiteral.denotes_iff rest).mp denotes
  obtain ⟨lexeme, found, means, behind⟩ := nextLexeme_of_scanBody rfl scanned decoded
  exact cutOff_of_rest (by simp) found behind means

theorem cutOff_sign {spelling : String} {kind : TokenKind}
    (sign : (spelling, kind) ∈ TokenKind.signs) {rest : List Char}
    (apart : ∀ next ∈ rest.head?, (spelling, next) ∉ extendedSigns) :
    CutOff spelling.toList rest (some (kind, spelling)) := by
  obtain ⟨first, more, lexeme, input, found, means, behind⟩ := exists_nextLexeme_of_sign sign apart
  exact cutOff_of_rest input.symm found behind means

/-- What the grammar allows in front of a rest is blank or cut off there. -/
theorem blank_or_cutOff_of_lexical {text rest : List Char} {content : Option TokenContent}
    (lexical : Lexical text rest content) :
    (text ≠ [] ∧ (∀ character ∈ text, Text.isBlank character = true) ∧ content = none) ∨
      CutOff text rest content := by
  cases lexical with
  | blanks nonempty blank => exact .inl ⟨nonempty, blank, rfl⟩
  | lineComment oneLine stop => exact .inr (cutOff_lineComment oneLine stop)
  | blockComment unclosed => exact .inr (cutOff_blockComment unclosed rest)
  | identifier identifier boundary =>
      have cut := cutOff_word identifier.1 boundary
      exact .inr (by simpa [wordContent, identifier.2] using cut)
  | reserved reserved boundary =>
      have cut := cutOff_word (isWord_of_mem_reservedWords reserved) boundary
      exact .inr (by simpa [wordContent, ofReservedWord?_of_mem reserved] using cut)
  | number nonempty within stop => exact .inr (cutOff_number nonempty within stop)
  | string denotes => exact .inr (cutOff_string denotes rest)
  | sign sign apart => exact .inr (cutOff_sign sign apart)

theorem Lexical.text_ne_nil {text rest : List Char} {content : Option TokenContent}
    (lexical : Lexical text rest content) : text ≠ [] := by
  rcases blank_or_cutOff_of_lexical lexical with ⟨nonempty, -, -⟩ | ⟨_, _, lexeme, -, rfl, -, -⟩
  · exact nonempty
  · exact lexeme.text_ne_nil

theorem stop_of_dropWhile {test : Char → Bool} {input : List Char} :
    ∀ next ∈ (input.dropWhile test).head?, test next = false := by
  intro next head
  have stops := List.head?_dropWhile_not test input
  rw [Option.mem_def.mp head] at stops
  exact stops

theorem lexical_wordContent {word rest : List Char} (isWord : IsWord word) (boundary : Boundary rest) :
    Lexical word rest (some (wordContent word)) := by
  cases found : TokenKind.ofReservedWord? (String.ofList word) with
  | none =>
      have identifier : IsIdentifier (String.ofList word) := ⟨by rwa [String.toList_ofList], found⟩
      simpa [wordContent, found] using Lexical.identifier identifier boundary
  | some kind =>
      obtain ⟨⟨written, _⟩, first, rfl⟩ := Option.map_eq_some_iff.mp found
      obtain rfl : written = String.ofList word := by simpa using List.find?_some first
      simpa [wordContent, found] using
        Lexical.reserved (List.mem_of_find?_eq_some first) boundary

theorem lexical_scanSign {input : List Char} {kind : TokenKind} {spelling : String}
    (scanned : scanSign input = some (kind, spelling))
    (noComment : ∀ next behind, input = '/' :: next :: behind → next ≠ '/' ∧ next ≠ '*') :
    Lexical spelling.toList (input.drop spelling.toList.length) (some (kind, spelling)) := by
  obtain ⟨⟨written, found⟩, first, equal⟩ := Option.map_eq_some_iff.mp scanned
  obtain ⟨rfl, rfl⟩ := Prod.mk.inj equal
  refine .sign (List.mem_of_find?_eq_some first) fun next head longer => ?_
  have input := (scanSign_eq_some scanned).1
  obtain ⟨behind, drop⟩ := List.head?_eq_some_iff.mp (Option.mem_def.mp head)
  rw [drop] at input
  subst input
  simp only [extendedSigns, List.mem_cons, Prod.mk.injEq, List.not_mem_nil, or_false] at longer
  rcases longer with ⟨rfl, rfl⟩ | ⟨rfl, rfl⟩ | ⟨rfl, rfl⟩ | ⟨rfl, rfl⟩ | ⟨rfl, rfl⟩
  · simp [scanSign, TokenKind.signs, List.isPrefixOf] at scanned
  · simp [scanSign, TokenKind.signs, List.isPrefixOf] at scanned
  · simp [scanSign, TokenKind.signs, List.isPrefixOf] at scanned
  · exact (noComment '/' behind (by simp)).1 rfl
  · exact (noComment '*' behind (by simp)).2 rfl

/-- Whatever is cut off is a lexeme of its content in front of the rest. -/
theorem lexical_of_nextLexeme {first : Char} {more : List Char} {lexeme : Lexeme (first :: more)}
    (found : nextLexeme first more = .ok lexeme) : Lexical lexeme.text lexeme.rest lexeme.content := by
  unfold nextLexeme at found
  split at found
  · next blank =>
      cases found
      refine .blanks (by simp [Lexeme.run]) ?_
      rw [Lexeme.run, List.forall_mem_cons]
      exact ⟨blank, List.all_eq_true.mp List.all_takeWhile⟩
  · split at found
    · next start =>
        cases found
        exact lexical_wordContent ⟨first, _, rfl, start, List.all_eq_true.mp List.all_takeWhile⟩
          stop_of_dropWhile
    · split at found
      · next digit =>
          cases found
          refine .number (List.cons_ne_nil _ _) ?_ stop_of_dropWhile
          rw [Lexeme.run, List.forall_mem_cons]
          exact ⟨digit, List.all_eq_true.mp List.all_takeWhile⟩
      · split at found
        · next tail _ _ _ =>
            cases found
            have oneLine : '\n' ∉ tail.takeWhile fun character => character != '\n' := by
              intro member
              simpa using List.all_eq_true.mp List.all_takeWhile _ member
            have stop : ∀ next ∈ (tail.dropWhile fun character => character != '\n').head?,
                next = '\n' := by
              intro next head
              simpa using stop_of_dropWhile next head
            exact .lineComment oneLine stop
        · split at found
          · cases found
          · next scanned =>
              cases found
              obtain ⟨comment, rfl, unclosed⟩ := exists_of_scanBlockComment scanned
              exact .blockComment unclosed
        · split at found
          · cases found
          · next scanned =>
              split at found
              · cases found
              · next decoded =>
                  cases found
                  have input := StringLiteral.scanBody_eq_some scanned
                  rw [input] at scanned
                  exact .string ((StringLiteral.denotes_iff _).mpr ⟨scanned, decoded⟩)
        · next notQuote noLine noBlock =>
            split at found
            · cases found
            · next kind spelling scanned =>
                cases found
                refine lexical_scanSign scanned fun next behind same => ?_
                obtain ⟨isSlash, rfl⟩ := List.cons.inj same
                constructor
                · rintro rfl
                  exact noLine _ isSlash rfl
                · rintro rfl
                  exact noBlock _ isSlash rfl

/-! ## Tokens lexeme by lexeme -/

/-- The token of a content at a span. -/
def Token.ofContent (span : Span) (content : TokenContent) : Token :=
  ⟨content.1, content.2, span⟩

theorem tokensFrom_of_nextLexeme {first : Char} {more : List Char} {lexeme : Lexeme (first :: more)}
    (found : nextLexeme first more = .ok lexeme) (position : Position) :
    tokensFrom position (first :: more) =
      (tokensFrom (position.after lexeme.text) lexeme.rest).map fun tokens =>
        (lexeme.content.map (.ofContent ⟨position, position.after lexeme.text⟩)).toList ++ tokens := by
  rw [tokensFrom]
  simp only [found]
  cases tokensFrom (position.after lexeme.text) lexeme.rest with
  | error fault => rfl
  | ok tokens => cases lexeme.content <;> rfl

theorem tokensFrom_dropWhile_isBlank (position : Position) (input : List Char) :
    tokensFrom (position.after (input.takeWhile Text.isBlank)) (input.dropWhile Text.isBlank) =
      tokensFrom position input := by
  cases input with
  | nil => rfl
  | cons first rest =>
      cases blank : Text.isBlank first with
      | false => simp [blank]
      | true =>
          rw [tokensFrom_of_nextLexeme (nextLexeme_of_isBlank rest blank),
            List.takeWhile_cons_of_pos blank, List.dropWhile_cons_of_pos blank]
          simp only [Lexeme.run, Option.map_none, Option.toList_none, List.nil_append]
          cases tokensFrom _ (rest.dropWhile Text.isBlank) <;> rfl

/-- Blanks only move on, however many of them are taken at once. -/
theorem tokensFrom_append_of_blank {text : List Char}
    (blank : ∀ character ∈ text, Text.isBlank character = true) (position : Position)
    (rest : List Char) :
    tokensFrom position (text ++ rest) = tokensFrom (position.after text) rest := by
  let further := rest.takeWhile Text.isBlank
  calc
    tokensFrom position (text ++ rest) =
        tokensFrom (position.after (text ++ further)) (rest.dropWhile Text.isBlank) := by
      rw [← tokensFrom_dropWhile_isBlank position, List.takeWhile_append_of_pos blank,
        List.dropWhile_append_of_pos blank]
    _ = tokensFrom ((position.after text).after further) (rest.dropWhile Text.isBlank) := by
      rw [Position.after_append]
    _ = tokensFrom (position.after text) rest := tokensFrom_dropWhile_isBlank _ rest

/-- A lexeme in front of a text puts its token, if it is one, in front of the
tokens of that text. -/
theorem tokensFrom_of_lexical {text rest : List Char} {content : Option TokenContent}
    (lexical : Lexical text rest content) (position : Position) :
    tokensFrom position (text ++ rest) =
      (tokensFrom (position.after text) rest).map fun tokens =>
        (content.map (.ofContent ⟨position, position.after text⟩)).toList ++ tokens := by
  rcases blank_or_cutOff_of_lexical lexical with
    ⟨-, blank, rfl⟩ | ⟨first, more, lexeme, found, rfl, rfl, rfl⟩
  · rw [tokensFrom_append_of_blank blank]
    cases tokensFrom (position.after text) rest <;> rfl
  · rw [lexeme.text_append_rest, tokensFrom_of_nextLexeme found]

/-- The contents of a text are those of its first lexeme and of what follows
it. -/
theorem contents?_of_lexical {text rest : List Char} {content : Option TokenContent}
    (lexical : Lexical text rest content) :
    contents? (text ++ rest) = (contents? rest).map (content.toList ++ ·) := by
  have elsewhere := tokensFrom_contents (Position.nowhere.after text) .nowhere rest
  rw [contents?, contents?, ← elsewhere, tokensFrom_of_lexical lexical]
  cases tokensFrom (Position.nowhere.after text) rest with
  | error fault => rfl
  | ok tokens => cases content <;> rfl

/-- A text that begins at a position consists of lexemes, and these are their
tokens with the end of input behind them. -/
inductive Cuts : Position → List Char → List Token → Prop
  | finish {position : Position} : Cuts position [] [.endOfInput position]
  | lexeme {position : Position} {text rest : List Char} {content : Option TokenContent}
      {tokens : List Token} : Lexical text rest content →
      Cuts (position.after text) rest tokens →
      Cuts position (text ++ rest)
        ((content.map (.ofContent ⟨position, position.after text⟩)).toList ++ tokens)

theorem Cuts.tokensFrom_eq {position : Position} {text : List Char} {tokens : List Token}
    (cuts : Cuts position text tokens) : tokensFrom position text = .ok tokens := by
  induction cuts with
  | finish => rw [tokensFrom]
  | lexeme lexical _ inductionHypothesis =>
      rw [tokensFrom_of_lexical lexical, inductionHypothesis]
      rfl

theorem cuts_of_tokensFrom {position : Position} {text : List Char} {tokens : List Token}
    (read : tokensFrom position text = .ok tokens) : Cuts position text tokens := by
  fun_induction tokensFrom position text generalizing tokens with
  | case1 position =>
      cases read
      exact .finish
  | case2 | case3 => cases read
  | case4 position first rest lexeme found behind others follow without =>
      rename_i inductionHypothesis
      cases read
      have cuts := Cuts.lexeme (lexical_of_nextLexeme found) (inductionHypothesis follow)
      rwa [lexeme.text_append_rest, without] at cuts
  | case5 position first rest lexeme found behind others follow kind value content =>
      rename_i inductionHypothesis
      cases read
      have cuts := Cuts.lexeme (lexical_of_nextLexeme found) (inductionHypothesis follow)
      rwa [lexeme.text_append_rest, content] at cuts

/-- A text has these tokens if and only if it consists of lexemes that have
them. -/
theorem tokensFrom_eq_ok_iff {position : Position} {text : List Char} {tokens : List Token} :
    tokensFrom position text = .ok tokens ↔ Cuts position text tokens :=
  ⟨cuts_of_tokensFrom, Cuts.tokensFrom_eq⟩

/-!
## Spelling tokens out

Every sequence of tokens that the language has can be written down so that it
is read back: with a blank between every two tokens, string values as literals
and everything else as it is.
-/

namespace TokenContent

/-- The kinds of tokens with the values that they can have, the end of input
apart. -/
inductive WellFormed : TokenContent → Prop
  | identifier {name : String} : IsIdentifier name → WellFormed (.identifier, name)
  | number {digits : String} : digits ≠ "" → (∀ digit ∈ digits.toList, digit.isDigit = true) →
      WellFormed (.number, digits)
  | string {value : String} : WellFormed (.string, value)
  | reserved {word : String} {kind : TokenKind} : (word, kind) ∈ TokenKind.reservedWords →
      WellFormed (kind, word)
  | sign {spelling : String} {kind : TokenKind} : (spelling, kind) ∈ TokenKind.signs →
      WellFormed (kind, spelling)

/-- How a token is written: the value of a string as a literal, and every other
value as it is. -/
def spelling (content : TokenContent) : String :=
  if content.1 = .string then StringLiteral.encode content.2 else content.2

end TokenContent

/-- A written text denotes itself. -/
theorem StringLiteral.denotes_flatMap_encodeCharacter (text : List Char) :
    Denotes (text.flatMap encodeCharacter) text :=
  (denotes_iff []).mpr
    ⟨scanBody_flatMap_encodeCharacter text [], decode_flatMap_encodeCharacter text⟩

/-- In front of a blank or at the end, a spelling is a lexeme of its token. -/
theorem lexical_spelling {content : TokenContent} (wellFormed : content.WellFormed)
    (rest : List Char) (blank : ∀ next ∈ rest.head?, next = ' ') :
    Lexical content.spelling.toList rest (some content) := by
  have stop {test : Char → Bool} (space : test ' ' = false) :
      ∀ next ∈ rest.head?, test next = false :=
    fun next head => blank next head ▸ space
  cases wellFormed with
  | identifier identifier => exact .identifier identifier (stop (by decide))
  | @number digits nonempty within =>
      have lexical := Lexical.number (by simpa using nonempty) within (stop (by decide))
      rwa [String.ofList_toList] at lexical
  | @string value =>
      have denotes := StringLiteral.denotes_flatMap_encodeCharacter value.toList
      have lexical : Lexical _ rest _ := .string denotes
      rw [String.ofList_toList] at lexical
      simpa [TokenContent.spelling, StringLiteral.encode] using lexical
  | @reserved word kind reserved =>
      have noString : ∀ entry ∈ TokenKind.reservedWords, entry.2 ≠ .string := by decide
      rw [TokenContent.spelling, if_neg (noString _ reserved)]
      exact .reserved reserved (stop (by decide))
  | @sign spelling kind sign =>
      have noString : ∀ entry ∈ TokenKind.signs, entry.2 ≠ .string := by decide
      rw [TokenContent.spelling, if_neg (noString _ sign)]
      refine .sign sign fun next head => ?_
      simp [blank next head, extendedSigns]

/-- Contents that are spelled out with a blank between every two of them are
read back. -/
theorem contents?_spelledOut {contents : List TokenContent}
    (wellFormed : ∀ content ∈ contents, content.WellFormed) :
    contents? (" ".intercalate (contents.map TokenContent.spelling)).toList =
      some (contents ++ [(.eof, "EOF")]) := by
  induction contents with
  | nil => exact contents?_nil
  | cons first others inductionHypothesis =>
      rw [List.forall_mem_cons] at wellFormed
      have behind := inductionHypothesis wellFormed.2
      cases others with
      | nil =>
          have lexical := lexical_spelling wellFormed.1 [] (by simp)
          simpa using contents?_of_lexical lexical
      | cons second more =>
          have lexical := lexical_spelling wellFormed.1
            (' ' :: (" ".intercalate ((second :: more).map TokenContent.spelling)).toList)
            (by simp)
          have both := contents?_of_lexical lexical
          rw [contents?_space, behind] at both
          simpa using both

/-- Tokenizing what well-formed tokens are spelled out to succeeds, and it gives
back their kinds and values with the end of input behind them. -/
theorem tokenize_spelledOut {contents : List TokenContent}
    (wellFormed : ∀ content ∈ contents, content.WellFormed) (file : String) :
    ∃ tokens, tokenize file (" ".intercalate (contents.map TokenContent.spelling)) = .ok tokens ∧
      tokens.map Token.content = contents ++ [(.eof, "EOF")] :=
  exists_tokenize_of_contents? (contents?_spelledOut wellFormed) file

/-- Signs that begin like others, a word that begins like another, a kind with
two spellings and a text that looks like an escape and a comment. -/
def lookalikes : List TokenContent :=
  [(.identifier, "orange"), (.or, "or"), (.or, "||"), (.equals, "=="), (.assignment, "="),
    (.slash, "/"), (.star, "*"), (.number, "007"), (.string, "\\x41 \" //\n")]

/-- Spelled out with blanks between them, they are told apart. -/
theorem tokenize_spelledOut_lookalikes :
    (∀ content ∈ lookalikes, content.WellFormed) ∧
      ∃ tokens, tokenize "some.knight"
          "orange or || == = / * 007 \"\\\\x41 \\\" //\\n\"" = .ok tokens ∧
        tokens.map Token.content = lookalikes ++ [(.eof, "EOF")] := by
  have wellFormed : ∀ content ∈ lookalikes, content.WellFormed := by
    have orange : IsIdentifier "orange" :=
      ⟨⟨'o', "range".toList, rfl, by decide, List.all_eq_true.mp (by decide)⟩, by decide⟩
    simp only [lookalikes, List.forall_mem_cons]
    exact ⟨.identifier orange, .reserved (by decide), .sign (by decide), .sign (by decide),
      .sign (by decide), .sign (by decide), .sign (by decide),
      .number (by decide) (List.all_eq_true.mp (by decide)), .string, by simp⟩
  have text : " ".intercalate (lookalikes.map TokenContent.spelling) =
      "orange or || == = / * 007 \"\\\\x41 \\\" //\\n\"" := by
    decide +kernel
  exact ⟨wellFormed, text ▸ tokenize_spelledOut wellFormed "some.knight"⟩

end KnightFront
