import KnightFront.SyntaxFault
import KnightFront.Text.Blank
import KnightFront.Token.StringLiteral

namespace KnightFront

/-!
# From source text to tokens

Source text is cut into lexemes from left to right.  A lexeme is a token or
text between tokens: blank characters, a comment to the end of the line, or a
block comment, which ends at the first closing mark and does not nest.  Each
lexeme carries the proof that it is a nonempty beginning of the text, so the
lexemes of a file together are the file, and the cutting ends.

Words and numbers are ASCII.  A word runs as far as letters, digits and
underscores do, and it is an identifier unless it is reserved.
-/

/-- A nonempty beginning of some text, with the token it makes up, if any. -/
structure Lexeme (input : List Char) where
  content : Option (TokenKind × String)
  text : List Char
  rest : List Char
  text_append_rest : text ++ rest = input
  text_ne_nil : text ≠ []

namespace Lexeme

theorem rest_length_lt {input : List Char} (lexeme : Lexeme input) :
    lexeme.rest.length < input.length := by
  have positive : 0 < lexeme.text.length := List.length_pos_iff.mpr lexeme.text_ne_nil
  have total : lexeme.text.length + lexeme.rest.length = input.length := by
    rw [← List.length_append, lexeme.text_append_rest]
  omega

/-- The first character and the longest run behind it that satisfies a test.
The content is a function of the text so found. -/
def run (test : Char → Bool) (content : List Char → Option (TokenKind × String))
    (first : Char) (input : List Char) : Lexeme (first :: input) where
  content := content (first :: input.takeWhile test)
  text := first :: input.takeWhile test
  rest := input.dropWhile test
  text_append_rest := by simp
  text_ne_nil := by simp

end Lexeme

/-- Whether a character can begin a word. -/
def isWordStart (character : Char) : Bool :=
  character.isAlpha || character == '_'

/-- Whether a character can continue a word. -/
def isWordPart (character : Char) : Bool :=
  character.isAlphanum || character == '_'

/-- Split behind the opening mark of a block comment: the text up to and
including the first closing mark, and what follows.  There is no result when
the comment is not closed. -/
def scanBlockComment : List Char → Option (List Char × List Char)
  | [] => none
  | '*' :: '/' :: rest => some (['*', '/'], rest)
  | character :: rest => (scanBlockComment rest).map fun found => (character :: found.1, found.2)

/-- A scanned comment and the rest make up the input. -/
theorem scanBlockComment_eq_some {input body rest : List Char}
    (scanned : scanBlockComment input = some (body, rest)) : input = body ++ rest := by
  fun_induction scanBlockComment input generalizing body rest with
  | case1 => simp at scanned
  | case2 tail =>
      simp only [Option.some.injEq, Prod.mk.injEq] at scanned
      obtain ⟨rfl, rfl⟩ := scanned
      rfl
  | case3 character tail _ inductionHypothesis =>
      obtain ⟨⟨inner, remaining⟩, found, equal⟩ := Option.map_eq_some_iff.mp scanned
      simp only [Prod.mk.injEq] at equal
      obtain ⟨rfl, rfl⟩ := equal
      simp [inductionHypothesis found]

/-- The kind and value of a word. -/
def wordContent (text : List Char) : TokenKind × String :=
  let word := String.ofList text
  ((TokenKind.ofReservedWord? word).getD .identifier, word)

/-- The first sign, in the order of trial, that begins the text. -/
def scanSign (input : List Char) : Option (TokenKind × String) :=
  (TokenKind.signs.find? fun sign => sign.1.toList.isPrefixOf input).map fun sign => (sign.2, sign.1)

/-- A scanned sign is nonempty and begins the input. -/
theorem scanSign_eq_some {input : List Char} {kind : TokenKind} {spelling : String}
    (scanned : scanSign input = some (kind, spelling)) :
    spelling.toList ++ input.drop spelling.toList.length = input ∧ spelling.toList ≠ [] := by
  obtain ⟨⟨written, found⟩, first, equal⟩ := Option.map_eq_some_iff.mp scanned
  simp only [Prod.mk.injEq] at equal
  obtain ⟨-, rfl⟩ := equal
  constructor
  · have matched : written.toList.isPrefixOf input = true := by simpa using List.find?_some first
    have begins := List.isPrefixOf_iff_prefix.mp matched
    exact List.prefix_iff_eq_append.mp begins
  · have nonempty : ∀ sign ∈ TokenKind.signs, sign.1.toList ≠ [] := by decide
    exact nonempty _ (List.mem_of_find?_eq_some first)

/-- The lexeme at the beginning of a nonempty text, or the reason why no
lexeme begins there.  Comments are recognised before the signs that begin
like them. -/
def nextLexeme (first : Char) (rest : List Char) :
    Except SyntaxFault.Cause (Lexeme (first :: rest)) :=
  if Text.isBlank first then .ok (Lexeme.run Text.isBlank (fun _ => none) first rest)
  else if isWordStart first then
    .ok (Lexeme.run isWordPart (fun text => some (wordContent text)) first rest)
  else if first.isDigit then
    .ok (Lexeme.run Char.isDigit (fun text => some (.number, String.ofList text)) first rest)
  else
    match first, rest with
    | '/', '/' :: _ => .ok (Lexeme.run (fun character => character != '\n') (fun _ => none) _ _)
    | '/', '*' :: body =>
        match scanned : scanBlockComment body with
        | none => .error .unterminatedComment
        | some (comment, behind) =>
            .ok ⟨none, '/' :: '*' :: comment, behind,
              by simp [scanBlockComment_eq_some scanned], by simp⟩
    | '"', literal =>
        match scanned : StringLiteral.scanBody literal with
        | none => .error (.unrecognisedToken "\"")
        | some (body, behind) =>
            match StringLiteral.decode body with
            | none => .error (.unrecognisedToken "\\x")
            | some value =>
                .ok ⟨some (.string, String.ofList value), '"' :: body ++ ['"'], behind,
                  by simp [StringLiteral.scanBody_eq_some scanned], by simp⟩
    | other, behind =>
        match scanned : scanSign (other :: behind) with
        | none => .error (.unrecognisedToken (String.singleton other))
        | some (kind, spelling) =>
            .ok ⟨some (kind, spelling), spelling.toList,
              (other :: behind).drop spelling.toList.length,
              (scanSign_eq_some scanned).1, (scanSign_eq_some scanned).2⟩

/-- The tokens of a text that begins at a position, closed by the end of
input.  The first lexeme that cannot be cut off is a fault where it begins. -/
def tokensFrom (position : Position) : List Char → Except SyntaxFault (List Token)
  | [] => .ok [.endOfInput position]
  | first :: rest =>
      match nextLexeme first rest with
      | .error cause => .error ⟨cause, position⟩
      | .ok lexeme =>
          let behind := position.after lexeme.text
          match tokensFrom behind lexeme.rest with
          | .error fault => .error fault
          | .ok tokens =>
              match lexeme.content with
              | none => .ok tokens
              | some (kind, value) => .ok (⟨kind, value, ⟨position, behind⟩⟩ :: tokens)
termination_by input => input.length
decreasing_by exact lexeme.rest_length_lt

/-- The tokens of a source file. -/
def tokenize (file source : String) : Except SyntaxFault (List Token) :=
  tokensFrom (.start file) source.toList

end KnightFront
