import KnightFront.SyntaxFault
import KnightFront.Token.Stream
import KnightFront.Tree.Expr

namespace KnightFront

/-!
# Reading tokens

A cursor stands on a token of a stream.  It remembers where the last read
token ended, so that spans can be closed, and hands out the identities of
nodes.  A parser reads from a cursor and either moves it or fails.

Two forms of recursion are offered, `rounds` for repetition and `nesting` for
phrases inside phrases.  Both end because they go on only when tokens have
been read; going on without having read one is a defect of the parser, not a
fault of the text.  The grammar never meets a defect.
-/

/-- A place in a token stream. -/
structure Cursor where
  stream : TokenStream
  previousEnd : Position
  nextId : NodeId

namespace Cursor

/-- The first identity that is handed out.  Lower ones stay reserved. -/
def firstId : NodeId := 1024

/-- The cursor on the first token of a list. -/
def ofTokens (tokens : List Token) : Cursor :=
  let stream := TokenStream.ofTokens tokens
  ⟨stream, stream.current.span.start, firstId⟩

/-- The token under the cursor. -/
def current (cursor : Cursor) : Token := cursor.stream.current

/-- The kind of the token under the cursor. -/
def kind (cursor : Cursor) : TokenKind := cursor.current.kind

/-- The kind of the token behind the one under the cursor. -/
def nextKind (cursor : Cursor) : TokenKind := cursor.stream.tail.current.kind

/-- Whether the cursor is not yet at the end of input. -/
def hasTokens (cursor : Cursor) : Bool := decide (cursor.kind ≠ .eof)

/-- How many tokens stand before the end of input. -/
def remaining (cursor : Cursor) : Nat := cursor.stream.size

/-- The cursor behind its token. -/
def advance (cursor : Cursor) : Cursor :=
  { cursor with stream := cursor.stream.tail, previousEnd := cursor.current.span.finish }

theorem remaining_advance_lt {cursor : Cursor} (more : cursor.kind ≠ .eof) :
    cursor.advance.remaining < cursor.remaining :=
  TokenStream.size_tail_lt more

theorem remaining_advance_le (cursor : Cursor) : cursor.advance.remaining ≤ cursor.remaining :=
  cursor.stream.size_tail_le

end Cursor

/-- A state that the grammar rules out. -/
inductive ParserDefect where
  /-- A repetition or a nested phrase went on without a token having been read. -/
  | stalled
  /-- An operator was to be applied to more operands than there are. -/
  | missingOperand
  /-- An expression left no operand or more than one. -/
  | leftoverOperands
  /-- A class instance was made of something other than a name. -/
  | strayInstance
  /-- Behind a dot stands neither a call nor a name. -/
  | strayMember
  /-- The mark below a level of an expression was to be applied. -/
  | strayMark
deriving DecidableEq, Repr, Inhabited

/-- Why parsing stopped. -/
inductive ParseFailure where
  | fault (fault : SyntaxFault)
  | defect (defect : ParserDefect)
deriving DecidableEq, Repr, Inhabited

/-- A reader of a phrase. -/
abbrev Parser := StateT Cursor (Except ParseFailure)

namespace Parser

/-- Stop because of a defect. -/
def defective {α : Type} (defect : ParserDefect) : Parser α :=
  throw (.defect defect)

/-- Stop because of a fault at a position. -/
def faulty {α : Type} (cause : SyntaxFault.Cause) (position : Position) : Parser α :=
  throw (.fault ⟨cause, position⟩)

/-- The token under the cursor. -/
def currentToken : Parser Token := fun cursor => .ok (cursor.current, cursor)

/-- The kind of the token under the cursor. -/
def currentKind : Parser TokenKind := fun cursor => .ok (cursor.kind, cursor)

/-- The kind of the token behind the one under the cursor. -/
def nextKind : Parser TokenKind := fun cursor => .ok (cursor.nextKind, cursor)

/-- Where the token under the cursor begins. -/
def position : Parser Position := fun cursor => .ok (cursor.current.span.start, cursor)

/-- Read the token under the cursor. -/
def take : Parser Token := fun cursor => .ok (cursor.current, cursor.advance)

/-- An identity that no other node has. -/
def freshId : Parser NodeId := fun cursor =>
  .ok (cursor.nextId, { cursor with nextId := cursor.nextId + 1 })

/-- The span from a position to the end of the last token read. -/
def spanFrom (start : Position) : Parser Span := fun cursor =>
  .ok (⟨start, cursor.previousEnd⟩, cursor)

/-- Stop because the token under the cursor fits no form that may stand
here. -/
def misplaced {α : Type} (requirement : String) : Parser α := do
  let token ← currentToken
  faulty (.misplacedToken token.kind token.value requirement) token.span.start

/-- Read a token of one kind. -/
def expect (kind : TokenKind) : Parser Token := do
  let token ← currentToken
  if token.kind = kind then take
  else faulty (.unexpectedToken token.kind token.value kind) token.span.start

/-- Read a token of one kind, with a wording of its own for any other. -/
def expectOr (kind : TokenKind) (requirement : String) : Parser Token := do
  if (← currentKind) = kind then take else misplaced requirement

/-- What one round of a repetition decides. -/
inductive Round (σ α : Type) where
  | again (state : σ)
  | done (result : α)

/-- Repeat a round until it is done. -/
def rounds {σ α : Type} (round : σ → Parser (Round σ α)) (state : σ) : Parser α := fun cursor =>
  match round state cursor with
  | .error failure => .error failure
  | .ok (.done result, behind) => .ok (result, behind)
  | .ok (.again next, behind) =>
      if behind.remaining < cursor.remaining then rounds round next behind
      else .error (.defect .stalled)
termination_by cursor => cursor.remaining

/-- A phrase that may contain phrases of its own kind.  `level` reads one
phrase, given a reader for those inside it. -/
def nesting {α : Type} (level : Parser α → Parser α) : Parser α := fun cursor =>
  level
    (fun inner =>
      if inner.remaining < cursor.remaining then nesting level inner
      else .error (.defect .stalled))
    cursor
termination_by cursor => cursor.remaining

/-- One or more phrases with commas between them. -/
def commaSeparated {α : Type} (phrase : Parser α) : Parser (List α) :=
  rounds
    (fun collected => do
      let found ← phrase
      if (← currentKind) = .comma then
        let _ ← take
        return .again (found :: collected)
      else return .done (found :: collected).reverse)
    []

/-- Phrases with commas between them up to a closing token, which is not
read. -/
def listUpTo {α : Type} (close : TokenKind) (phrase : Parser α) : Parser (List α) := do
  if (← currentKind) = close then return [] else commaSeparated phrase

end Parser

end KnightFront
