import KnightFront.Text.Quoted
import KnightFront.Token.Basic

namespace KnightFront

/-!
# Syntax faults

Reading a file stops at its first fault: text that is no token, or a token
that cannot continue the program.  A fault is a cause at a position.  Its
name, its text and its tip are functions of the cause.
-/

/-- Why a file cannot be read. -/
inductive SyntaxFault.Cause where
  /-- No token begins with this text. -/
  | unrecognisedToken (token : String)
  /-- A block comment runs to the end of the file. -/
  | unterminatedComment
  /-- One kind of token was found where another must stand. -/
  | unexpectedToken (found : TokenKind) (value : String) (expected : TokenKind)
  /-- A token was found where none of several forms can begin. -/
  | misplacedToken (found : TokenKind) (value : String) (requirement : String)
  /-- A number does not fit into a signed word of 64 bits. -/
  | numberTooLarge (token : String)
deriving DecidableEq, Repr, Inhabited

/-- The first fault of a file. -/
structure SyntaxFault where
  cause : SyntaxFault.Cause
  position : Position
deriving DecidableEq, Repr, Inhabited

namespace SyntaxFault

namespace Cause

/-- The name under which reports head a fault. -/
def name : Cause → String
  | unrecognisedToken _ => "UnrecognisedToken"
  | unterminatedComment => "UnterminatedComment"
  | unexpectedToken .. => "UnexpectedToken"
  | misplacedToken .. => "UnexpectedTokenDetailed"
  | numberTooLarge _ => "NumberParseError"

private def foundText (found : TokenKind) (value : String) : String :=
  "unexpected token " ++ found.name ++ " (" ++ Text.quoted value ++ ")"

/-- The text of a fault, with token values quoted. -/
def message : Cause → String
  | unrecognisedToken token => "unrecognised token: " ++ Text.quoted token
  | unterminatedComment => "unterminated block comment"
  | unexpectedToken found value expected =>
      foundText found value ++ ", expected " ++ expected.name
  | misplacedToken found value requirement => foundText found value ++ ": " ++ requirement
  | numberTooLarge token => "error parsing number: " ++ Text.quoted token

/-- Advice on a fault, with token values as they are.  A missing semicolon
has advice of its own, and text that is no token has none. -/
def tip? : Cause → Option String
  | unrecognisedToken _ => none
  | unterminatedComment => some "Block comment is missing its closing `*/`"
  | unexpectedToken found value expected =>
      if expected = .semicolon then
        some ("Unexpected token: `" ++ found.name ++ "`, did you miss a semicolon?")
      else some ("Invalid token `" ++ value ++ "`, expected " ++ expected.name)
  | misplacedToken _ value requirement =>
      some ("Unexpected token: `" ++ value ++ "`, " ++ requirement)
  | numberTooLarge token =>
      some ("Invalid number: `" ++ token ++ "`, is it above the integer limit?")

end Cause

/-- The one-line form, with the position in front. -/
def describe (fault : SyntaxFault) : String :=
  fault.position.describe ++ ": error: " ++ fault.cause.message

end SyntaxFault

end KnightFront
