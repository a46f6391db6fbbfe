import KnightFront.Source.Position
import KnightFront.Token.Kind

namespace KnightFront

/-!
# Tokens

A token is a kind, the text it stands for and its span.  The value of a
string literal is the text that it denotes; every other value is the token's
own spelling, and the end of input has the value `EOF`.
-/

/-- A piece of source text with its meaning to the parser. -/
structure Token where
  kind : TokenKind
  value : String
  span : Span
deriving DecidableEq, Repr, Inhabited

namespace Token

/-- The token that ends every token list, at a span without characters. -/
def endOfInput (position : Position) : Token := ⟨.eof, "EOF", .empty position⟩

/-- Kind and value, the value only where it is not fixed by the kind. -/
def describe (token : Token) : String :=
  match token.kind with
  | .string | .identifier | .number => token.kind.name ++ " (" ++ token.value ++ ")"
  | _ => token.kind.name

end Token

end KnightFront
