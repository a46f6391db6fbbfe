namespace KnightFront

/-!
# Kinds of tokens

The kinds into which source text is split, the words that are reserved and
the signs.  Two spellings share the kind `or`, and two the kind `and`: the
sign and the word.
-/

/-- What a token is.  The reserved words follow the signs. -/
inductive TokenKind where
  | eof
  | number
  | string
  | identifier
  | openBracket
  | closeBracket
  | openCurly
  | closeCurly
  | openParen
  | closeParen
  | assignment
  | equals
  | notEquals
  | less
  | lessEquals
  | greater
  | greaterEquals
  | or
  | and
  | dot
  | semicolon
  | colon
  | comma
  | plus
  | dash
  | slash
  | star
  | percent
  | includeWord
  | enumWord
  | interfaceWord
  | classWord
  | extWord
  | useWord
  | fnWord
  | retWord
  | ifWord
  | elseWord
  | whileWord
  | forWord
  | newWord
  | trueWord
  | falseWord
  | intWord
  | stringWord
  | boolWord
  | voidWord
deriving DecidableEq, Repr, Inhabited

namespace TokenKind

/-- The name under which messages speak of a kind. -/
def name : TokenKind → String
  | eof => "EOF"
  | number => "Number"
  | string => "String"
  | identifier => "Identifier"
  | openBracket => "OpenBracket"
  | closeBracket => "CloseBracket"
  | openCurly => "OpenCurly"
  | closeCurly => "CloseCurly"
  | openParen => "OpenParen"
  | closeParen => "CloseParen"
  | assignment => "Assignment"
  | equals => "Equals"
  | notEquals => "NotEquals"
  | less => "Less"
  | lessEquals => "LessEquals"
  | greater => "Greater"
  | greaterEquals => "GreaterEquals"
  | or => "Or"
  | and => "And"
  | dot => "Dot"
  | semicolon => "Semicolon"
  | colon => "Colon"
  | comma => "Comma"
  | plus => "Plus"
  | dash => "Dash"
  | slash => "Slash"
  | star => "Star"
  | percent => "Percent"
  | includeWord => "Include"
  | enumWord => "Enum"
  | interfaceWord => "Interface"
  | classWord => "Class"
  | extWord => "Ext"
  | useWord => "Use"
  | fnWord => "Fn"
  | retWord => "Ret"
  | ifWord => "If"
  | elseWord => "Else"
  | whileWord => "While"
  | forWord => "For"
  | newWord => "New"
  | trueWord => "True"
  | falseWord => "False"
  | intWord => "IntType"
  | stringWord => "StringType"
  | boolWord => "BoolType"
  | voidWord => "VoidType"

/-- Every kind once, in the order of declaration. -/
def all : List TokenKind :=
  [eof, number, string, identifier, openBracket, closeBracket, openCurly, closeCurly,
    openParen, closeParen, assignment, equals, notEquals, less, lessEquals, greater,
    greaterEquals, or, and, dot, semicolon, colon, comma, plus, dash, slash, star, percent,
    includeWord, enumWord, interfaceWord, classWord, extWord, useWord, fnWord, retWord,
    ifWord, elseWord, whileWord, forWord, newWord, trueWord, falseWord, intWord, stringWord,
    boolWord, voidWord]

/-- The kind of a given name. -/
def ofName? (name : String) : Option TokenKind :=
  all.find? fun kind => kind.name == name

/-- The words that are no identifiers, with their kinds. -/
def reservedWords : List (String × TokenKind) :=
  [("include", includeWord), ("enum", enumWord), ("interface", interfaceWord),
    ("class", classWord), ("ext", extWord), ("use", useWord), ("fn", fnWord),
    ("ret", retWord), ("if", ifWord), ("else", elseWord), ("while", whileWord),
    ("for", forWord), ("new", newWord), ("true", trueWord), ("false", falseWord),
    ("int", intWord), ("string", stringWord), ("bool", boolWord), ("void", voidWord),
    ("and", and), ("or", or)]

/-- The kind of a reserved word. -/
def ofReservedWord? (word : String) : Option TokenKind :=
  (reservedWords.find? fun entry => entry.1 == word).map Prod.snd

/-- The signs in the order in which they are tried.  A longer sign stands
before every sign that begins it, so the first match is the longest one. -/
def signs : List (String × TokenKind) :=
  [("[", openBracket), ("]", closeBracket), ("\x7b", openCurly), ("\x7d", closeCurly),
    ("(", openParen), (")", closeParen), ("==", equals), ("!=", notEquals),
    ("=", assignment), ("<=", lessEquals), ("<", less), (">=", greaterEquals),
    (">", greater), ("||", or), ("&&", and), (".", dot), (";", semicolon), (":", colon),
    (",", comma), ("+", plus), ("-", dash), ("/", slash), ("*", star), ("%", percent)]

end TokenKind

end KnightFront
