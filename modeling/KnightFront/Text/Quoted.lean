import KnightFront.Text.Printable
import KnightFront.Text.Extending

namespace KnightFront
namespace Text

/-!
# Quoted values in messages

An error message shows a token's value between double quotes.  Every value
has a visible form there: line ends, tabs and the null character are named,
the quotation mark and the backslash are escaped, and whatever would not show
as itself is given by its code point in hexadecimal.
-/

/-- A code point in braces, in lower-case hexadecimal without leading zeros. -/
def codePointEscape (character : Char) : List Char :=
  "\\u\x7b".toList ++ Nat.toDigits 16 character.toNat ++ ['\x7d']

/-- The visible form of one character.  The apostrophe stands as itself. -/
def visibleForm (character : Char) : List Char :=
  match character with
  | '\x00' => ['\\', '0']
  | '\t' => ['\\', 't']
  | '\r' => ['\\', 'r']
  | '\n' => ['\\', 'n']
  | '"' => ['\\', '"']
  | '\\' => ['\\', '\\']
  | other =>
      if isPrintable other && !isExtending other then [other] else codePointEscape other

/-- A value between double quotes, each character in its visible form. -/
def quoted (value : String) : String :=
  String.ofList ('"' :: value.toList.flatMap visibleForm ++ ['"'])

end Text
end KnightFront
