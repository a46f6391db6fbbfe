namespace KnightFront
namespace StringLiteral

/-!
# String literals

A string literal stands between double quotes.  `encode` writes a text as a
literal, `scanBody` finds where a literal ends and `decode` reads the text
between the quotes.  A line feed cannot stand inside a literal, not even
behind a backslash.
-/

/-- The value of a hexadecimal digit, in either case. -/
def hexDigit? (character : Char) : Option Nat :=
  if '0' ≤ character ∧ character ≤ '9' then some (character.toNat - '0'.toNat)
  else if 'a' ≤ character ∧ character ≤ 'f' then some (character.toNat - 'a'.toNat + 10)
  else if 'A' ≤ character ∧ character ≤ 'F' then some (character.toNat - 'A'.toNat + 10)
  else none

/-- Split behind an opening quote: the text up to the closing quote, and what
follows that quote.  A backslash takes the next character with it, so an
escaped quote does not close.  There is no result when a line feed or the end
comes first. -/
def scanBody : List Char → Option (List Char × List Char)
  | [] => none
  | '"' :: rest => some ([], rest)
  | '\n' :: _ => none
  | ['\\'] => none
  | '\\' :: escaped :: rest =>
      if escaped = '\n' then none
      else (scanBody rest).map fun found => ('\\' :: escaped :: found.1, found.2)
  | character :: rest => (scanBody rest).map fun found => (character :: found.1, found.2)

/-- A scanned body, its closing quote and the rest make up the input. -/
theorem scanBody_eq_some {input body rest : List Char} (scanned : scanBody input = some (body, rest)) :
    input = body ++ '"' :: rest := by
  fun_induction scanBody input generalizing body rest with
  | case1 => simp at scanned
  | case2 tail =>
      simp only [Option.some.injEq, Prod.mk.injEq] at scanned
      obtain ⟨rfl, rfl⟩ := scanned
      rfl
  | case3 => simp at scanned
  | case4 => simp at scanned
  | case5 => simp at scanned
  | case6 escaped tail _ inductionHypothesis =>
      obtain ⟨⟨inner, remaining⟩, found, equal⟩ := Option.map_eq_some_iff.mp scanned
      simp only [Prod.mk.injEq] at equal
      obtain ⟨rfl, rfl⟩ := equal
      simp [inductionHypothesis found]
  | case7 character tail _ _ _ _ inductionHypothesis =>
      obtain ⟨⟨inner, remaining⟩, found, equal⟩ := Option.map_eq_some_iff.mp scanned
      simp only [Prod.mk.injEq] at equal
      obtain ⟨rfl, rfl⟩ := equal
      simp [inductionHypothesis found]

/-- The text that the body of a literal denotes.  `\x` takes one or two
hexadecimal digits and names the character of that code; without a digit the
body denotes nothing.  A backslash before any other character stands for
itself. -/
def decode : List Char → Option (List Char)
  | [] => some []
  | '\\' :: 'n' :: rest => (decode rest).map ('\n' :: ·)
  | '\\' :: 't' :: rest => (decode rest).map ('\t' :: ·)
  | '\\' :: '\\' :: rest => (decode rest).map ('\\' :: ·)
  | '\\' :: 'r' :: rest => (decode rest).map ('\r' :: ·)
  | '\\' :: '"' :: rest => (decode rest).map ('"' :: ·)
  | '\\' :: '0' :: rest => (decode rest).map ('\x00' :: ·)
  | ['\\', 'x'] => none
  | ['\\', 'x', only] => (hexDigit? only).map fun value => [Char.ofNat value]
  | '\\' :: 'x' :: first :: second :: rest =>
      match hexDigit? first, hexDigit? second with
      | none, _ => none
      | some high, some low => (decode rest).map (Char.ofNat (16 * high + low) :: ·)
      | some value, none => (decode (second :: rest)).map (Char.ofNat value :: ·)
  | character :: rest => (decode rest).map (character :: ·)

/-- One character as a literal writes it. -/
def encodeCharacter (character : Char) : List Char :=
  match character with
  | '"' => ['\\', '"']
  | '\\' => ['\\', '\\']
  | '\n' => ['\\', 'n']
  | '\t' => ['\\', 't']
  | '\r' => ['\\', 'r']
  | '\x00' => ['\\', '0']
  | other => [other]

/-- A text as a literal with its quotes. -/
def encode (text : String) : String :=
  String.ofList ('"' :: text.toList.flatMap encodeCharacter ++ ['"'])

end StringLiteral
end KnightFront
