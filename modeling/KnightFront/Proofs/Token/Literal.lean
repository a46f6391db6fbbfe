import KnightFront.Token.StringLiteral

namespace KnightFront
namespace StringLiteral

/-!
# What string literals stand for

The escapes of string literals as a relation between the text in between the
quotes and the text that it stands for.  Scanning a literal up to its closing
quote and decoding what was found is the same as the relation.  The two
functions follow different cases: to scan, only the character behind a
backslash counts, whereas decoding tells the escapes apart.
-/

/-- The escapes of one letter, each with the character that it writes. -/
def letterEscapes : List (Char × Char) :=
  [('n', '\n'), ('t', '\t'), ('\\', '\\'), ('r', '\r'), ('"', '"'), ('0', '\x00')]

/-- What the text between the quotes of a literal stands for.  A numeric escape
takes two hexadecimal digits where two follow, and a backslash that begins no
escape stands for itself. -/
inductive Denotes : List Char → List Char → Prop
  | nil : Denotes [] []
  | plain {character body value} : character ∉ ['"', '\\', '\n'] → Denotes body value →
      Denotes (character :: body) (character :: value)
  | letter {letter character body value} : (letter, character) ∈ letterEscapes →
      Denotes body value → Denotes ('\\' :: letter :: body) (character :: value)
  | twoDigits {first second high low body value} : hexDigit? first = some high →
      hexDigit? second = some low → Denotes body value →
      Denotes ('\\' :: 'x' :: first :: second :: body) (Char.ofNat (16 * high + low) :: value)
  | oneDigit {digit number body value} : hexDigit? digit = some number →
      (∀ next ∈ body.head?, hexDigit? next = none) → Denotes body value →
      Denotes ('\\' :: 'x' :: digit :: body) (Char.ofNat number :: value)
  | backslash {letter body value} : letter ∉ letterEscapes.map Prod.fst → letter ∉ ['x', '\n'] →
      Denotes (letter :: body) value → Denotes ('\\' :: letter :: body) ('\\' :: value)

/-- A hexadecimal digit stands in a literal as it is. -/
theorem plain_of_hexDigit? {digit : Char} {number : Nat} (known : hexDigit? digit = some number) :
    digit ∉ ['"', '\\', '\n'] := by
  intro member
  simp only [List.mem_cons, List.not_mem_nil, or_false] at member
  rcases member with rfl | rfl | rfl <;> simp [hexDigit?] at known

theorem scanBody_cons_of_plain {character : Char} (plain : character ∉ ['"', '\\', '\n'])
    (rest : List Char) :
    scanBody (character :: rest) =
      (scanBody rest).map fun found => (character :: found.1, found.2) := by
  simp only [List.mem_cons, List.not_mem_nil, or_false, not_or] at plain
  rw [scanBody] <;> simp_all

theorem scanBody_escape {escaped : Char} (notFeed : escaped ≠ '\n') (rest : List Char) :
    scanBody ('\\' :: escaped :: rest) =
      (scanBody rest).map fun found => ('\\' :: escaped :: found.1, found.2) := by
  rw [scanBody, if_neg notFeed]

theorem decode_cons_of_plain {character : Char} (plain : character ≠ '\\') (rest : List Char) :
    decode (character :: rest) = (decode rest).map (character :: ·) := by
  rw [decode] <;> simp_all

theorem decode_letter {letter character : Char} (escape : (letter, character) ∈ letterEscapes)
    (rest : List Char) : decode ('\\' :: letter :: rest) = (decode rest).map (character :: ·) := by
  simp only [letterEscapes, List.mem_cons, Prod.mk.injEq, List.not_mem_nil, or_false] at escape
  rcases escape with ⟨rfl, rfl⟩ | ⟨rfl, rfl⟩ | ⟨rfl, rfl⟩ | ⟨rfl, rfl⟩ | ⟨rfl, rfl⟩ | ⟨rfl, rfl⟩ <;>
    rfl

/-- A numeric escape with two characters behind it. -/
theorem decode_numeric (first second : Char) (rest : List Char) :
    decode ('\\' :: 'x' :: first :: second :: rest) =
      match hexDigit? first, hexDigit? second with
      | none, _ => none
      | some high, some low => (decode rest).map (Char.ofNat (16 * high + low) :: ·)
      | some value, none => (decode (second :: rest)).map (Char.ofNat value :: ·) :=
  rfl

theorem decode_twoDigits {first second : Char} {high low : Nat} (upper : hexDigit? first = some high)
    (lower : hexDigit? second = some low) (rest : List Char) :
    decode ('\\' :: 'x' :: first :: second :: rest) =
      (decode rest).map (Char.ofNat (16 * high + low) :: ·) := by
  rw [decode_numeric, upper, lower]

theorem decode_oneDigit {digit : Char} {number : Nat} (known : hexDigit? digit = some number)
    {rest : List Char} (single : ∀ next ∈ rest.head?, hexDigit? next = none) :
    decode ('\\' :: 'x' :: digit :: rest) = (decode rest).map (Char.ofNat number :: ·) := by
  cases rest with
  | nil =>
      change (hexDigit? digit).map (fun value => [Char.ofNat value]) = _
      rw [known]
      rfl
  | cons next others => rw [decode_numeric, known, single next rfl]

theorem decode_backslash {letter : Char} (noLetter : letter ∉ letterEscapes.map Prod.fst)
    (notHex : letter ≠ 'x') (rest : List Char) :
    decode ('\\' :: letter :: rest) = (decode (letter :: rest)).map ('\\' :: ·) := by
  simp only [letterEscapes, List.map_cons, List.map_nil, List.mem_cons, List.not_mem_nil, or_false,
    not_or] at noLetter
  rw [decode] <;> simp_all

/-- A body that denotes a text ends at the quote behind it and is decoded to
that text. -/
theorem Denotes.scanned {body value : List Char} (denotes : Denotes body value) (rest : List Char) :
    scanBody (body ++ '"' :: rest) = some (body, rest) ∧ decode body = some value := by
  induction denotes with
  | nil => exact ⟨rfl, rfl⟩
  | plain plain _ inductionHypothesis =>
      obtain ⟨scanned, decoded⟩ := inductionHypothesis
      rw [List.cons_append, scanBody_cons_of_plain plain, decode_cons_of_plain (by simp_all)]
      simp [scanned, decoded]
  | letter escape _ inductionHypothesis =>
      obtain ⟨scanned, decoded⟩ := inductionHypothesis
      have notFeed : ∀ entry ∈ letterEscapes, entry.1 ≠ '\n' := by decide
      rw [List.cons_append, List.cons_append, scanBody_escape (notFeed _ escape),
        decode_letter escape]
      simp [scanned, decoded]
  | twoDigits upper lower _ inductionHypothesis =>
      obtain ⟨scanned, decoded⟩ := inductionHypothesis
      rw [decode_twoDigits upper lower]
      simp [scanBody_escape, scanBody_cons_of_plain (plain_of_hexDigit? upper),
        scanBody_cons_of_plain (plain_of_hexDigit? lower), scanned, decoded]
  | oneDigit known single _ inductionHypothesis =>
      obtain ⟨scanned, decoded⟩ := inductionHypothesis
      rw [decode_oneDigit known single]
      simp [scanBody_escape, scanBody_cons_of_plain (plain_of_hexDigit? known), scanned, decoded]
  | @backslash letter body value noLetter others inner inductionHypothesis =>
      obtain ⟨scanned, decoded⟩ := inductionHypothesis
      simp only [List.mem_cons, List.not_mem_nil, or_false, not_or] at others
      have noQuote : letter ≠ '"' := fun same => noLetter (same ▸ by decide)
      have noSlash : letter ≠ '\\' := fun same => noLetter (same ▸ by decide)
      have plain : letter ∉ ['"', '\\', '\n'] := by simp [noQuote, noSlash, others.2]
      rw [List.cons_append, scanBody_cons_of_plain plain, Option.map_eq_some_iff] at scanned
      obtain ⟨found, more, same⟩ := scanned
      simp only [Prod.mk.injEq, List.cons.injEq, true_and] at same
      refine ⟨?_, ?_⟩
      · rw [List.cons_append, List.cons_append, scanBody_escape others.2, more, ← same.1, ← same.2]
        rfl
      · rw [decode_backslash noLetter others.1, decoded]
        rfl

/-- A backslash takes any character but a line feed with it. -/
theorem scanBody_escape_eq_some_iff {escaped : Char} {body rest : List Char} :
    scanBody ('\\' :: escaped :: body ++ '"' :: rest) = some ('\\' :: escaped :: body, rest) ↔
      escaped ≠ '\n' ∧ scanBody (body ++ '"' :: rest) = some (body, rest) := by
  simp only [List.cons_append, scanBody]
  split
  · simp_all
  · simp_all [Option.map_eq_some_iff]

/-- A character that is no backslash stands in a body only if it is plain. -/
theorem scanBody_cons_eq_some_iff {character : Char} (notSlash : character ≠ '\\')
    {body rest : List Char} :
    scanBody (character :: body ++ '"' :: rest) = some (character :: body, rest) ↔
      character ∉ ['"', '\\', '\n'] ∧ scanBody (body ++ '"' :: rest) = some (body, rest) := by
  by_cases quote : character = '"'
  · simp [quote, scanBody]
  · by_cases feed : character = '\n'
    · simp [feed, scanBody]
    · have plain : character ∉ ['"', '\\', '\n'] := by simp [quote, notSlash, feed]
      rw [List.cons_append, scanBody_cons_of_plain plain]
      simp [plain, Option.map_eq_some_iff]

theorem scanBody_cons_of_hexDigit? {digit : Char} {number : Nat}
    (known : hexDigit? digit = some number) {body rest : List Char} :
    scanBody (digit :: body ++ '"' :: rest) = some (digit :: body, rest) ↔
      scanBody (body ++ '"' :: rest) = some (body, rest) := by
  have plain := plain_of_hexDigit? known
  rw [scanBody_cons_eq_some_iff (by simp_all)]
  exact and_iff_right plain

/-- What an escape of one letter adds to what the body behind it denotes. -/
theorem denotes_letter {letter character : Char} {body rest value : List Char}
    (escape : (letter, character) ∈ letterEscapes)
    (inductionHypothesis : ∀ {inner}, scanBody (body ++ '"' :: rest) = some (body, rest) →
      decode body = some inner → Denotes body inner)
    (scanned : scanBody ('\\' :: letter :: body ++ '"' :: rest) =
      some ('\\' :: letter :: body, rest))
    (decoded : (decode body).map (character :: ·) = some value) :
    Denotes ('\\' :: letter :: body) value := by
  obtain ⟨inner, found, rfl⟩ := Option.map_eq_some_iff.mp decoded
  exact .letter escape (inductionHypothesis (scanBody_escape_eq_some_iff.mp scanned).2 found)

/-- A body that is closed and decoded denotes what it is decoded to. -/
theorem denotes_of_scanBody {body rest value : List Char}
    (scanned : scanBody (body ++ '"' :: rest) = some (body, rest))
    (decoded : decode body = some value) : Denotes body value := by
  fun_induction decode body generalizing value with
  | case1 =>
      cases decoded
      exact .nil
  | case2 more inductionHypothesis | case3 more inductionHypothesis
  | case4 more inductionHypothesis | case5 more inductionHypothesis
  | case6 more inductionHypothesis | case7 more inductionHypothesis =>
      exact denotes_letter (by decide) inductionHypothesis scanned decoded
  | case8 => cases decoded
  | case9 only =>
      obtain ⟨number, known, rfl⟩ := Option.map_eq_some_iff.mp decoded
      exact .oneDigit known (by simp) .nil
  | case10 first second more unknown => cases decoded
  | case11 first second more high low lower upper inductionHypothesis =>
      obtain ⟨inner, found, rfl⟩ := Option.map_eq_some_iff.mp decoded
      have behind := (scanBody_escape_eq_some_iff.mp scanned).2
      rw [scanBody_cons_of_hexDigit? upper, scanBody_cons_of_hexDigit? lower] at behind
      exact .twoDigits upper lower (inductionHypothesis behind found)
  | case12 first second more number unknown known inductionHypothesis =>
      obtain ⟨inner, found, rfl⟩ := Option.map_eq_some_iff.mp decoded
      have behind := (scanBody_escape_eq_some_iff.mp scanned).2
      rw [scanBody_cons_of_hexDigit? known] at behind
      exact .oneDigit known (by simpa using unknown) (inductionHypothesis behind found)
  | case13 character more noFeed noTab noSlash noReturn noQuote noNull noDigit oneDigit twoDigits
      inductionHypothesis =>
      obtain ⟨inner, found, rfl⟩ := Option.map_eq_some_iff.mp decoded
      by_cases slash : character = '\\'
      · subst slash
        cases more with
        | nil => simp [scanBody, Option.map_eq_some_iff] at scanned
        | cons letter others =>
            obtain ⟨notFeed, behind⟩ := scanBody_escape_eq_some_iff.mp scanned
            have noLetter : letter ∉ letterEscapes.map Prod.fst := by
              intro among
              simp only [letterEscapes, List.map_cons, List.map_nil, List.mem_cons,
                List.not_mem_nil, or_false] at among
              rcases among with rfl | rfl | rfl | rfl | rfl | rfl
              · exact noFeed others rfl rfl
              · exact noTab others rfl rfl
              · exact noSlash others rfl rfl
              · exact noReturn others rfl rfl
              · exact noQuote others rfl rfl
              · exact noNull others rfl rfl
            have notHex : letter ≠ 'x' := by
              rintro rfl
              rcases others with - | ⟨first, - | ⟨second, others⟩⟩
              · exact noDigit rfl rfl
              · exact oneDigit first rfl rfl
              · exact twoDigits first second others rfl rfl
            have notSlash : letter ≠ '\\' := fun same => noSlash others rfl (same ▸ rfl)
            have notQuote : letter ≠ '"' := fun same => noQuote others rfl (same ▸ rfl)
            refine .backslash noLetter (by simp [notHex, notFeed]) (inductionHypothesis ?_ found)
            exact (scanBody_cons_eq_some_iff notSlash).mpr
              ⟨by simp [notQuote, notSlash, notFeed], behind⟩
      · obtain ⟨plain, behind⟩ := (scanBody_cons_eq_some_iff slash).mp scanned
        exact .plain plain (inductionHypothesis behind found)

/-- A body stands for a text if and only if a literal with that body is scanned
up to its end and decoded to the text. -/
theorem denotes_iff {body value : List Char} (rest : List Char) :
    Denotes body value ↔
      scanBody (body ++ '"' :: rest) = some (body, rest) ∧ decode body = some value :=
  ⟨fun denotes => denotes.scanned rest, fun both => denotes_of_scanBody both.1 both.2⟩

end StringLiteral
end KnightFront
