import KnightFront.Proofs.Foresight.Phrases
import KnightFront.Proofs.Parse.ProgressItem

namespace KnightFront

/-!
# The first fault is final

A parser that fails has looked at most one token behind the one that it reports.
So nothing that stands further behind can repair or change the first fault of a
token list.

Which token a fault is about does not follow from its position when several tokens
stand at one place.  It is the token that the fault points to under every choice of
places.
-/

/-- The token at an index of a list.  Behind the last one the end of input goes on. -/
def tokenAt (tokens : List Token) (index : Nat) : Token :=
  (TokenStream.ofTokens tokens).token index

/-- Tokens moved to other places. -/
def respan (spans : Nat → Span) (tokens : List Token) : List Token :=
  tokens.mapIdx fun index token => { token with span := spans index }

/-- Reading a list fails about the token at an index: wherever the tokens stand, the
fault is placed at that one. -/
def Program.FailsAbout (file : String) (tokens : List Token) (index : Nat) : Prop :=
  ∀ spans, ∃ fault, ofTokens file (respan spans tokens) = .error (.fault fault) ∧
    fault.position = (tokenAt (respan spans tokens) index).span.start

section Indices

variable {tokens : List Token} {index : Nat}

theorem tokenAt_of_lt (inside : index < tokens.length) : tokenAt tokens index = tokens[index] := by
  rcases List.eq_nil_or_concat tokens with rfl | ⟨front, final, rfl⟩
  · simp at inside
  · by_cases closed : final.kind = .eof
    · simp only [tokenAt, TokenStream.token, TokenStream.ofTokens, List.concat_eq_append,
        List.getLast?_concat, closed, dite_true, List.dropLast_concat, List.getElem_append]
      split
      · next early => simp [early]
      · next late => simp [Nat.not_lt.mp late]
    · have among : index < (front ++ [final]).length := by simpa using inside
      simp [tokenAt, TokenStream.token, TokenStream.ofTokens, closed, List.getD_eq_getElem?_getD,
        List.getElem?_eq_getElem among]

theorem tokenAt_of_length_le (outside : tokens.length ≤ index) :
    tokenAt tokens index = (TokenStream.ofTokens tokens).finish := by
  refine TokenStream.token_of_size_le (Nat.le_trans ?_ outside)
  unfold TokenStream.ofTokens
  split
  · simp [TokenStream.size]
  · split <;> simp [TokenStream.size]

@[simp]
theorem length_respan (spans : Nat → Span) (tokens : List Token) :
    (respan spans tokens).length = tokens.length :=
  List.length_mapIdx

/-- Where a token stands after it has been moved. -/
theorem span_tokenAt_respan (spans : Nat → Span) (inside : index < tokens.length) :
    (tokenAt (respan spans tokens) index).span = spans index := by
  rw [tokenAt_of_lt (by simpa using inside)]
  simp [respan]

/-- Moving tokens changes no contents. -/
theorem content_tokenAt_respan (spans : Nat → Span) (tokens : List Token) (index : Nat) :
    (tokenAt (respan spans tokens) index).content = (tokenAt tokens index).content := by
  rcases Nat.lt_or_ge index tokens.length with inside | outside
  · rw [tokenAt_of_lt inside, tokenAt_of_lt (by simpa using inside)]
    simp [respan, Token.content]
  · rw [tokenAt_of_length_le outside, tokenAt_of_length_le (by simpa using outside)]
    rcases List.eq_nil_or_concat tokens with rfl | ⟨front, final, rfl⟩
    · rfl
    · by_cases closed : final.kind = .eof <;>
        simp [TokenStream.ofTokens, respan, closed, Token.content, Token.endOfInput]

theorem size_ofTokens_respan (spans : Nat → Span) (tokens : List Token) :
    (TokenStream.ofTokens (respan spans tokens)).size = (TokenStream.ofTokens tokens).size := by
  rcases List.eq_nil_or_concat tokens with rfl | ⟨front, final, rfl⟩
  · rfl
  · by_cases closed : final.kind = .eof <;>
      simp [TokenStream.ofTokens, TokenStream.size, respan, closed]

/-- All tokens behind the last one are the same end of input. -/
theorem tokenAt_congr {first second : Nat}
    (same : min first (TokenStream.ofTokens tokens).size =
      min second (TokenStream.ofTokens tokens).size) :
    tokenAt tokens first = tokenAt tokens second := by
  rcases Nat.lt_or_ge first (TokenStream.ofTokens tokens).size with inside | outside
  · rw [show first = second by omega]
  · rw [tokenAt, tokenAt, TokenStream.token_of_size_le outside,
      TokenStream.token_of_size_le (by omega)]

end Indices

/-- A place of its own for every index. -/
def numberedSpan (index : Nat) : Span := ⟨⟨index, 0, ""⟩, ⟨index + 1, 0, ""⟩⟩

/-- Tokens that stand at places of their own. -/
def numbered (tokens : List Token) : List Token := respan numberedSpan tokens

/-- A numbered token stands on the line of its index, and the end of input on that of
the first index behind the others. -/
theorem line_tokenAt_numbered (tokens : List Token) (index : Nat) :
    (tokenAt (numbered tokens) index).span.start.line =
      min index (TokenStream.ofTokens (numbered tokens)).size := by
  have ending : (TokenStream.ofTokens (numbered tokens)).finish.span.start.line =
        (TokenStream.ofTokens (numbered tokens)).size ∧
      tokens.length ≤ (TokenStream.ofTokens (numbered tokens)).size + 1 ∧
      (TokenStream.ofTokens (numbered tokens)).size ≤ tokens.length := by
    rcases List.eq_nil_or_concat tokens with rfl | ⟨front, final, rfl⟩
    · exact ⟨rfl, Nat.zero_le _, Nat.le_refl _⟩
    · by_cases closed : final.kind = .eof <;>
        simp [TokenStream.ofTokens, TokenStream.size, numbered, respan, closed, Token.endOfInput,
          Span.empty, numberedSpan]
  rcases Nat.lt_or_ge index tokens.length with inside | outside
  · rw [numbered, span_tokenAt_respan numberedSpan inside]
    change index = _
    rw [← numbered]
    omega
  · rw [tokenAt_of_length_le (by simpa [numbered] using outside)]
    omega

/-- Numbered tokens at the same place have the same index, up to the end of input. -/
theorem min_eq_of_numbered {tokens : List Token} {first second : Nat}
    (same : (tokenAt (numbered tokens) first).span.start =
      (tokenAt (numbered tokens) second).span.start) :
    min first (TokenStream.ofTokens tokens).size =
      min second (TokenStream.ofTokens tokens).size := by
  have lines := congrArg Position.line same
  rwa [line_tokenAt_numbered, line_tokenAt_numbered, numbered, size_ofTokens_respan] at lines

namespace Program

variable {file : String} {tokens : List Token} {fault : SyntaxFault}

theorem items_of_ofTokens {failure : ParseFailure}
    (fails : ofTokens file tokens = .error failure) :
    Parser.items (.ofTokens tokens) = .error failure := by
  unfold ofTokens at fails
  cases read : Parser.items (.ofTokens tokens) with
  | error other => simpa [read] using fails
  | ok found => simp [read] at fails

/-- A list fails at one position. -/
theorem position_eq {cause : SyntaxFault.Cause} {position : Position}
    (fails : ofTokens file tokens = .error (.fault fault))
    (again : ofTokens file tokens = .error (.fault ⟨cause, position⟩)) :
    fault.position = position := by
  rw [fails] at again
  injection again with same
  injection same with same
  rw [same]

/-- A list that begins like one that fails, up to the token behind the reported one,
fails likewise. -/
theorem fault_of_alike (fails : ofTokens file tokens = .error (.fault fault))
    (others : List Token) (shared : Nat)
    (alike : ∀ index < shared, (tokenAt others index).content = (tokenAt tokens index).content) :
    ∃ about ≤ (TokenStream.ofTokens tokens).size,
      fault.position = (tokenAt tokens about).span.start ∧
        (about + 1 < shared →
          ofTokens file others =
            .error (.fault ⟨fault.cause, (tokenAt others about).span.start⟩)) := by
  let twins : Twins := ⟨.ofTokens tokens, .ofTokens others, shared, alike⟩
  have step := twins.inStep_items _ 0 (.ofTokens tokens) (.ofTokens others) rfl
    ⟨.ofTokens tokens, fun _ => .ofTokens others⟩
  rw [items_of_ofTokens fails] at step
  rcases step with ⟨about, -, within, position, failed⟩
  refine ⟨about, within, position, fun covered => ?_⟩
  rw [ofTokens, failed covered]
  rfl

/-- A list that fails does so about one token: every list that begins like it, up to
the token behind that one, fails with the same cause at the same index. -/
theorem exists_about (fails : ofTokens file tokens = .error (.fault fault)) :
    ∃ about ≤ (TokenStream.ofTokens tokens).size, ∀ others,
      (∀ index ≤ about + 1, (tokenAt others index).content = (tokenAt tokens index).content) →
        ofTokens file others =
          .error (.fault ⟨fault.cause, (tokenAt others about).span.start⟩) := by
  -- On numbered tokens the position tells the index, so it is the same for all others.
  rcases fault_of_alike fails (numbered tokens) ((TokenStream.ofTokens tokens).size + 2)
    fun index _ => content_tokenAt_respan numberedSpan tokens index with
    ⟨first, inside, -, carried⟩
  have failsNumbered := carried (by omega)
  rcases fault_of_alike failsNumbered tokens 0 (by simp) with ⟨about, within, position, -⟩
  rw [numbered, size_ofTokens_respan] at within
  refine ⟨about, within, fun others alike => ?_⟩
  rcases fault_of_alike failsNumbered others (about + 2) fun index early =>
    (alike index (by omega)).trans (content_tokenAt_respan numberedSpan tokens index).symm with
    ⟨same, withinToo, positionToo, failed⟩
  rw [numbered, size_ofTokens_respan] at withinToo
  have capped := min_eq_of_numbered (positionToo.symm.trans position)
  have equal : same = about := by omega
  exact equal ▸ failed (by omega)

/-- What a list fails about can be seen on numbered tokens alone. -/
theorem failsAbout_iff {index : Nat} :
    FailsAbout file tokens index ↔
      ∃ fault, ofTokens file (numbered tokens) = .error (.fault fault) ∧
        fault.position = (tokenAt (numbered tokens) index).span.start := by
  refine ⟨fun fails => fails numberedSpan, fun ⟨fault, failed, position⟩ spans => ?_⟩
  rcases exists_about failed with ⟨about, -, carried⟩
  have alike (other : Nat → Span) (index : Nat) : (tokenAt (respan other tokens) index).content =
      (tokenAt (numbered tokens) index).content :=
    (content_tokenAt_respan other tokens index).trans
      (content_tokenAt_respan numberedSpan tokens index).symm
  have placed := position_eq failed (carried (numbered tokens) fun _ _ => rfl)
  refine ⟨_, carried (respan spans tokens) fun index _ => alike spans index, ?_⟩
  have capped := min_eq_of_numbered (placed.symm.trans position)
  rw [← size_ofTokens_respan spans] at capped
  rw [tokenAt_congr capped]

instance {index : Nat} : Decidable (FailsAbout file tokens index) :=
  match read : ofTokens file (numbered tokens) with
  | .error (.fault fault) =>
      decidable_of_iff (fault.position = (tokenAt (numbered tokens) index).span.start)
        (by simp [failsAbout_iff, read])
  | .error (.defect _) => isFalse (by simp [failsAbout_iff, read])
  | .ok _ => isFalse (by simp [failsAbout_iff, read])

/-- A token list that fails does so about one of its tokens or the end of input, and
every list with the same tokens up to the one behind it fails with the same fault. -/
theorem first_fault_is_final {failure : ParseFailure}
    (fails : ofTokens file tokens = .error failure) :
    ∃ fault, failure = .fault fault ∧ (∃ index, FailsAbout file tokens index) ∧
      ∀ index, FailsAbout file tokens index →
        fault.position = (tokenAt tokens index).span.start ∧
          ∀ others, (∀ earlier ≤ index + 1, tokenAt others earlier = tokenAt tokens earlier) →
            ofTokens file others = .error (.fault fault) := by
  rcases ofTokens_isOk_or_fault file tokens with ⟨program, read⟩ | ⟨fault, failed⟩
  · simp [read] at fails
  rcases exists_about failed with ⟨about, within, carried⟩
  have position := position_eq failed (carried tokens fun _ _ => rfl)
  have respanned (spans : Nat → Span) := carried (respan spans tokens)
    fun index _ => content_tokenAt_respan spans tokens index
  refine ⟨fault, ?_, ⟨about, fun spans => ⟨_, respanned spans, rfl⟩⟩, fun index failsAt => ?_⟩
  · rw [failed] at fails
    injection fails with fails
    exact fails.symm
  · rcases failsAt numberedSpan with ⟨other, failsNumbered, placed⟩
    have capped : min about _ = min index _ := min_eq_of_numbered
      ((position_eq failsNumbered (respanned numberedSpan)).symm.trans placed)
    refine ⟨position.trans (congrArg (·.span.start) (tokenAt_congr capped)),
      fun others agree => ?_⟩
    rw [carried others fun earlier early => congrArg Token.content (agree earlier (by omega)),
      agree about (by omega), ← position]

/-- A declaration without a name, which is noticed at the sign behind the type. -/
def namelessVariable : List Token :=
  [⟨.intWord, "int", .nowhere⟩, ⟨.assignment, "=", .nowhere⟩, ⟨.number, "5", .nowhere⟩,
    ⟨.semicolon, ";", .nowhere⟩, ⟨.eof, "EOF", .nowhere⟩]

/-- Other tokens behind the number do not help. -/
def namelessFunction : List Token :=
  [⟨.intWord, "int", .nowhere⟩, ⟨.assignment, "=", .nowhere⟩, ⟨.number, "5", .nowhere⟩,
    ⟨.fnWord, "fn", .nowhere⟩]

/-- The fault of the declaration stays whatever stands behind the number. -/
theorem first_fault_is_final_namelessVariable :
    ∃ fault, ofTokens "" namelessVariable = .error (.fault fault) ∧
      FailsAbout "" namelessVariable 1 ∧
        (∀ earlier ≤ 2, tokenAt namelessFunction earlier = tokenAt namelessVariable earlier) ∧
          ofTokens "" namelessFunction = .error (.fault fault) := by
  have refused : (ofTokens "" namelessVariable).isOk = false := by decide +kernel
  have failsAt : FailsAbout "" namelessVariable 1 := by decide +kernel
  have agree : ∀ earlier ≤ 2,
      tokenAt namelessFunction earlier = tokenAt namelessVariable earlier := by
    decide
  cases fails : ofTokens "" namelessVariable with
  | ok program => simp [fails, Except.isOk, Except.toBool] at refused
  | error failure =>
      rcases first_fault_is_final fails with ⟨fault, rfl, -, final⟩
      exact ⟨fault, rfl, failsAt, agree, (final 1 failsAt).2 namelessFunction agree⟩

end Program

end KnightFront
