import KnightFront.Proofs.Parse.Rules
import KnightFront.Proofs.Relabelling.Trees

namespace KnightFront

/-!
# Reading relabelled tokens

Identifiers may be spelled otherwise and tokens may stand elsewhere without a
reader taking another way: it looks at kinds only, and at the values of numbers.
A judgement compares a run of a reader with its run on relabelled tokens.  As
with the other judgements on readers there is a rewriting rule for each step of
straight code, and one rule each for what is put together from readers,
repeated and nested.
-/

/-- The value of a token of a kind relabelled.  Only identifiers are names. -/
def Relabelling.value (change : Relabelling) (kind : TokenKind) (value : String) : String :=
  if kind = .identifier then change.name value else value

@[simp]
theorem Relabelling.value_identifier (change : Relabelling) (value : String) :
    change.value .identifier value = change.name value := rfl

/-- A token with its place moved, and relabelled if it is an identifier. -/
def Token.relabel (change : Relabelling) (token : Token) : Token where
  kind := token.kind
  value := change.value token.kind token.value
  span := token.span.relabel change

/-- The cause of a fault with the token it quotes relabelled. -/
def SyntaxFault.Cause.relabel (change : Relabelling) : SyntaxFault.Cause → SyntaxFault.Cause
  | unexpectedToken found value expected =>
      .unexpectedToken found (change.value found value) expected
  | misplacedToken found value requirement =>
      .misplacedToken found (change.value found value) requirement
  | other => other

/-- A fault with its cause relabelled and its place moved. -/
def SyntaxFault.relabel (change : Relabelling) (fault : SyntaxFault) : SyntaxFault :=
  ⟨fault.cause.relabel change, change.start fault.position⟩

/-- A failure with its fault relabelled. -/
def ParseFailure.relabel (change : Relabelling) : ParseFailure → ParseFailure
  | fault found => .fault (found.relabel change)
  | defect found => .defect found

/-- A stream with its tokens relabelled. -/
def TokenStream.relabel (change : Relabelling) (stream : TokenStream) : TokenStream where
  ahead := stream.ahead.map (Token.relabel change)
  finish := stream.finish.relabel change
  finish_kind := stream.finish_kind

namespace Cursor

/-- A cursor on relabelled tokens. -/
def relabel (change : Relabelling) (cursor : Cursor) : Cursor where
  stream := cursor.stream.relabel change
  previousEnd := change.finish cursor.previousEnd
  nextId := cursor.nextId

variable {change : Relabelling}

@[simp]
theorem current_relabel (cursor : Cursor) :
    (cursor.relabel change).current = cursor.current.relabel change := by
  simp only [current, TokenStream.current, relabel, TokenStream.relabel]
  cases cursor.stream.ahead <;> rfl

@[simp]
theorem headKind_contents_relabel (cursor : Cursor) :
    headKind (cursor.relabel change).contents = headKind cursor.contents := by
  rw [← current_kind, current_relabel, ← current_kind]
  rfl

@[simp]
theorem advance_relabel (cursor : Cursor) :
    (cursor.relabel change).advance = cursor.advance.relabel change := by
  have moved : (cursor.relabel change).stream.tail = cursor.stream.tail.relabel change := by
    simp [relabel, TokenStream.relabel, TokenStream.tail, List.map_tail]
  simp only [advance, current_relabel, moved]
  rfl

@[simp]
theorem remaining_relabel (cursor : Cursor) :
    (cursor.relabel change).remaining = cursor.remaining := by
  simp [remaining, TokenStream.size, relabel, TokenStream.relabel]

/-- A token list that is closed by the end of input can be relabelled before the
first cursor is made, if the first place counts as a beginning and an end. -/
theorem ofTokens_relabel {tokens : List Token} {final : Token}
    (last : tokens.getLast? = some final) (closed : final.kind = .eof)
    (agrees : ∀ first ∈ tokens.head?,
      change.finish first.span.start = change.start first.span.start) :
    ofTokens (tokens.map (Token.relabel change)) = (ofTokens tokens).relabel change := by
  have stream : TokenStream.ofTokens (tokens.map (Token.relabel change)) =
      (TokenStream.ofTokens tokens).relabel change := by
    have closedToo : (final.relabel change).kind = .eof := closed
    simp [TokenStream.ofTokens, TokenStream.relabel, last, closed, closedToo, List.map_dropLast]
  have first : tokens.head? = some (TokenStream.ofTokens tokens).current := by
    obtain ⟨front, rfl⟩ := List.getLast?_eq_some_iff.mp last
    simp only [TokenStream.ofTokens, TokenStream.current, last, closed, dite_true,
      List.dropLast_concat]
    cases front <;> rfl
  have opening : ((ofTokens tokens).relabel change).current = _ := current_relabel _
  simp only [ofTokens, stream, relabel, current] at opening ⊢
  rw [opening, agrees _ first]
  rfl

end Cursor

namespace Parser

/-- The outcome of a reader relabelled. -/
def relabelOutcome {α β : Type} (change : Relabelling) (image : α → β) :
    Except ParseFailure (α × Cursor) → Except ParseFailure (β × Cursor)
  | .ok (value, behind) => .ok (image value, behind.relabel change)
  | .error failure => .error (failure.relabel change)

/-- A reader does on relabelled tokens what another one does at a cursor. -/
def Follows {α β : Type} (change : Relabelling) (image : α → β) (parser : Parser α)
    (other : Parser β) (cursor : Cursor) : Prop :=
  other (cursor.relabel change) = relabelOutcome change image (parser cursor)

section Rules

variable {α β γ δ : Type} {change : Relabelling} {cursor : Cursor} {image : α → β}
  {result : γ → δ} {next : α → Parser γ} {nextOther : β → Parser δ}

/-- Readers that follow each other are put together with ones that follow each
other for every value and cursor. -/
theorem Follows.bind {parser : Parser α} {other : Parser β}
    (first : Follows change image parser other cursor)
    (rest : ∀ value behind, Follows change result (next value) (nextOther (image value)) behind) :
    Follows change result (parser >>= next) (other >>= nextOther) cursor := by
  unfold Follows at first ⊢
  cases read : parser cursor with
  | error failure =>
      rw [read] at first
      rw [bind_of_error read, bind_of_error first]
      rfl
  | ok found =>
      rw [read] at first
      rw [bind_of_ok read, bind_of_ok first]
      exact rest found.1 found.2

/-- One reader may be put before both runs, if all that is known of it is where
it leaves the cursor. -/
theorem follows_bind_of_ok {first : Parser α} {firstOther : Parser β} {value : α} {behind : Cursor}
    {otherValue : β}
    (read : first cursor = .ok (value, behind))
    (readOther : firstOther (cursor.relabel change) = .ok (otherValue, behind.relabel change)) :
    Follows change result (first >>= next) (firstOther >>= nextOther) cursor ↔
      Follows change result (next value) (nextOther otherValue) behind := by
  unfold Follows
  rw [bind_of_ok read, bind_of_ok readOther]

@[simp]
theorem follows_pure {value : α} {other : β} :
    Follows change image (pure value) (pure other) cursor ↔ other = image value := by
  change Except.ok (other, cursor.relabel change) = .ok (image value, cursor.relabel change) ↔ _
  simp

@[simp]
theorem follows_defective {defect : ParserDefect} :
    Follows change image (defective defect) (defective defect) cursor := rfl

@[simp]
theorem follows_faulty {cause otherCause : SyntaxFault.Cause} {position otherPosition : Position} :
    Follows change image (faulty cause position) (faulty otherCause otherPosition) cursor ↔
      otherCause = cause.relabel change ∧ otherPosition = change.start position := by
  change Except.error (ParseFailure.fault ⟨otherCause, otherPosition⟩) =
    Except.error (ParseFailure.fault ⟨cause.relabel change, change.start position⟩) ↔ _
  simp

@[simp]
theorem follows_misplaced {requirement : String} :
    Follows change image (misplaced requirement) (misplaced requirement) cursor := by
  change (misplaced requirement : Parser β) (cursor.relabel change) =
    .error (.fault ⟨.misplacedToken cursor.current.kind
      (change.value cursor.current.kind cursor.current.value) requirement,
      change.start cursor.current.span.start⟩)
  rw [misplaced, bind_of_ok rfl, Cursor.current_relabel]
  rfl

@[simp]
theorem follows_ite {condition : Prop} [Decidable condition] {first second : Parser α}
    {firstOther secondOther : Parser β} :
    Follows change image (if condition then first else second)
        (if condition then firstOther else secondOther) cursor ↔
      if condition then Follows change image first firstOther cursor
      else Follows change image second secondOther cursor := by
  split <;> rfl

@[simp]
theorem follows_currentKind {next : TokenKind → Parser γ} {nextOther : TokenKind → Parser δ} :
    Follows change result (currentKind >>= next) (currentKind >>= nextOther) cursor ↔
      Follows change result (next (headKind cursor.contents))
        (nextOther (headKind cursor.contents)) cursor :=
  follows_bind_of_ok (by rw [currentKind, Cursor.kind_eq])
    (by rw [currentKind, Cursor.kind_eq, Cursor.headKind_contents_relabel])

@[simp]
theorem follows_nextKind {next : TokenKind → Parser γ} {nextOther : TokenKind → Parser δ} :
    Follows change result (Parser.nextKind >>= next) (Parser.nextKind >>= nextOther) cursor ↔
      Follows change result (next (headKind cursor.contents.tail))
        (nextOther (headKind cursor.contents.tail)) cursor :=
  follows_bind_of_ok (by rw [Parser.nextKind, Cursor.nextKind_eq])
    (by rw [Parser.nextKind, Cursor.nextKind_eq, ← Cursor.contents_advance,
      Cursor.advance_relabel, Cursor.headKind_contents_relabel, Cursor.contents_advance])

@[simp]
theorem follows_position {next : Position → Parser γ} {nextOther : Position → Parser δ} :
    Follows change result (position >>= next) (position >>= nextOther) cursor ↔
      Follows change result (next cursor.current.span.start)
        (nextOther (change.start cursor.current.span.start)) cursor :=
  follows_bind_of_ok rfl (by rw [position, Cursor.current_relabel]; rfl)

@[simp]
theorem follows_freshId {next : NodeId → Parser γ} {nextOther : NodeId → Parser δ} :
    Follows change result (freshId >>= next) (freshId >>= nextOther) cursor ↔
      Follows change result (next cursor.nextId) (nextOther cursor.nextId)
        { cursor with nextId := cursor.nextId + 1 } :=
  follows_bind_of_ok rfl rfl

@[simp]
theorem follows_spanFrom {start otherStart : Position} {next : Span → Parser γ}
    {nextOther : Span → Parser δ} :
    Follows change result (spanFrom start >>= next) (spanFrom otherStart >>= nextOther) cursor ↔
      Follows change result (next ⟨start, cursor.previousEnd⟩)
        (nextOther ⟨otherStart, change.finish cursor.previousEnd⟩) cursor :=
  follows_bind_of_ok rfl rfl

@[simp]
theorem follows_take {next : Token → Parser γ} {nextOther : Token → Parser δ} :
    Follows change result (take >>= next) (take >>= nextOther) cursor ↔
      Follows change result (next cursor.current) (nextOther (cursor.current.relabel change))
        cursor.advance :=
  follows_bind_of_ok rfl (by rw [take, Cursor.current_relabel, Cursor.advance_relabel])

/-- A reader that fails where the other one does follows it, whatever is put
behind both. -/
theorem follows_bind_of_error {first : Parser α} {firstOther : Parser β} {failure : ParseFailure}
    (failed : first cursor = .error failure)
    (failedOther : firstOther (cursor.relabel change) = .error (failure.relabel change)) :
    Follows change result (first >>= next) (firstOther >>= nextOther) cursor := by
  unfold Follows
  rw [bind_of_error failed, bind_of_error failedOther]
  rfl

@[simp]
theorem follows_misplaced_bind {requirement : String} {next : α → Parser γ}
    {nextOther : α → Parser δ} :
    Follows change result (misplaced requirement >>= next) (misplaced requirement >>= nextOther)
      cursor := by
  have failed : Follows change (fun value : α => value) (misplaced requirement)
      (misplaced requirement) cursor := follows_misplaced
  exact follows_bind_of_error rfl failed

/-- A token of a kind is read on both sides, or the same token is not of the
kind. -/
@[simp]
theorem follows_expect {kind : TokenKind} {next : Token → Parser γ} {nextOther : Token → Parser δ} :
    Follows change result (expect kind >>= next) (expect kind >>= nextOther) cursor ↔
      (headKind cursor.contents = kind →
        Follows change result (next cursor.current) (nextOther (cursor.current.relabel change))
          cursor.advance) := by
  by_cases same : headKind cursor.contents = kind
  · have read (cursor : Cursor) (same : headKind cursor.contents = kind) :
        expect kind cursor = .ok (cursor.current, cursor.advance) := by
      rw [expect, bind_of_ok rfl, if_pos ((cursor.current_kind).trans same)]
      rfl
    have readOther := read (cursor.relabel change) ((cursor.headKind_contents_relabel).trans same)
    rw [Cursor.current_relabel, Cursor.advance_relabel] at readOther
    rw [follows_bind_of_ok (read cursor same) readOther]
    simp [same]
  · have failed (cursor : Cursor) (other : headKind cursor.contents ≠ kind) :
        expect kind cursor = .error (.fault ⟨.unexpectedToken cursor.current.kind
          cursor.current.value kind, cursor.current.span.start⟩) := by
      rw [expect, bind_of_ok rfl, if_neg fun equal => other ((cursor.current_kind).symm.trans equal)]
      rfl
    have failedOther := failed (cursor.relabel change)
      fun equal => same ((cursor.headKind_contents_relabel).symm.trans equal)
    rw [Cursor.current_relabel] at failedOther
    simpa [same] using follows_bind_of_error (failed cursor same) failedOther

@[simp]
theorem follows_expectOr {kind : TokenKind} {requirement : String} {next : Token → Parser γ}
    {nextOther : Token → Parser δ} :
    Follows change result (expectOr kind requirement >>= next)
        (expectOr kind requirement >>= nextOther) cursor ↔
      (headKind cursor.contents = kind →
        Follows change result (next cursor.current) (nextOther (cursor.current.relabel change))
          cursor.advance) := by
  by_cases same : headKind cursor.contents = kind <;>
    simp [expectOr, same]

end Rules

/-- What a round decides, relabelled. -/
def Round.relabel {σ α : Type} (state : σ → σ) (result : α → α) : Round σ α → Round σ α
  | again next => .again (state next)
  | done found => .done (result found)

variable {σ α : Type} {change : Relabelling} {image : α → α}

/-- A repetition follows itself if its rounds do. -/
theorem follows_rounds {round : σ → Parser (Round σ α)} (imageState : σ → σ)
    (image : α → α)
    (step : ∀ state cursor, Follows change (Round.relabel imageState image)
      (round state) (round (imageState state)) cursor)
    (state : σ) (cursor : Cursor) :
    Follows change image (rounds round state) (rounds round (imageState state)) cursor := by
  fun_induction rounds round state cursor with
  | case1 state cursor failure failed =>
      have first := step state cursor
      rw [Follows, failed] at first
      rw [Follows, rounds, rounds, first, failed]
      rfl
  | case2 state cursor result behind read =>
      have first := step state cursor
      rw [Follows, read] at first
      rw [Follows, rounds, rounds, first, read]
      rfl
  | case3 state cursor next behind read shorter inductionHypothesis =>
      have first := step state cursor
      rw [Follows, read] at first
      rw [Follows, rounds, rounds, first, read]
      simpa [relabelOutcome, Round.relabel, shorter, Follows] using inductionHypothesis
  | case4 state cursor next behind read stalled =>
      have first := step state cursor
      rw [Follows, read] at first
      rw [Follows, rounds, rounds, first, read]
      simp [relabelOutcome, Round.relabel, stalled, ParseFailure.relabel]

/-- A nested phrase follows itself if a level does whenever the reader for the
phrases inside it does. -/
theorem follows_nesting {level : Parser α → Parser α}
    (step : ∀ nested, (∀ inner, Follows change image nested nested inner) →
      ∀ cursor, Follows change image (level nested) (level nested) cursor)
    (cursor : Cursor) : Follows change image (nesting level) (nesting level) cursor := by
  induction size : cursor.remaining using Nat.strongRecOn generalizing cursor with
  | ind size inductionHypothesis =>
      unfold Follows
      rw [nesting, nesting, Cursor.remaining_relabel]
      refine step _ (fun inner => ?_) cursor
      by_cases shorter : inner.remaining < cursor.remaining
      · simpa [Follows, shorter] using inductionHypothesis inner.remaining (size ▸ shorter) inner rfl
      · simp [Follows, shorter, relabelOutcome, ParseFailure.relabel]

theorem follows_commaSeparated {phrase : Parser α}
    (each : ∀ cursor, Follows change image phrase phrase cursor) (cursor : Cursor) :
    Follows change (List.map image) (commaSeparated phrase) (commaSeparated phrase) cursor := by
  refine follows_rounds (List.map image) _ (fun collected cursor => ?_) [] cursor
  refine (each cursor).bind fun value behind => ?_
  simp [Round.relabel, -bind_pure_comp]

theorem follows_listUpTo {phrase : Parser α} {close : TokenKind}
    (each : ∀ cursor, Follows change image phrase phrase cursor) (cursor : Cursor) :
    Follows change (List.map image) (listUpTo close phrase) (listUpTo close phrase) cursor := by
  simp only [listUpTo, follows_currentKind, follows_ite]
  split
  · simp
  · exact follows_commaSeparated each cursor

end Parser

end KnightFront
