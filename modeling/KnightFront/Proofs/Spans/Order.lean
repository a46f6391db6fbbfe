import KnightFront.Proofs.Parse.Compositional
import KnightFront.Proofs.Parse.Rules
import KnightFront.Proofs.Token.Places
import Mathlib.Order.Basic

namespace KnightFront

/-!
# The order of spans

Places in a file are ordered, and the tokens of a text stand one behind the
other without overlapping.  A cursor on such tokens only moves on: no token
ahead begins before the last one that was read has ended.  So a span that is
closed at the end of this token ends where it starts or behind.
-/

/-- A place is not behind another one if it is the same or comes before. -/
instance : Preorder Position where
  le first second := first = second ∨ first.Precedes second
  le_refl position := .inl rfl
  le_trans first second third := by
    rintro (rfl | early) (rfl | late)
    · exact .inl rfl
    · exact .inr late
    · exact .inr early
    · exact .inr (early.trans late)

theorem Position.le_after (position : Position) (text : List Char) :
    position ≤ position.after text := by
  by_cases nothing : text = []
  · exact .inl (by rw [nothing, after_nil])
  · exact .inr (precedes_after nothing position)

namespace Span

/-- A span does not end before it starts. -/
def Ordered (span : Span) : Prop := span.start ≤ span.finish

/-- A span that does not end before it starts lies between two places. -/
structure Between (low high : Position) (span : Span) : Prop where
  low_le : low ≤ span.start
  ordered : span.Ordered
  le_high : span.finish ≤ high

/-- A span begins no later and ends no earlier than another. -/
structure Contains (outer inner : Span) : Prop where
  start_le : outer.start ≤ inner.start
  finish_le : inner.finish ≤ outer.finish

/-- A span ends before another one starts, or just there. -/
def Before (first second : Span) : Prop := first.finish ≤ second.start

theorem Contains.refl (span : Span) : span.Contains span := ⟨le_refl _, le_refl _⟩

theorem Contains.trans {outer middle inner : Span} (first : outer.Contains middle)
    (second : middle.Contains inner) : outer.Contains inner :=
  ⟨first.start_le.trans second.start_le, second.finish_le.trans first.finish_le⟩

namespace Between

variable {low lower high higher : Position} {span : Span}

theorem mono (between : span.Between low high) (low_le : lower ≤ low) (le_high : high ≤ higher) :
    span.Between lower higher :=
  ⟨low_le.trans between.low_le, between.ordered, between.le_high.trans le_high⟩

theorem low_le_high (between : span.Between low high) : low ≤ high :=
  between.low_le.trans (between.ordered.trans between.le_high)

theorem contains {outer : Span} (between : span.Between outer.start outer.finish) :
    outer.Contains span :=
  ⟨between.low_le, between.le_high⟩

end Between

end Span

/-- Tokens stand behind a place, each behind the end of the one before it. -/
def TokensFollow : Position → List Token → Prop
  | _, [] => True
  | place, first :: rest =>
      place ≤ first.span.start ∧ first.span.Ordered ∧ TokensFollow first.span.finish rest

theorem TokensFollow.mono {earlier place : Position} {tokens : List Token}
    (follow : TokensFollow place tokens) (le : earlier ≤ place) : TokensFollow earlier tokens := by
  cases tokens with
  | nil => trivial
  | cons first rest => exact ⟨le.trans follow.1, follow.2⟩

/-- The tokens of a text follow its start, and the end of input behind them takes
no room. -/
theorem tokensFollow_tokensFrom {position : Position} {text : List Char} {tokens : List Token}
    (read : tokensFrom position text = .ok tokens) :
    TokensFollow position tokens ∧ ∃ front place, tokens = front ++ [.endOfInput place] := by
  fun_induction tokensFrom position text generalizing tokens with
  | case1 position =>
      cases read
      exact ⟨⟨le_refl _, le_refl position, trivial⟩, [], position, rfl⟩
  | case2 | case3 => cases read
  | case4 position head tail lexeme =>
      rename_i rest _ inductionHypothesis
      cases read
      obtain ⟨follow, closed⟩ := inductionHypothesis rest
      exact ⟨follow.mono (position.le_after lexeme.text), closed⟩
  | case5 position head tail lexeme =>
      rename_i rest _ _ _ inductionHypothesis
      cases read
      obtain ⟨follow, front, place, closed⟩ := inductionHypothesis rest
      exact ⟨⟨le_refl _, position.le_after lexeme.text, follow⟩,
        _ :: front, place, by rw [closed, List.cons_append]⟩

namespace Cursor

/-- The tokens ahead of a cursor follow the end of the last token that was read.
The end of input, which is read again and again, takes no room. -/
structure Ordered (cursor : Cursor) : Prop where
  ahead : TokensFollow cursor.previousEnd (cursor.stream.ahead ++ [cursor.stream.finish])
  finish : cursor.stream.finish.span.finish ≤ cursor.stream.finish.span.start

/-- From a cursor on ordered tokens, reading has come to another. -/
structure Reaches (cursor behind : Cursor) : Prop where
  ordered : behind.Ordered
  previousEnd_le : cursor.previousEnd ≤ behind.previousEnd
  start_le : cursor.current.span.start ≤ behind.current.span.start

variable {cursor behind : Cursor}

@[simp]
theorem ordered_withNextId (next : NodeId) :
    Ordered { cursor with nextId := next } ↔ cursor.Ordered :=
  ⟨fun ordered => ⟨ordered.ahead, ordered.finish⟩, fun ordered => ⟨ordered.ahead, ordered.finish⟩⟩

@[simp]
theorem reaches_withNextId (next : NodeId) :
    Reaches { cursor with nextId := next } behind ↔ cursor.Reaches behind :=
  ⟨fun reaches => ⟨reaches.ordered, reaches.previousEnd_le, reaches.start_le⟩,
    fun reaches => ⟨reaches.ordered, reaches.previousEnd_le, reaches.start_le⟩⟩

namespace Ordered

variable (ordered : cursor.Ordered)

include ordered

/-- What is known of the token under the cursor and of those behind it. -/
theorem step : cursor.previousEnd ≤ cursor.current.span.start ∧ cursor.current.span.Ordered ∧
    cursor.advance.Ordered := by
  rcases cursor with ⟨⟨ahead, finish, kind⟩, previousEnd, nextId⟩
  obtain ⟨follow, closed⟩ := ordered
  cases ahead with
  | nil =>
      obtain ⟨behind, forward, -⟩ := follow
      exact ⟨behind, forward, ⟨⟨closed, forward, trivial⟩, closed⟩⟩
  | cons first rest =>
      obtain ⟨behind, forward, further⟩ := follow
      exact ⟨behind, forward, ⟨further, closed⟩⟩

theorem previousEnd_le : cursor.previousEnd ≤ cursor.current.span.start := ordered.step.1

theorem current : cursor.current.span.Ordered := ordered.step.2.1

theorem advance : cursor.advance.Ordered := ordered.step.2.2

theorem reaches : cursor.Reaches cursor := ⟨ordered, le_refl _, le_refl _⟩

/-- A token that is read lies where it stands. -/
theorem between :
    cursor.current.span.Between cursor.current.span.start cursor.advance.previousEnd :=
  ⟨le_refl _, ordered.current, le_refl _⟩

/-- A token is read to its end. -/
theorem start_le_advance : cursor.current.span.start ≤ cursor.advance.previousEnd :=
  ordered.current

theorem previousEnd_le_advance : cursor.previousEnd ≤ cursor.advance.previousEnd :=
  ordered.previousEnd_le.trans ordered.start_le_advance

theorem reaches_advance : cursor.Reaches cursor.advance :=
  ⟨ordered.advance, ordered.previousEnd_le_advance,
    ordered.start_le_advance.trans ordered.advance.previousEnd_le⟩

end Ordered

theorem Reaches.trans {between : Cursor} (early : cursor.Reaches between)
    (late : between.Reaches behind) : cursor.Reaches behind :=
  ⟨late.ordered, early.previousEnd_le.trans late.previousEnd_le, early.start_le.trans late.start_le⟩

/-- A cursor on the tokens of a text is ordered. -/
theorem ordered_ofTokens {file source : String} {tokens : List Token}
    (tokenized : tokenize file source = .ok tokens) : (ofTokens tokens).Ordered := by
  obtain ⟨follow, front, place, rfl⟩ := tokensFollow_tokensFrom tokenized
  have stream : TokenStream.ofTokens (front ++ [.endOfInput place]) =
      ⟨front, .endOfInput place, rfl⟩ := by
    simp [TokenStream.ofTokens, Token.endOfInput]
  rw [ofTokens, stream]
  refine ⟨?_, le_refl place⟩
  cases front with
  | nil => exact ⟨le_refl _, follow.2⟩
  | cons first rest => exact ⟨le_refl _, follow.2⟩

end Cursor

namespace Parser

variable {α β : Type}

/-- A parser moves on in the text, and its value is as it should be. -/
def Gives (holds : α → Prop) (parser : Parser α) : Prop :=
  ∀ cursor : Cursor, cursor.Ordered → Ensures parser cursor fun value behind =>
    cursor.Reaches behind ∧ holds value

/-- A parser moves on in the text. -/
abbrev Moves (parser : Parser α) : Prop := Gives (fun _ => True) parser

/-- A parser moves on in the text, and its value is as it should be between the
start of the token where it begins and the end of the last one that it reads. -/
def Fits (holds : Position → Position → α → Prop) (parser : Parser α) : Prop :=
  ∀ cursor : Cursor, cursor.Ordered → Ensures parser cursor fun value behind =>
    cursor.Reaches behind ∧ holds cursor.current.span.start behind.previousEnd value

theorem Fits.gives {given : α → Prop} {holds : Position → Position → α → Prop} {parser : Parser α}
    (fits : Fits holds parser) (implies : ∀ low high value, holds low high value → given value) :
    Gives given parser :=
  fun cursor ordered => (fits cursor ordered).mono fun value _ facts =>
    ⟨facts.1, implies _ _ value facts.2⟩

/-- A phrase fits if a phrase with fitting phrases inside it does. -/
theorem Fits.nesting {holds : Position → Position → α → Prop} {level : Parser α → Parser α}
    (step : ∀ nested, Fits holds nested → Fits holds (level nested)) :
    Fits holds (nesting level) :=
  ensures_nesting Cursor.Ordered
    (fun cursor value behind => cursor.Reaches behind ∧
      holds cursor.current.span.start behind.previousEnd value) step

/-- Handing out an identity reads nothing. -/
theorem Fits.fresh {holds : Position → Position → α → Prop} {next : NodeId → Parser α}
    (fits : ∀ id, Fits holds (next id)) : Fits holds (freshId >>= next) := by
  intro cursor ordered
  rw [ensures_bind, ensures_freshId]
  refine (fits _ _ ((Cursor.ordered_withNextId _).mpr ordered)).mono fun value behind facts => ?_
  exact ⟨(Cursor.reaches_withNextId _).mp facts.1, facts.2⟩

/-- A phrase notes where it begins and takes an identity. -/
theorem Fits.begin {holds : Position → Position → α → Prop} {next : Position → NodeId → Parser α}
    (fits : ∀ id (cursor : Cursor), cursor.Ordered →
      Ensures (next cursor.current.span.start id) cursor fun value behind =>
        cursor.Reaches behind ∧ holds cursor.current.span.start behind.previousEnd value) :
    Fits holds (do
      let start ← position
      let id ← freshId
      next start id) := by
  intro cursor ordered
  rw [ensures_bind, ensures_position]
  exact Fits.fresh fits cursor ordered

namespace Gives

variable {given : α → Prop} {holds : β → Prop}

theorem bind {parser : Parser α} {next : α → Parser β} (first : Gives given parser)
    (second : ∀ value, given value → Gives holds (next value)) : Gives holds (parser >>= next) := by
  intro cursor ordered
  rw [ensures_bind]
  refine (first cursor ordered).mono fun value between early => ?_
  exact (second value early.2 between early.1.ordered).mono fun result behind late =>
    ⟨early.1.trans late.1, late.2⟩

theorem pure {value : β} (given : holds value) : Gives holds (Pure.pure value) :=
  fun _ ordered => ensures_pure.mpr ⟨ordered.reaches, given⟩

theorem misplaced (requirement : String) : Gives holds (misplaced requirement) :=
  fun _ _ => ensures_misplaced.mpr trivial

theorem currentKind : Moves currentKind :=
  fun _ ordered => ensures_currentKind.mpr ⟨ordered.reaches, trivial⟩

theorem nextKind : Moves Parser.nextKind :=
  fun _ ordered => ensures_nextKind.mpr ⟨ordered.reaches, trivial⟩

theorem position : Moves position :=
  fun _ ordered => ensures_position.mpr ⟨ordered.reaches, trivial⟩

theorem spanFrom (start : Position) : Moves (spanFrom start) :=
  fun _ ordered => ensures_spanFrom.mpr ⟨ordered.reaches, trivial⟩

theorem freshId : Moves freshId :=
  fun _ ordered => ensures_freshId.mpr ⟨(Cursor.reaches_withNextId _).mp
    ((Cursor.ordered_withNextId _).mpr ordered).reaches, trivial⟩

theorem take : Moves take :=
  fun _ ordered => ensures_take.mpr ⟨ordered.reaches_advance, trivial⟩

theorem expect (kind : TokenKind) : Moves (expect kind) :=
  fun _ ordered => ensures_expect.mpr fun _ => ⟨ordered.reaches_advance, trivial⟩

/-- What every round keeps holds at the end. -/
theorem rounds {σ : Type} {round : σ → Parser (Round σ β)} (kept : σ → Prop)
    (step : ∀ state, kept state → Gives (fun
      | .done result => holds result
      | .again next => kept next) (round state))
    {state : σ} (start : kept state) : Gives holds (rounds round state) := by
  intro cursor ordered
  refine ensures_rounds (fun state inner => cursor.Reaches inner ∧ kept state)
    (fun state inner held => ?_) ⟨ordered.reaches, start⟩
  refine (step state held.2 inner held.1.ordered).mono fun outcome behind facts => ?_
  cases outcome <;> exact ⟨held.1.trans facts.1, facts.2⟩

end Gives

/-- A reader that moves on is made of steps that do. -/
theorem compositional_moves : Compositional Moves where
  pure value := .pure trivial
  bind first second := first.bind fun value _ => second value
  rounds step state := by
    refine Gives.rounds (fun _ => True) (fun next _ cursor ordered => ?_) trivial
    refine (step next cursor ordered).mono fun outcome behind facts => ⟨facts.1, ?_⟩
    cases outcome <;> trivial
  currentKind := Gives.currentKind
  nextKind := Gives.nextKind
  position := Gives.position
  take := Gives.take
  expect := Gives.expect
  spanFrom := Gives.spanFrom
  misplaced := Gives.misplaced

end Parser
end KnightFront
