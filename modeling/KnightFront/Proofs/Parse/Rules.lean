import KnightFront.Parse.TypeName
import KnightFront.Proofs.Token.Lexed

namespace KnightFront

/-!
# Rules for parsers

Two judgements speak of a parser at a cursor.  `Yields` says that the parser
succeeds there with a value and a cursor that meet a condition; `Ensures` says
that they meet it whenever the parser succeeds.  Every way to build a parser
has a rewriting rule for both, so that straight code is executed by rewriting;
repetition and nesting have a rule that goes down with the tokens left.

What lies ahead of a cursor is described by the contents of the tokens, which
places do not enter.
-/

/-- The kind of the first token of a list, or else of the end of input. -/
def headKind (contents : List TokenContent) : TokenKind := (contents.head?.map Prod.fst).getD .eof

@[simp]
theorem headKind_nil : headKind [] = .eof := rfl

@[simp]
theorem headKind_cons (first : TokenContent) (rest : List TokenContent) :
    headKind (first :: rest) = first.1 := rfl

namespace Cursor

/-- The tokens ahead of a cursor, without their places. -/
def contents (cursor : Cursor) : List TokenContent := cursor.stream.ahead.map Token.content

@[simp]
theorem kind_eq (cursor : Cursor) : cursor.kind = headKind cursor.contents := by
  cases ahead : cursor.stream.ahead with
  | nil =>
      simp [kind, current, TokenStream.current, contents, ahead, cursor.stream.finish_kind]
  | cons first rest =>
      simp [kind, current, TokenStream.current, contents, ahead, Token.content]

@[simp]
theorem current_kind (cursor : Cursor) : cursor.current.kind = headKind cursor.contents :=
  cursor.kind_eq

@[simp]
theorem contents_advance (cursor : Cursor) : cursor.advance.contents = cursor.contents.tail := by
  simp [contents, advance, TokenStream.tail]

@[simp]
theorem nextKind_eq (cursor : Cursor) : cursor.nextKind = headKind cursor.contents.tail := by
  rw [← contents_advance, ← kind_eq]
  rfl

theorem current_value {cursor : Cursor} {kind : TokenKind} {value : String}
    {rest : List TokenContent} (ahead : cursor.contents = (kind, value) :: rest) :
    cursor.current.value = value := by
  rcases List.map_eq_cons_iff.mp ahead with ⟨token, others, tokens, content, -⟩
  simpa [current, TokenStream.current, tokens, Token.content] using congrArg Prod.snd content

@[simp]
theorem contents_withNextId (cursor : Cursor) (next : NodeId) :
    Cursor.contents { cursor with nextId := next } = cursor.contents := rfl

@[simp]
theorem current_withNextId (cursor : Cursor) (next : NodeId) :
    Cursor.current { cursor with nextId := next } = cursor.current := rfl

@[simp]
theorem advance_withNextId (cursor : Cursor) (next : NodeId) :
    Cursor.advance { cursor with nextId := next } = { cursor.advance with nextId := next } := rfl

theorem remaining_eq (cursor : Cursor) : cursor.remaining = cursor.contents.length := by
  simp [remaining, TokenStream.size, contents]

/-- The end of input at the end of a token list is not counted. -/
theorem contents_ofTokens {tokens : List Token} {contents : List TokenContent} {value : String}
    (spelled : tokens.map Token.content = contents ++ [(.eof, value)]) :
    (ofTokens tokens).contents = contents := by
  rcases List.map_eq_append_iff.mp spelled with ⟨front, back, rfl, first, last⟩
  rcases List.map_eq_singleton_iff.mp last with ⟨final, rfl, content⟩
  have closed : final.kind = .eof := congrArg Prod.fst content
  simp [Cursor.contents, ofTokens, TokenStream.ofTokens, closed, first]

/-- Whether every token ahead is spelled as a text can spell it. -/
def Lexed (cursor : Cursor) : Prop := cursor.stream.Lexed

theorem Lexed.advance {cursor : Cursor} (lexed : cursor.Lexed) : cursor.advance.Lexed :=
  TokenStream.Lexed.tail lexed

@[simp]
theorem lexed_withNextId (cursor : Cursor) (next : NodeId) :
    Cursor.Lexed { cursor with nextId := next } ↔ cursor.Lexed := Iff.rfl

theorem Lexed.isIdentifier {cursor : Cursor} (lexed : cursor.Lexed)
    (kind : headKind cursor.contents = .identifier) : IsIdentifier cursor.current.value :=
  (TokenStream.Lexed.current lexed).identifier (cursor.current_kind.trans kind)

theorem Lexed.isDigit {cursor : Cursor} (lexed : cursor.Lexed)
    (kind : headKind cursor.contents = .number) :
    ∀ character ∈ cursor.current.value.toList, character.isDigit = true :=
  (TokenStream.Lexed.current lexed).number (cursor.current_kind.trans kind)

end Cursor

namespace Parser

variable {α β : Type} {cursor : Cursor}

/-- A parser succeeds at a cursor, with a value and a cursor that meet a
condition. -/
def Yields (parser : Parser α) (cursor : Cursor) (post : α → Cursor → Prop) : Prop :=
  ∃ value behind, parser cursor = .ok (value, behind) ∧ post value behind

theorem yields_of_ok {parser : Parser α} {value : α} {behind : Cursor}
    {post : α → Cursor → Prop} (read : parser cursor = .ok (value, behind)) :
    Yields parser cursor post ↔ post value behind := by
  constructor
  · rintro ⟨other, further, same, holds⟩
    cases read.symm.trans same
    exact holds
  · intro holds
    exact ⟨value, behind, read, holds⟩

theorem yields_of_error {parser : Parser α} {failure : ParseFailure} {post : α → Cursor → Prop}
    (failed : parser cursor = .error failure) : Yields parser cursor post ↔ False := by
  simp [Yields, failed]

theorem Yields.mono {parser : Parser α} {first second : α → Cursor → Prop}
    (yields : Yields parser cursor first)
    (implies : ∀ value behind, first value behind → second value behind) :
    Yields parser cursor second := by
  rcases yields with ⟨value, behind, read, holds⟩
  exact ⟨value, behind, read, implies value behind holds⟩

theorem bind_of_ok {parser : Parser α} {next : α → Parser β} {value : α} {behind : Cursor}
    (read : parser cursor = .ok (value, behind)) : (parser >>= next) cursor = next value behind := by
  change (parser cursor).bind (fun found => next found.1 found.2) = _
  rw [read]
  rfl

theorem bind_of_error {parser : Parser α} {next : α → Parser β} {failure : ParseFailure}
    (failed : parser cursor = .error failure) : (parser >>= next) cursor = .error failure := by
  change (parser cursor).bind (fun found => next found.1 found.2) = _
  rw [failed]
  rfl

@[simp]
theorem yields_bind {parser : Parser α} {next : α → Parser β} {post : β → Cursor → Prop} :
    Yields (parser >>= next) cursor post ↔
      Yields parser cursor fun value behind => Yields (next value) behind post := by
  cases read : parser cursor with
  | error failure => rw [yields_of_error (bind_of_error read), yields_of_error read]
  | ok found =>
      rw [yields_of_ok read]
      simp only [Yields, bind_of_ok read]

@[simp]
theorem yields_map {parser : Parser α} {change : α → β} {post : β → Cursor → Prop} :
    Yields (change <$> parser) cursor post ↔
      Yields parser cursor fun value behind => post (change value) behind := by
  rw [← bind_pure_comp, yields_bind]
  exact ⟨(·.mono fun _ _ => (yields_of_ok rfl).mp), (·.mono fun _ _ => (yields_of_ok rfl).mpr)⟩

section Primitives

variable {post : α → Cursor → Prop}

@[simp]
theorem yields_pure {value : α} : Yields (pure value) cursor post ↔ post value cursor :=
  yields_of_ok rfl

@[simp]
theorem yields_defective {defect : ParserDefect} : Yields (defective defect) cursor post ↔ False :=
  yields_of_error rfl

@[simp]
theorem yields_faulty {cause : SyntaxFault.Cause} {position : Position} :
    Yields (faulty cause position) cursor post ↔ False :=
  yields_of_error rfl

@[simp]
theorem yields_misplaced {requirement : String} :
    Yields (misplaced requirement) cursor post ↔ False :=
  yields_of_error rfl

@[simp]
theorem yields_currentToken {post : Token → Cursor → Prop} :
    Yields currentToken cursor post ↔ post cursor.current cursor :=
  yields_of_ok rfl

@[simp]
theorem yields_currentKind {post : TokenKind → Cursor → Prop} :
    Yields currentKind cursor post ↔ post (headKind cursor.contents) cursor := by
  rw [yields_of_ok rfl, Cursor.kind_eq]

@[simp]
theorem yields_nextKind {post : TokenKind → Cursor → Prop} :
    Yields Parser.nextKind cursor post ↔ post (headKind cursor.contents.tail) cursor := by
  rw [yields_of_ok rfl, Cursor.nextKind_eq]

@[simp]
theorem yields_position {post : Position → Cursor → Prop} :
    Yields position cursor post ↔ post cursor.current.span.start cursor :=
  yields_of_ok rfl

@[simp]
theorem yields_take {post : Token → Cursor → Prop} :
    Yields take cursor post ↔ post cursor.current cursor.advance :=
  yields_of_ok rfl

@[simp]
theorem yields_freshId {post : NodeId → Cursor → Prop} :
    Yields freshId cursor post ↔
      post cursor.nextId { cursor with nextId := cursor.nextId + 1 } :=
  yields_of_ok rfl

@[simp]
theorem yields_spanFrom {start : Position} {post : Span → Cursor → Prop} :
    Yields (spanFrom start) cursor post ↔ post ⟨start, cursor.previousEnd⟩ cursor :=
  yields_of_ok rfl

@[simp]
theorem yields_expect {kind : TokenKind} {post : Token → Cursor → Prop} :
    Yields (expect kind) cursor post ↔
      headKind cursor.contents = kind ∧ post cursor.current cursor.advance := by
  by_cases same : headKind cursor.contents = kind <;> simp [expect, same]

@[simp]
theorem yields_expectOr {kind : TokenKind} {requirement : String} {post : Token → Cursor → Prop} :
    Yields (expectOr kind requirement) cursor post ↔
      headKind cursor.contents = kind ∧ post cursor.current cursor.advance := by
  by_cases same : headKind cursor.contents = kind <;> simp [expectOr, same]

end Primitives

/-- A repetition succeeds if a round does, either at the end or with fewer
tokens left for the rounds behind it. -/
theorem yields_rounds {σ : Type} {round : σ → Parser (Round σ α)} {state : σ}
    {post : α → Cursor → Prop}
    (first : Yields (round state) cursor fun outcome behind =>
      match outcome with
      | .done result => post result behind
      | .again next => behind.remaining < cursor.remaining ∧ Yields (rounds round next) behind post) :
    Yields (rounds round state) cursor post := by
  rcases first with ⟨outcome, behind, read, holds⟩
  unfold Yields
  rw [rounds, read]
  cases outcome with
  | done result => exact ⟨result, behind, rfl, holds⟩
  | again next => simpa [holds.1, Yields] using holds.2

/-- A repetition succeeds if every round, under an invariant, either ends it or
reads on and keeps the invariant. -/
theorem yields_rounds_of_invariant {σ : Type} {round : σ → Parser (Round σ α)}
    {post : α → Cursor → Prop} (invariant : σ → Cursor → Prop)
    (step : ∀ state cursor, invariant state cursor →
      Yields (round state) cursor fun outcome behind =>
        match outcome with
        | .done result => post result behind
        | .again next => behind.remaining < cursor.remaining ∧ invariant next behind)
    {state : σ} (start : invariant state cursor) : Yields (rounds round state) cursor post := by
  induction size : cursor.remaining using Nat.strongRecOn generalizing cursor state with
  | ind size inductionHypothesis =>
      refine yields_rounds ((step state cursor start).mono fun outcome behind holds => ?_)
      cases outcome with
      | done result => exact holds
      | again next =>
          exact ⟨holds.1, inductionHypothesis behind.remaining (size ▸ holds.1) holds.2 rfl⟩

/-- A nested phrase succeeds under every condition that a level meets when the
reader for the phrases inside it meets the conditions for shorter ones. -/
theorem yields_nesting {level : Parser α → Parser α}
    (spec : Cursor → (α → Cursor → Prop) → Prop)
    (step : ∀ cursor nested,
      (∀ inner post, inner.remaining < cursor.remaining → spec inner post →
        Yields nested inner post) →
      ∀ post, spec cursor post → Yields (level nested) cursor post)
    (cursor : Cursor) (post : α → Cursor → Prop) (holds : spec cursor post) :
    Yields (nesting level) cursor post := by
  induction size : cursor.remaining using Nat.strongRecOn generalizing cursor post with
  | ind size inductionHypothesis =>
      unfold Yields
      rw [nesting]
      refine step cursor _ (fun inner condition shorter within => ?_) post holds
      simp only [Yields, shorter, if_true]
      exact inductionHypothesis inner.remaining (size ▸ shorter) inner condition within rfl

/-! ## What success entails -/

/-- If a parser succeeds at a cursor, its value and cursor meet a condition. -/
def Ensures (parser : Parser α) (cursor : Cursor) (post : α → Cursor → Prop) : Prop :=
  ∀ value behind, parser cursor = .ok (value, behind) → post value behind

theorem ensures_of_ok {parser : Parser α} {value : α} {behind : Cursor}
    {post : α → Cursor → Prop} (read : parser cursor = .ok (value, behind)) :
    Ensures parser cursor post ↔ post value behind := by
  constructor
  · intro ensures
    exact ensures value behind read
  · intro holds other further same
    cases read.symm.trans same
    exact holds

theorem ensures_of_error {parser : Parser α} {failure : ParseFailure} {post : α → Cursor → Prop}
    (failed : parser cursor = .error failure) : Ensures parser cursor post ↔ True := by
  simp [Ensures, failed]

theorem Ensures.mono {parser : Parser α} {first second : α → Cursor → Prop}
    (ensures : Ensures parser cursor first)
    (implies : ∀ value behind, first value behind → second value behind) :
    Ensures parser cursor second :=
  fun value behind read => implies value behind (ensures value behind read)

theorem ensures_of_forall {parser : Parser α} {post : α → Cursor → Prop}
    (holds : ∀ value behind, post value behind) : Ensures parser cursor post :=
  fun value behind _ => holds value behind

/-- What a parser succeeds with is all that it can return. -/
theorem ensures_of_yields {parser : Parser α} {post : α → Cursor → Prop}
    (yields : Yields parser cursor post) : Ensures parser cursor post := by
  rcases yields with ⟨value, behind, read, holds⟩
  exact (ensures_of_ok read).mpr holds

/-- What a parser ensures is true of what it succeeds with. -/
theorem Yields.and {parser : Parser α} {first second : α → Cursor → Prop}
    (yields : Yields parser cursor first) (ensures : Ensures parser cursor second) :
    Yields parser cursor fun value behind => first value behind ∧ second value behind := by
  rcases yields with ⟨value, behind, read, holds⟩
  exact ⟨value, behind, read, holds, ensures value behind read⟩

theorem Ensures.and {parser : Parser α} {first second : α → Cursor → Prop}
    (left : Ensures parser cursor first) (right : Ensures parser cursor second) :
    Ensures parser cursor fun value behind => first value behind ∧ second value behind :=
  fun value behind read => ⟨left value behind read, right value behind read⟩

@[simp]
theorem ensures_bind {parser : Parser α} {next : α → Parser β} {post : β → Cursor → Prop} :
    Ensures (parser >>= next) cursor post ↔
      Ensures parser cursor fun value behind => Ensures (next value) behind post := by
  cases read : parser cursor with
  | error failure => rw [ensures_of_error (bind_of_error read), ensures_of_error read]
  | ok found =>
      rw [ensures_of_ok read]
      simp only [Ensures, bind_of_ok read]

@[simp]
theorem ensures_map {parser : Parser α} {change : α → β} {post : β → Cursor → Prop} :
    Ensures (change <$> parser) cursor post ↔
      Ensures parser cursor fun value behind => post (change value) behind := by
  rw [← bind_pure_comp, ensures_bind]
  exact ⟨(·.mono fun _ _ => (ensures_of_ok rfl).mp), (·.mono fun _ _ => (ensures_of_ok rfl).mpr)⟩

section Primitives

variable {post : α → Cursor → Prop}

@[simp]
theorem ensures_pure {value : α} : Ensures (pure value) cursor post ↔ post value cursor :=
  ensures_of_ok rfl

@[simp]
theorem ensures_defective {defect : ParserDefect} : Ensures (defective defect) cursor post ↔ True :=
  ensures_of_error rfl

@[simp]
theorem ensures_faulty {cause : SyntaxFault.Cause} {position : Position} :
    Ensures (faulty cause position) cursor post ↔ True :=
  ensures_of_error rfl

@[simp]
theorem ensures_misplaced {requirement : String} :
    Ensures (misplaced requirement) cursor post ↔ True :=
  ensures_of_error rfl

@[simp]
theorem ensures_currentToken {post : Token → Cursor → Prop} :
    Ensures currentToken cursor post ↔ post cursor.current cursor :=
  ensures_of_ok rfl

@[simp]
theorem ensures_currentKind {post : TokenKind → Cursor → Prop} :
    Ensures currentKind cursor post ↔ post (headKind cursor.contents) cursor := by
  rw [ensures_of_ok rfl, Cursor.kind_eq]

@[simp]
theorem ensures_nextKind {post : TokenKind → Cursor → Prop} :
    Ensures Parser.nextKind cursor post ↔ post (headKind cursor.contents.tail) cursor := by
  rw [ensures_of_ok rfl, Cursor.nextKind_eq]

@[simp]
theorem ensures_position {post : Position → Cursor → Prop} :
    Ensures position cursor post ↔ post cursor.current.span.start cursor :=
  ensures_of_ok rfl

@[simp]
theorem ensures_take {post : Token → Cursor → Prop} :
    Ensures take cursor post ↔ post cursor.current cursor.advance :=
  ensures_of_ok rfl

@[simp]
theorem ensures_freshId {post : NodeId → Cursor → Prop} :
    Ensures freshId cursor post ↔
      post cursor.nextId { cursor with nextId := cursor.nextId + 1 } :=
  ensures_of_ok rfl

@[simp]
theorem ensures_spanFrom {start : Position} {post : Span → Cursor → Prop} :
    Ensures (spanFrom start) cursor post ↔ post ⟨start, cursor.previousEnd⟩ cursor :=
  ensures_of_ok rfl

@[simp]
theorem ensures_expect {kind : TokenKind} {post : Token → Cursor → Prop} :
    Ensures (expect kind) cursor post ↔
      (headKind cursor.contents = kind → post cursor.current cursor.advance) := by
  by_cases same : headKind cursor.contents = kind <;> simp [expect, same]

@[simp]
theorem ensures_expectOr {kind : TokenKind} {requirement : String} {post : Token → Cursor → Prop} :
    Ensures (expectOr kind requirement) cursor post ↔
      (headKind cursor.contents = kind → post cursor.current cursor.advance) := by
  by_cases same : headKind cursor.contents = kind <;> simp [expectOr, same]

end Primitives

/-- What every round of a repetition preserves holds until it is done. -/
theorem ensures_rounds {σ : Type} {round : σ → Parser (Round σ α)} {post : α → Cursor → Prop}
    (invariant : σ → Cursor → Prop)
    (step : ∀ state cursor, invariant state cursor →
      Ensures (round state) cursor fun outcome behind =>
        match outcome with
        | .done result => post result behind
        | .again next => invariant next behind)
    {state : σ} (start : invariant state cursor) : Ensures (rounds round state) cursor post := by
  fun_induction rounds round state cursor with
  | case1 state cursor failure failed => exact (ensures_of_error (by rw [rounds, failed])).mpr trivial
  | case2 state cursor result behind read =>
      have holds := step state cursor start _ _ read
      exact (ensures_of_ok (by rw [rounds, read])).mpr holds
  | case3 state cursor next behind read shorter inductionHypothesis =>
      have holds := step state cursor start _ _ read
      have unfolded : rounds round state cursor = rounds round next behind := by
        rw [rounds, read]
        simp [shorter]
      simpa only [Ensures, unfolded] using inductionHypothesis holds
  | case4 state cursor next behind read stalled =>
      have failed : rounds round state cursor = .error (.defect .stalled) := by
        rw [rounds, read]
        simp [stalled]
      exact (ensures_of_error failed).mpr trivial

/-- What a level ensures when the reader for the phrases inside it does, the
nested phrase ensures. -/
theorem ensures_nesting {level : Parser α → Parser α} (pre : Cursor → Prop)
    (post : Cursor → α → Cursor → Prop)
    (step : ∀ nested, (∀ inner, pre inner → Ensures nested inner (post inner)) →
      ∀ cursor, pre cursor → Ensures (level nested) cursor (post cursor))
    (cursor : Cursor) (holds : pre cursor) : Ensures (nesting level) cursor (post cursor) := by
  induction size : cursor.remaining using Nat.strongRecOn generalizing cursor with
  | ind size inductionHypothesis =>
      unfold Ensures
      rw [nesting]
      refine step _ (fun inner within => ?_) cursor holds
      by_cases shorter : inner.remaining < cursor.remaining
      · simp only [Ensures, shorter, if_true]
        exact inductionHypothesis inner.remaining (size ▸ shorter) inner within rfl
      · simp [Ensures, shorter]

end Parser

end KnightFront
