import KnightFront.Proofs.Grammar.Phrases

namespace KnightFront
namespace Grammar

/-!
# Reading a form

A parser reads a form at a cursor if it is right about it in both directions.
Where it succeeds, the form stands between the cursor and the one behind; and
wherever the form stands in front of a token that may follow it, the parser
succeeds and stops there.  What may follow is part of the judgement, since a
parser takes as much as it can.

There is one rule for each way to build a parser and a form.  Steps that read
nothing are dropped by rewriting.
-/

open KnightFront.Parser (Ensures Yields Round)

variable {α β σ : Type} {cursor : Cursor} {form first second body : Form}
variable {follow inside : TokenKind → Prop}

/-- A parser reads a form in front of the tokens that may follow it, and what
it returns meets a condition. -/
structure Reads (parser : Parser α) (cursor : Cursor) (form : Form) (follow : TokenKind → Prop)
    (holds : α → Prop := fun _ => True) : Prop where
  sound : Ensures parser cursor fun value behind =>
    Between .accepted form cursor.contents behind.contents ∧ holds value
  complete (rest : List TokenContent) :
    Between .accepted form cursor.contents rest → follow (headKind rest) →
      Yields parser cursor fun _ behind => behind.contents = rest

/-- Any token may follow. -/
def anything (_ : TokenKind) : Prop := True

theorem anything_of_mem {kinds : List TokenKind} : ∀ kind ∈ kinds, anything kind :=
  fun _ _ => trivial

/-- Only one token may follow. -/
def only (kind : TokenKind) (following : TokenKind) : Prop := following = kind

instance (kind following : TokenKind) : Decidable (only kind following) :=
  inferInstanceAs (Decidable (_ = _))

/-- Any token but one may follow. -/
def except (kind : TokenKind) (following : TokenKind) : Prop := following ≠ kind

instance (kind following : TokenKind) : Decidable (except kind following) :=
  inferInstanceAs (Decidable (_ ≠ _))

section Rules

variable {parser : Parser α} {next : α → Parser β} {holds : α → Prop} {expected : β → Prop}

/-- Where the form stands, the parser returns a value that meets the
condition. -/
theorem Reads.yields (reads : Reads parser cursor form follow holds) {rest : List TokenContent}
    (between : Between .accepted form cursor.contents rest) (follows : follow (headKind rest)) :
    Yields parser cursor fun value behind => holds value ∧ behind.contents = rest :=
  ((reads.complete rest between follows).and reads.sound).mono fun _ _ facts =>
    ⟨facts.2.2, facts.1⟩

/-- What is known of the value may be forgotten in part. -/
theorem Reads.weaken {weaker : α → Prop} (reads : Reads parser cursor form follow holds)
    (implies : ∀ value, holds value → weaker value) : Reads parser cursor form follow weaker where
  sound := reads.sound.mono fun value _ facts => ⟨facts.1, implies value facts.2⟩
  complete := reads.complete

/-- A form may be replaced by one that stands at the same places. -/
theorem Reads.congr {other : Form} (reads : Reads parser cursor form follow holds)
    (there : ∀ rest, Between .accepted form cursor.contents rest →
      Between .accepted other cursor.contents rest)
    (back : ∀ rest, Between .accepted other cursor.contents rest → follow (headKind rest) →
      Between .accepted form cursor.contents rest) :
    Reads parser cursor other follow holds where
  sound := reads.sound.mono fun _ behind facts => ⟨there behind.contents facts.1, facts.2⟩
  complete rest between follows := reads.complete rest (back _ between follows) follows

/-- Two forms that stand at the same places. -/
theorem Reads.same {other : Form} (reads : Reads parser cursor form follow holds)
    (same : ∀ rest, Between .accepted form cursor.contents rest ↔
      Between .accepted other cursor.contents rest) :
    Reads parser cursor other follow holds :=
  reads.congr (fun rest => (same rest).mp) fun rest between _ => (same rest).mpr between

/-- Less may follow than the parser can stand. -/
theorem Reads.mono (reads : Reads parser cursor form inside holds)
    (fewer : ∀ kind, follow kind → inside kind) : Reads parser cursor form follow holds where
  sound := reads.sound
  complete rest between follows := reads.complete rest between (fewer _ follows)

theorem reads_phrase {phrase : Phrase} :
    Reads parser cursor (.phrase phrase) follow holds ↔
      Reads parser cursor (phrase.rule .accepted) follow holds := by
  constructor <;> intro reads
  · exact reads.congr (fun _ => between_phrase.mp) fun _ between _ => between_phrase.mpr between
  · exact reads.congr (fun _ => between_phrase.mpr) fun _ between _ => between_phrase.mp between

theorem reads_append_assoc {third : Form} :
    Reads parser cursor (first ++ second ++ third) follow holds ↔
      Reads parser cursor (first ++ (second ++ third)) follow holds := by
  constructor <;> intro reads
  · exact reads.congr (fun _ => between_append_assoc.mp) fun _ between _ =>
      between_append_assoc.mpr between
  · exact reads.congr (fun _ => between_append_assoc.mpr) fun _ between _ =>
      between_append_assoc.mp between

/-- One form behind the other.  What stands second has to be able to follow
the first. -/
theorem Reads.bind (firstReads : Reads parser cursor first inside holds)
    (nextReads : ∀ value behind, holds value →
      Between .accepted first cursor.contents behind.contents →
        Reads (next value) behind second follow expected)
    (fits : ∀ middle rest, Between .accepted second middle rest → follow (headKind rest) →
      inside (headKind middle)) :
    Reads (parser >>= next) cursor (first ++ second) follow expected where
  sound := by
    rw [Parser.ensures_bind]
    intro value middle read
    rcases firstReads.sound value middle read with ⟨front, known⟩
    exact (nextReads value middle known front).sound.mono fun _ behind facts =>
      ⟨front.append facts.1, facts.2⟩
  complete := by
    intro rest between follows
    rcases between_append.mp between with ⟨middle, front, back⟩
    rw [Parser.yields_bind]
    refine (firstReads.yields front (fits middle rest back follows)).mono
      fun value behind facts => ?_
    rcases facts with ⟨known, rfl⟩
    exact (nextReads value behind known front).complete rest back follows

/-- Behind a form that ends by itself anything can stand. -/
theorem Reads.andThen (firstReads : Reads parser cursor first anything holds)
    (nextReads : ∀ value behind, holds value →
      Between .accepted first cursor.contents behind.contents →
        Reads (next value) behind second follow expected) :
    Reads (parser >>= next) cursor (first ++ second) follow expected :=
  firstReads.bind nextReads fun _ _ _ _ => trivial

/-- A form that ends by itself and the next one, where it does not matter how
the first has been read. -/
theorem Reads.step (firstReads : Reads parser cursor first anything holds)
    (nextReads : ∀ value behind, Reads (next value) behind second follow expected) :
    Reads (parser >>= next) cursor (first ++ second) follow expected :=
  firstReads.andThen fun value behind _ _ => nextReads value behind

/-- A form that is told from what can stand behind it and the next one, where
it does not matter how the first has been read. -/
theorem Reads.before (firstReads : Reads parser cursor first inside holds)
    (fits : ∀ middle rest, Between .accepted second middle rest → follow (headKind rest) →
      inside (headKind middle))
    (nextReads : ∀ value behind, Reads (next value) behind second follow expected) :
    Reads (parser >>= next) cursor (first ++ second) follow expected :=
  firstReads.bind (fun value behind _ _ => nextReads value behind) fits

theorem reads_append_nothing :
    Reads parser cursor (form ++ .nothing) follow holds ↔
      Reads parser cursor form follow holds := by
  constructor <;> intro reads
  · exact reads.congr (fun _ between => by simpa using between) fun _ between _ => by
      simpa using between
  · exact reads.congr (fun _ between => by simpa using between) fun _ between _ => by
      simpa using between

theorem reads_nothing_append :
    Reads parser cursor (.nothing ++ form) follow holds ↔
      Reads parser cursor form follow holds := by
  constructor <;> intro reads
  · exact reads.congr (fun _ between => by simpa using between) fun _ between _ => by
      simpa using between
  · exact reads.congr (fun _ between => by simpa using between) fun _ between _ => by
      simpa using between

/-- The last form of a sequence. -/
theorem Reads.last (reads : Reads parser cursor form follow holds)
    (nextReads : ∀ value behind, holds value →
      Between .accepted form cursor.contents behind.contents →
        Reads (next value) behind .nothing follow expected) :
    Reads (parser >>= next) cursor form follow expected := by
  refine reads_append_nothing.mp (reads.bind nextReads fun middle rest same follows => ?_)
  exact between_nothing.mp same ▸ follows

/-- The last form of a sequence, where it does not matter how it has been
read. -/
theorem Reads.ending (reads : Reads parser cursor form follow holds)
    (nextReads : ∀ value behind, Reads (next value) behind .nothing follow expected) :
    Reads (parser >>= next) cursor form follow expected :=
  reads.last fun value behind _ _ => nextReads value behind

@[simp]
theorem reads_pure {value : α} :
    Reads (pure value) cursor .nothing follow holds ↔ holds value := by
  constructor
  · intro reads
    exact ((Parser.ensures_pure).mp reads.sound).2
  · intro known
    exact ⟨by simpa using known, by simp⟩

/-- A step that moves to no other token and always succeeds reads nothing. -/
theorem reads_nothing_of_yields
    (yields : Yields parser cursor fun value behind =>
      holds value ∧ behind.contents = cursor.contents) :
    Reads parser cursor .nothing follow holds := by
  rcases yields with ⟨value, behind, read, known, same⟩
  constructor
  · rw [Parser.ensures_of_ok read, between_nothing]
    exact ⟨same.symm, known⟩
  · intro rest between _
    rw [Parser.yields_of_ok read]
    exact same.trans (between_nothing.mp between)

/-- Such a step can stand in front. -/
theorem Reads.silently (reads : Reads parser cursor .nothing anything holds)
    (nextReads : ∀ value behind, holds value → behind.contents = cursor.contents →
      Reads (next value) behind form follow expected) :
    Reads (parser >>= next) cursor form follow expected :=
  reads_nothing_append.mp (reads.andThen fun value behind known same =>
    nextReads value behind known (between_nothing.mp same).symm)

theorem reads_bind_of_ok {value : α} {behind : Cursor} (read : parser cursor = .ok (value, behind))
    (same : behind.contents = cursor.contents) :
    Reads (parser >>= next) cursor form follow expected ↔
      Reads (next value) behind form follow expected := by
  constructor
  · rintro ⟨sound, complete⟩
    simp only [Parser.ensures_bind, Parser.ensures_of_ok read, Parser.yields_bind,
      Parser.yields_of_ok read, ← same] at sound complete
    exact ⟨sound, complete⟩
  · rintro ⟨sound, complete⟩
    constructor
    · simpa only [Parser.ensures_bind, Parser.ensures_of_ok read, same] using sound
    · simpa only [Parser.yields_bind, Parser.yields_of_ok read, same] using complete

@[simp]
theorem reads_map {change : α → β} :
    Reads (change <$> parser) cursor form follow expected ↔
      Reads parser cursor form follow fun value => expected (change value) := by
  constructor
  · rintro ⟨sound, complete⟩
    simp only [Parser.ensures_map, Parser.yields_map] at sound complete
    exact ⟨sound, complete⟩
  · rintro ⟨sound, complete⟩
    constructor
    · simpa only [Parser.ensures_map] using sound
    · simpa only [Parser.yields_map] using complete

@[simp]
theorem reads_spanFrom {start : Position} {holds : Span → Prop} :
    Reads (Parser.spanFrom start) cursor .nothing follow holds ↔
      holds ⟨start, cursor.previousEnd⟩ := by
  rw [← bind_pure (Parser.spanFrom start), reads_bind_of_ok rfl rfl, reads_pure]

@[simp]
theorem reads_bind_freshId {next : NodeId → Parser β} :
    Reads (Parser.freshId >>= next) cursor form follow expected ↔
      Reads (next cursor.nextId) { cursor with nextId := cursor.nextId + 1 } form follow
        expected :=
  reads_bind_of_ok rfl rfl

@[simp]
theorem reads_bind_position {next : Position → Parser β} :
    Reads (Parser.position >>= next) cursor form follow expected ↔
      Reads (next cursor.current.span.start) cursor form follow expected :=
  reads_bind_of_ok rfl rfl

@[simp]
theorem reads_bind_spanFrom {start : Position} {next : Span → Parser β} :
    Reads (Parser.spanFrom start >>= next) cursor form follow expected ↔
      Reads (next ⟨start, cursor.previousEnd⟩) cursor form follow expected :=
  reads_bind_of_ok rfl rfl

@[simp]
theorem reads_bind_currentKind {next : TokenKind → Parser β} :
    Reads (Parser.currentKind >>= next) cursor form follow expected ↔
      Reads (next (headKind cursor.contents)) cursor form follow expected := by
  rw [← cursor.kind_eq]
  exact reads_bind_of_ok rfl rfl

@[simp]
theorem reads_bind_nextKind {next : TokenKind → Parser β} :
    Reads (Parser.nextKind >>= next) cursor form follow expected ↔
      Reads (next (headKind cursor.contents.tail)) cursor form follow expected := by
  rw [← cursor.nextKind_eq]
  exact reads_bind_of_ok rfl rfl

/-! ## Tokens -/

/-- A token that has been looked at is read. -/
theorem reads_take {kind : TokenKind} (found : headKind cursor.contents = kind)
    (plain : kind ≠ .eof ∧ kind ≠ .number) :
    Reads Parser.take cursor (.token kind) follow where
  sound := by simp [between_token plain.1 plain.2, found]
  complete := by
    intro rest between _
    simpa using ((between_token plain.1 plain.2).mp between).2

theorem reads_expect {kind : TokenKind} (plain : kind ≠ .eof ∧ kind ≠ .number) :
    Reads (Parser.expect kind) cursor (.token kind) follow where
  sound := by simp +contextual [between_token plain.1 plain.2]
  complete := by
    intro rest between _
    simpa using (between_token plain.1 plain.2).mp between

theorem reads_expectOr {kind : TokenKind} {requirement : String}
    (plain : kind ≠ .eof ∧ kind ≠ .number) :
    Reads (Parser.expectOr kind requirement) cursor (.token kind) follow where
  sound := by simp +contextual [between_token plain.1 plain.2]
  complete := by
    intro rest between _
    simpa using (between_token plain.1 plain.2).mp between

/-- Where the form cannot stand, the parser has to fail. -/
theorem reads_misplaced {requirement : String}
    (impossible : ∀ rest, ¬ Between .accepted form cursor.contents rest) :
    Reads (Parser.misplaced requirement) cursor form follow holds where
  sound := by simp
  complete rest between := absurd between (impossible rest)

theorem reads_bind_misplaced {requirement : String}
    (impossible : ∀ rest, ¬ Between .accepted form cursor.contents rest) :
    Reads (Parser.misplaced requirement >>= next) cursor form follow expected where
  sound := by simp
  complete rest between := absurd between (impossible rest)

/-- The first of two forms, where the second cannot stand. -/
theorem Reads.left (reads : Reads parser cursor first follow holds)
    (other : ∀ rest, Between .accepted second cursor.contents rest → ¬ follow (headKind rest)) :
    Reads parser cursor (first ||| second) follow holds :=
  reads.congr (fun _ between => between_or.mpr (.inl between)) fun rest between follows =>
    (between_or.mp between).resolve_right fun possible => other rest possible follows

/-- The second of two forms, where the first cannot stand. -/
theorem Reads.right (reads : Reads parser cursor second follow holds)
    (other : ∀ rest, ¬ Between .accepted first cursor.contents rest) :
    Reads parser cursor (first ||| second) follow holds :=
  reads.congr (fun _ between => between_or.mpr (.inr between)) fun rest between _ =>
    (between_or.mp between).resolve_left (other rest)

/-- A form that may be missing and is there, since what is ahead cannot
follow. -/
theorem Reads.present (reads : Reads parser cursor body follow holds)
    (more : ¬ follow (headKind cursor.contents)) :
    Reads parser cursor (.optional body) follow holds :=
  reads.left fun _ between => between_nothing.mp between ▸ more

/-- A form that may be missing and is not there. -/
theorem Reads.absent (reads : Reads parser cursor .nothing follow holds)
    (other : ∀ rest, ¬ Between .accepted body cursor.contents rest) :
    Reads parser cursor (.optional body) follow holds :=
  reads.right other

/-- A form that may be missing in front of another one is there, since the
other one is not ahead. -/
theorem Reads.presentThen (reads : Reads parser cursor (body ++ second) follow holds)
    (more : ∀ rest, ¬ Between .accepted second cursor.contents rest) :
    Reads parser cursor (.optional body ++ second) follow holds := by
  exact reads.same fun rest => by simp only [between_optional_append, more, or_false]

/-- A form that may be missing in front of another one is not there. -/
theorem Reads.absentThen (reads : Reads parser cursor second follow holds)
    (other : ∀ rest, ¬ Between .accepted body cursor.contents rest) :
    Reads parser cursor (.optional body ++ second) follow holds := by
  refine reads.same fun rest => ?_
  rw [between_optional_append]
  simp only [between_append, other, false_and, exists_false, false_or]

end Rules

/-- A repetition reads a form if every round either ends it or leaves the same
form to be read with fewer tokens. -/
theorem reads_rounds {round : σ → Parser (Round σ α)} {holds : α → Prop}
    (invariant : σ → Cursor → Prop)
    (sound : ∀ state cursor, invariant state cursor →
      Ensures (round state) cursor fun outcome behind =>
        match outcome with
        | .done result => Between .accepted form cursor.contents behind.contents ∧ holds result
        | .again next => invariant next behind ∧ ∀ rest,
            Between .accepted form behind.contents rest →
              Between .accepted form cursor.contents rest)
    (complete : ∀ state cursor rest, invariant state cursor →
      Between .accepted form cursor.contents rest → follow (headKind rest) →
      Yields (round state) cursor fun outcome behind =>
        match outcome with
        | .done _ => behind.contents = rest
        | .again _ => behind.remaining < cursor.remaining ∧
            Between .accepted form behind.contents rest)
    {state : σ} (start : invariant state cursor) :
    Reads (Parser.rounds round state) cursor form follow holds where
  sound := by
    refine Parser.ensures_rounds
      (fun state inner => invariant state inner ∧ ∀ rest,
        Between .accepted form inner.contents rest → Between .accepted form cursor.contents rest)
      (fun state inner known => ?_) ⟨start, fun _ between => between⟩
    refine (sound state inner known.1).mono fun outcome behind facts => ?_
    cases outcome with
    | done => exact ⟨known.2 _ facts.1, facts.2⟩
    | again next => exact ⟨facts.1, fun rest between => known.2 rest (facts.2 rest between)⟩
  complete := by
    intro rest between follows
    refine Parser.yields_rounds_of_invariant
      (fun state inner => invariant state inner ∧ Between .accepted form inner.contents rest)
      (fun state inner known => ?_) ⟨start, between⟩
    refine ((complete state inner rest known.1 known.2 follows).and
      (sound state inner known.1)).mono fun outcome behind facts => ?_
    cases outcome with
    | done => exact facts.1
    | again next => exact ⟨facts.1.1, facts.2.1, facts.1.2⟩

/-- Whether a round is the last one. -/
def Ends : Round σ α → Prop
  | .done _ => True
  | .again _ => False

/-- Whether another round follows, from a state that meets a condition. -/
def GoesOn (invariant : σ → Prop) : Round σ α → Prop
  | .done _ => False
  | .again next => invariant next

/-- A repetition of a form is read if every round either ends it in front of
something else, or reads the form and goes on. -/
theorem reads_rounds_many {round : σ → Parser (Round σ α)} {kinds : List TokenKind}
    (invariant : σ → Prop) (begins : Begins .accepted body kinds) (notEnd : .eof ∉ kinds)
    (continues : ∀ kind ∈ kinds, inside kind) (ends : ∀ kind, follow kind → inside kind)
    (step : ∀ state (inner : Cursor), invariant state → inner.remaining ≤ cursor.remaining →
      Reads (round state) inner .nothing anything Ends ∧ headKind inner.contents ∉ kinds ∨
        Reads (round state) inner body inside (GoesOn invariant) ∧
          ¬ follow (headKind inner.contents))
    {state : σ} (start : invariant state) :
    Reads (Parser.rounds round state) cursor (.many body) follow := by
  refine reads_rounds (fun state inner => invariant state ∧ inner.remaining ≤ cursor.remaining)
    ?_ ?_ ⟨start, Nat.le_refl _⟩
  · intro state inner known
    rcases step state inner known.1 known.2 with ⟨reads, -⟩ | ⟨reads, -⟩
    · refine reads.sound.mono fun outcome behind facts => ?_
      cases outcome with
      | done => exact ⟨between_many.mpr (.inl (between_nothing.mp facts.1)), trivial⟩
      | again => exact facts.2.elim
    · refine reads.sound.mono fun outcome behind facts => ?_
      cases outcome with
      | done => exact facts.2.elim
      | again next =>
          have shorter := facts.1.length_le
          simp only [← Cursor.remaining_eq] at shorter
          exact ⟨⟨facts.2, Nat.le_trans shorter known.2⟩, fun rest others =>
            between_many.mpr (.inr ⟨_, facts.1, others⟩)⟩
  · intro state inner rest known between follows
    rcases step state inner known.1 known.2 with ⟨reads, other⟩ | ⟨reads, more⟩
    · rcases between_many.mp between with same | ⟨middle, first, -⟩
      · refine (reads.yields (between_nothing.mpr rfl) trivial).mono fun outcome behind facts => ?_
        cases outcome with
        | done => exact facts.2.trans same
        | again => exact facts.1.elim
      · exact absurd (begins _ _ first) other
    · rcases between_many.mp between with same | ⟨middle, first, others⟩
      · exact absurd (same ▸ follows) more
      · have goes : inside (headKind middle) := by
          rcases between_many.mp others with same | ⟨_, next, -⟩
          · exact ends _ (same ▸ follows)
          · exact continues _ (begins _ _ next)
        refine (reads.yields first goes).mono fun outcome behind facts => ?_
        cases outcome with
        | done => exact facts.1.elim
        | again next =>
            refine ⟨?_, facts.2 ▸ others⟩
            simpa only [Cursor.remaining_eq, facts.2] using begins.length_lt notEnd first

/-- A parser where fewer tokens are left than a limit. -/
def below (limit : Nat) (parser : Parser α) : Parser α := fun cursor =>
  if cursor.remaining < limit then parser cursor else .error (.defect .stalled)

theorem Reads.below {parser : Parser α} {limit : Nat} {holds : α → Prop}
    (reads : Reads parser cursor form follow holds) (fits : cursor.remaining < limit) :
    Reads (below limit parser) cursor form follow holds := by
  constructor
  · simpa only [Ensures, Grammar.below, fits, if_true] using reads.sound
  · simpa only [Yields, Grammar.below, fits, if_true] using reads.complete

theorem nesting_eq (level : Parser α → Parser α) (cursor : Cursor) :
    Parser.nesting level cursor =
      level (below cursor.remaining (Parser.nesting level)) cursor := by
  rw [Parser.nesting]
  rfl

/-- A nested phrase reads a form if its level does, given a reader that reads
it wherever fewer tokens are left. -/
theorem reads_nesting {level : Parser α → Parser α}
    (step : ∀ cursor nested,
      (∀ inner : Cursor, inner.remaining < cursor.remaining → Reads nested inner form follow) →
      Reads (level nested) cursor form follow)
    (cursor : Cursor) : Reads (Parser.nesting level) cursor form follow := by
  induction size : cursor.remaining using Nat.strongRecOn generalizing cursor with
  | ind size inductionHypothesis =>
      have reads := step cursor (below cursor.remaining (Parser.nesting level)) fun inner shorter =>
        (inductionHypothesis inner.remaining (size ▸ shorter) inner rfl).below shorter
      constructor
      · simpa only [Ensures, nesting_eq] using reads.sound
      · simpa only [Yields, nesting_eq] using reads.complete

end Grammar
end KnightFront
