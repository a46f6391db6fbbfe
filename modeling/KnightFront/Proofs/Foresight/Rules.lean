import KnightFront.Proofs.Parse.Rules

namespace KnightFront

/-!
# Two runs side by side

How far a parser looks ahead is a question about two runs.  Two streams are
twins when a number of their first tokens have the same kind and value; places
are free.  Readers that start on the same token of both are in step if they do
the same as far as the streams are known to be alike: a success is matched when
they are alike up to the token behind the new cursor, and a fault when they are
alike up to the token behind the reported one.

Of the values that are read only the form is compared, which is all that a parser
branches on.
-/

namespace TokenStream

/-- The token at an index.  Behind the last one the end of input goes on. -/
def token (stream : TokenStream) (index : Nat) : Token := stream.ahead.getD index stream.finish

/-- The stream behind its first tokens. -/
def skip (stream : TokenStream) (count : Nat) : TokenStream :=
  { stream with ahead := stream.ahead.drop count }

@[simp]
theorem skip_zero (stream : TokenStream) : stream.skip 0 = stream := rfl

@[simp]
theorem current_skip (stream : TokenStream) (count : Nat) :
    (stream.skip count).current = stream.token count := by
  simp [current, skip, token, List.headD_eq_head?_getD, List.head?_drop, List.getD_eq_getElem?_getD]

@[simp]
theorem tail_skip (stream : TokenStream) (count : Nat) :
    (stream.skip count).tail = stream.skip (count + 1) := by
  simp [tail, skip, List.tail_drop]

theorem token_of_size_le {stream : TokenStream} {index : Nat} (outside : stream.size ≤ index) :
    stream.token index = stream.finish := by
  simp [token, List.getD_eq_getElem?_getD, List.getElem?_eq_none outside]

theorem lt_size_of_kind {stream : TokenStream} {index : Nat}
    (more : (stream.token index).kind ≠ .eof) : index < stream.size := by
  rcases Nat.lt_or_ge index stream.size with inside | outside
  · exact inside
  · exact absurd (token_of_size_le outside ▸ stream.finish_kind) more

end TokenStream

/-- A cursor stands on the token at an index of a stream. -/
structure Cursor.At (cursor : Cursor) (stream : TokenStream) (index : Nat) : Prop where
  stream_eq : cursor.stream = stream.skip index
  index_le : index ≤ stream.size

namespace Cursor.At

variable {cursor : Cursor} {stream : TokenStream} {index : Nat}

theorem ofTokens (tokens : List Token) :
    (Cursor.ofTokens tokens).At (TokenStream.ofTokens tokens) 0 := ⟨rfl, Nat.zero_le _⟩

theorem current (stands : cursor.At stream index) : cursor.current = stream.token index := by
  rw [Cursor.current, stands.stream_eq, TokenStream.current_skip]

theorem kind (stands : cursor.At stream index) : cursor.kind = (stream.token index).kind :=
  congrArg Token.kind stands.current

theorem nextKind (stands : cursor.At stream index) :
    cursor.nextKind = (stream.token (index + 1)).kind := by
  calc
    cursor.nextKind = (stream.skip index).tail.current.kind := by
      rw [Cursor.nextKind, stands.stream_eq]
    _ = (stream.token (index + 1)).kind := by
      rw [TokenStream.tail_skip, TokenStream.current_skip]

theorem remaining (stands : cursor.At stream index) : cursor.remaining + index = stream.size := by
  have within := stands.index_le
  rw [Cursor.remaining, stands.stream_eq]
  simp only [TokenStream.size, TokenStream.skip, List.length_drop] at within ⊢
  omega

theorem advance (stands : cursor.At stream index) (more : (stream.token index).kind ≠ .eof) :
    cursor.advance.At stream (index + 1) where
  stream_eq := by rw [Cursor.advance, stands.stream_eq, TokenStream.tail_skip]
  index_le := TokenStream.lt_size_of_kind more

theorem withNextId (stands : cursor.At stream index) (next : NodeId) :
    Cursor.At { cursor with nextId := next } stream index := ⟨stands.stream_eq, stands.index_le⟩

end Cursor.At

/-- Two streams whose first tokens read alike. -/
structure Twins where
  first : TokenStream
  second : TokenStream
  shared : Nat
  alike : ∀ index < shared, (second.token index).content = (first.token index).content

namespace Twins

open KnightFront.Parser

variable {twins : Twins} {α β φ ψ : Type}

theorem kind_eq {index : Nat} (inside : index < twins.shared) :
    (twins.second.token index).kind = (twins.first.token index).kind :=
  congrArg Prod.fst (twins.alike index inside)

theorem value_eq {index : Nat} (inside : index < twins.shared) :
    (twins.second.token index).value = (twins.first.token index).value :=
  congrArg Prod.snd (twins.alike index inside)

/-- Two cursors stand on the same token, the second one as long as the streams are
alike up to the token behind. -/
structure Beside (twins : Twins) (index : Nat) (cursor opposite : Cursor) : Prop where
  here : cursor.At twins.first index
  there : index + 1 < twins.shared → opposite.At twins.second index

namespace Beside

variable {twins : Twins} {index : Nat} {cursor opposite : Cursor}

theorem kind_eq (beside : twins.Beside index cursor opposite) (covered : index + 1 < twins.shared) :
    opposite.current.kind = cursor.current.kind := by
  rw [(beside.there covered).current, beside.here.current]
  exact twins.kind_eq (Nat.lt_of_succ_lt covered)

theorem value_eq (beside : twins.Beside index cursor opposite) (covered : index + 1 < twins.shared) :
    opposite.current.value = cursor.current.value := by
  rw [(beside.there covered).current, beside.here.current]
  exact twins.value_eq (Nat.lt_of_succ_lt covered)

end Beside

/-- The outcome of a second run matches that of a first one that began at an
index. -/
def Matches (twins : Twins) (form : α → φ) (index : Nat)
    (mirrored : Except ParseFailure (α × Cursor)) : Except ParseFailure (α × Cursor) → Prop
  | .ok (value, behind) => ∃ further, index ≤ further ∧ behind.At twins.first further ∧
      (further + 1 < twins.shared → ∃ image past, mirrored = .ok (image, past) ∧
        form image = form value ∧ past.At twins.second further)
  | .error (.fault fault) => ∃ about, index ≤ about ∧ about ≤ twins.first.size ∧
      fault.position = (twins.first.token about).span.start ∧
      (about + 1 < twins.shared →
        mirrored = .error (.fault ⟨fault.cause, (twins.second.token about).span.start⟩))
  | .error (.defect _) => True

/-- Two readers do the same on tokens of one kind. -/
def InStepAt (twins : Twins) (kind : TokenKind) (form : α → φ) (parser mirror : Parser α) : Prop :=
  ∀ index cursor opposite, (twins.first.token index).kind = kind →
    twins.Beside index cursor opposite →
    twins.Matches form index (mirror opposite) (parser cursor)

/-- Two readers do the same on every token. -/
def InStep (twins : Twins) (form : α → φ) (parser mirror : Parser α) : Prop :=
  ∀ kind, twins.InStepAt kind form parser mirror

/-- The form of a value that no parser branches on. -/
def formless (_ : α) : Unit := ()

/-! ## Rules -/

variable {kind : TokenKind} {form : α → φ} {result : β → ψ} {index : Nat}
  {cursor opposite : Cursor}

/-- A match from a later index on is one from an earlier index on, and the second
outcome counts only as long as the streams are alike. -/
theorem Matches.mono {start : Nat} {mirrored other outcome : Except ParseFailure (α × Cursor)}
    (found : twins.Matches form index mirrored outcome) (earlier : start ≤ index)
    (same : index + 1 < twins.shared → other = mirrored) :
    twins.Matches form start other outcome := by
  match outcome, found with
  | .error (.defect _), _ => trivial
  | .error (.fault fault), ⟨about, later, within, position, failed⟩ =>
      refine ⟨about, Nat.le_trans earlier later, within, position, fun covered => ?_⟩
      rw [same (by omega), failed covered]
  | .ok (value, behind), ⟨further, later, stands, read⟩ =>
      refine ⟨further, Nat.le_trans earlier later, stands, fun covered => ?_⟩
      rw [same (by omega)]
      exact read covered

/-- What is in step on every token is so on those of one kind. -/
theorem InStepAt.always {parser mirror : Parser α} (everywhere : twins.InStep form parser mirror) :
    twins.InStepAt kind form parser mirror := everywhere kind

/-- Readers in step are put together with ones that are in step for values of the
same form. -/
theorem InStepAt.bind {parser mirror : Parser α} {next after : α → Parser β}
    (early : twins.InStepAt kind form parser mirror)
    (late : ∀ value image, form image = form value →
      twins.InStep result (next value) (after image)) :
    twins.InStepAt kind result (parser >>= next) (mirror >>= after) := by
  intro index cursor opposite standing beside
  have start := early index cursor opposite standing beside
  cases read : parser cursor with
  | error failure =>
      rw [read] at start
      rw [bind_of_error read]
      cases failure with
      | defect defect => trivial
      | fault fault =>
          rcases start with ⟨about, later, within, position, failed⟩
          exact ⟨about, later, within, position, fun covered => bind_of_error (failed covered)⟩
  | ok found =>
      rcases found with ⟨value, behind⟩
      rw [read] at start
      rw [bind_of_ok read]
      rcases start with ⟨further, later, stands, readToo⟩
      by_cases covered : further + 1 < twins.shared
      · rcases readToo covered with ⟨image, past, readImage, formed, standsToo⟩
        rw [bind_of_ok readImage]
        exact (late value image formed _ further behind past rfl ⟨stands, fun _ => standsToo⟩).mono
          later fun _ => rfl
      · -- The streams may have parted: the first run goes on with nothing beside it.
        have parted : twins.Beside further behind behind :=
          ⟨stands, fun inside => absurd inside covered⟩
        exact (late value value rfl _ further behind behind rfl parted).mono later
          fun inside => absurd inside covered

theorem InStep.bind {parser mirror : Parser α} {next after : α → Parser β}
    (early : twins.InStep form parser mirror)
    (late : ∀ value image, form image = form value →
      twins.InStep result (next value) (after image)) :
    twins.InStep result (parser >>= next) (mirror >>= after) :=
  fun kind => (early kind).bind late

theorem inStep_pure {value image : α} (formed : form image = form value) :
    twins.InStep form (pure value) (pure image) :=
  fun _ index _ opposite _ beside =>
    ⟨index, Nat.le_refl _, beside.here, fun covered =>
      ⟨image, opposite, rfl, formed, beside.there covered⟩⟩

theorem inStep_defective (defect : ParserDefect) (mirror : Parser α) :
    twins.InStep form (defective defect) mirror :=
  fun _ _ _ _ _ _ => trivial

theorem inStep_misplaced_bind (requirement : String) (next after : α → Parser β) :
    twins.InStep result (misplaced requirement >>= next) (misplaced requirement >>= after) := by
  intro kind index cursor opposite _ beside
  refine ⟨index, Nat.le_refl _, beside.here.index_le,
    congrArg (·.span.start) beside.here.current, fun covered => ?_⟩
  have stands := (beside.there covered).current
  rw [misplaced, bind_assoc, bind_of_ok rfl, beside.kind_eq covered, beside.value_eq covered, stands]
  rfl

theorem inStep_misplaced (requirement : String) :
    twins.InStep form (misplaced requirement) (misplaced requirement) := by
  simpa using inStep_misplaced_bind requirement (pure : α → Parser α) pure

theorem inStepAt_position_bind {next after : Position → Parser β}
    (late : ∀ start image, twins.InStepAt kind result (next start) (after image)) :
    twins.InStepAt kind result (position >>= next) (position >>= after) :=
  fun index cursor opposite standing beside => late _ _ index cursor opposite standing beside

theorem inStep_position : twins.InStep formless position position :=
  fun _ index _ opposite _ beside =>
    ⟨index, Nat.le_refl _, beside.here, fun covered =>
      ⟨_, opposite, rfl, rfl, beside.there covered⟩⟩

theorem inStep_freshId : twins.InStep formless freshId freshId :=
  fun _ index _ _ _ beside => ⟨index, Nat.le_refl _, beside.here.withNextId _,
    fun covered => ⟨_, _, rfl, rfl, (beside.there covered).withNextId _⟩⟩

theorem inStep_spanFrom (start image : Position) :
    twins.InStep formless (spanFrom start) (spanFrom image) :=
  fun _ index _ opposite _ beside =>
    ⟨index, Nat.le_refl _, beside.here, fun covered => ⟨_, opposite, rfl, rfl, beside.there covered⟩⟩

/-- Both runs see the kind of the token they stand on. -/
theorem inStep_currentKind_bind {next after : TokenKind → Parser β}
    (late : ∀ kind, twins.InStepAt kind result (next kind) (after kind)) :
    twins.InStep result (currentKind >>= next) (currentKind >>= after) := by
  intro kind index cursor opposite standing beside
  have seen : cursor.kind = kind := beside.here.kind.trans standing
  rw [bind_of_ok (show currentKind cursor = .ok (kind, cursor) by rw [currentKind, seen])]
  refine (late kind index cursor opposite standing beside).mono (Nat.le_refl _) fun covered => bind_of_ok ?_
  have seenToo : opposite.kind = kind := (beside.kind_eq covered).trans seen
  rw [currentKind, seenToo]

/-- Both runs see the kind of the token behind the one they stand on. -/
theorem inStep_nextKind_bind {next after : TokenKind → Parser β}
    (late : ∀ kind, twins.InStep result (next kind) (after kind)) :
    twins.InStep result (Parser.nextKind >>= next) (Parser.nextKind >>= after) := by
  intro kind index cursor opposite standing beside
  rw [bind_of_ok (show Parser.nextKind cursor = .ok (_, cursor) by
    rw [Parser.nextKind, beside.here.nextKind])]
  refine (late _ kind index cursor opposite standing beside).mono (Nat.le_refl _)
    fun covered => bind_of_ok ?_
  rw [Parser.nextKind, (beside.there covered).nextKind, twins.kind_eq (by omega)]

theorem inStepAt_take (more : kind ≠ .eof) : twins.InStepAt kind formless take take := by
  intro index cursor opposite standing beside
  refine ⟨index + 1, Nat.le_succ _, beside.here.advance (standing ▸ more), fun covered => ?_⟩
  refine ⟨_, _, rfl, rfl, (beside.there (by omega)).advance ?_⟩
  rwa [twins.kind_eq (by omega), standing]

theorem inStep_expect (wanted : TokenKind) (more : wanted ≠ .eof) :
    twins.InStep formless (expect wanted) (expect wanted) := by
  intro kind index cursor opposite standing beside
  have seen : cursor.current.kind = kind := beside.here.kind.trans standing
  have seenToo (covered : index + 1 < twins.shared) : opposite.current.kind = kind :=
    (beside.kind_eq covered).trans seen
  by_cases same : kind = wanted
  · have read (other : Cursor) (found : other.current.kind = kind) :
        expect wanted other = take other := by
      rw [expect, bind_of_ok rfl, if_pos (found.trans same)]
    rw [read cursor seen]
    exact (inStepAt_take (same ▸ more) index cursor opposite standing beside).mono (Nat.le_refl _)
      fun covered => read opposite (seenToo covered)
  · have failed (other : Cursor) (found : other.current.kind = kind) : expect wanted other =
        .error (.fault ⟨.unexpectedToken other.current.kind other.current.value wanted,
          other.current.span.start⟩) := by
      rw [expect, bind_of_ok rfl, if_neg fun equal => same (found.symm.trans equal)]
      rfl
    rw [failed cursor seen]
    refine ⟨index, Nat.le_refl _, beside.here.index_le, congrArg (·.span.start) beside.here.current,
      fun covered => ?_⟩
    have stands := (beside.there covered).current
    rw [failed opposite (seenToo covered), beside.kind_eq covered, beside.value_eq covered, stands]

theorem inStep_expectOr (wanted : TokenKind) (more : wanted ≠ .eof) (requirement : String) :
    twins.InStep formless (expectOr wanted requirement) (expectOr wanted requirement) := by
  refine inStep_currentKind_bind fun kind => ?_
  split
  · next same => exact inStepAt_take (same ▸ more)
  · exact .always (inStep_misplaced requirement)

/-- The form of what a round decides. -/
def roundForm {σ : Type} (held : σ → ψ) (form : α → φ) : Round σ α → ψ ⊕ φ
  | .again state => .inl (held state)
  | .done value => .inr (form value)

section Repetition

variable {σ : Type} {round mirror : σ → Parser (Round σ α)} {state next : σ} {behind : Cursor}

theorem rounds_of_error {failure : ParseFailure} (failed : round state cursor = .error failure) :
    rounds round state cursor = .error failure := by
  rw [rounds, failed]

theorem rounds_of_done {value : α} (read : round state cursor = .ok (.done value, behind)) :
    rounds round state cursor = .ok (value, behind) := by
  rw [rounds, read]

theorem rounds_of_again (read : round state cursor = .ok (.again next, behind))
    (shorter : behind.remaining < cursor.remaining) :
    rounds round state cursor = rounds round next behind := by
  rw [rounds, read]
  simp [shorter]

theorem rounds_of_stalled (read : round state cursor = .ok (.again next, behind))
    (stalled : ¬ behind.remaining < cursor.remaining) :
    rounds round state cursor = .error (.defect .stalled) := by
  rw [rounds, read]
  simp [stalled]

/-- Repetitions are in step if their rounds are.  Both runs read on or stall
together, because both have read the same number of tokens. -/
theorem inStep_rounds (held : σ → ψ) (form : α → φ)
    (step : ∀ state image, held image = held state →
      twins.InStep (roundForm held form) (round state) (mirror image))
    {state image : σ} (same : held image = held state) :
    twins.InStep form (rounds round state) (rounds mirror image) := by
  intro kind index cursor opposite standing beside
  induction size : cursor.remaining using Nat.strongRecOn
    generalizing kind index cursor opposite state image with
  | ind size inductionHypothesis =>
      have first := step state image same kind index cursor opposite standing beside
      cases read : round state cursor with
      | error failure =>
          rw [read] at first
          rw [rounds_of_error read]
          cases failure with
          | defect defect => trivial
          | fault fault =>
              rcases first with ⟨about, later, within, position, failed⟩
              exact ⟨about, later, within, position,
                fun covered => rounds_of_error (failed covered)⟩
      | ok found =>
          rcases found with ⟨outcome, behind⟩
          rw [read] at first
          rcases first with ⟨further, later, stands, readToo⟩
          cases outcome with
          | done value =>
              rw [rounds_of_done read]
              refine ⟨further, later, stands, fun covered => ?_⟩
              rcases readToo covered with ⟨image | image, past, readImage, formed, standsToo⟩
              · simp [roundForm] at formed
              · exact ⟨image, past, rounds_of_done readImage, by simpa [roundForm] using formed,
                  standsToo⟩
          | again next =>
              by_cases shorter : behind.remaining < cursor.remaining
              · rw [rounds_of_again read shorter]
                have before := beside.here.remaining
                have after := stands.remaining
                by_cases covered : further + 1 < twins.shared
                · rcases readToo covered with ⟨image | image, past, readImage, formed, standsToo⟩
                  · have opposed := (beside.there (by omega)).remaining
                    have passed := standsToo.remaining
                    rw [rounds_of_again readImage (by omega)]
                    exact (inductionHypothesis behind.remaining (size ▸ shorter)
                      (by simpa [roundForm] using formed) _ further behind past rfl
                      ⟨stands, fun _ => standsToo⟩ rfl).mono later fun _ => rfl
                  · simp [roundForm] at formed
                · exact (inductionHypothesis behind.remaining (size ▸ shorter) rfl _ further behind
                    behind rfl ⟨stands, fun inside => absurd inside covered⟩ rfl).mono later
                    fun inside => absurd inside covered
              · rw [rounds_of_stalled read shorter]
                trivial

end Repetition

/-- Nested phrases are in step if a level is whenever the readers for the phrases
inside it are. -/
theorem inStep_nesting {level : Parser α → Parser α}
    (step : ∀ nested mirror, twins.InStep form nested mirror →
      twins.InStep form (level nested) (level mirror)) :
    twins.InStep form (nesting level) (nesting level) := by
  intro kind index cursor opposite standing beside
  induction size : cursor.remaining using Nat.strongRecOn
    generalizing kind index cursor opposite with
  | ind size inductionHypothesis =>
      rw [nesting, nesting]
      refine step _ _ (fun kind further inner past standing inside => ?_) kind index cursor opposite
        standing beside
      by_cases shorter : inner.remaining < cursor.remaining
      · rw [if_pos shorter]
        refine (inductionHypothesis inner.remaining (size ▸ shorter) kind further inner past standing
          inside rfl).mono (Nat.le_refl _) fun covered => if_pos ?_
        have before := beside.here.remaining
        have after := inside.here.remaining
        have opposed := (beside.there (by omega)).remaining
        have passed := (inside.there covered).remaining
        omega
      · rw [if_neg shorter]
        trivial

theorem inStep_commaSeparated {phrase mirror : Parser α}
    (each : twins.InStep form phrase mirror) :
    twins.InStep formless (commaSeparated phrase) (commaSeparated mirror) := by
  refine inStep_rounds formless formless (fun collected image _ => ?_) rfl
  refine each.bind fun value other _ => inStep_currentKind_bind fun kind => ?_
  split
  · next comma =>
      refine (inStepAt_take (by simp [comma])).bind fun sign sign' _ => ?_
      exact inStep_pure rfl
  · exact .always (inStep_pure rfl)

theorem inStep_listUpTo (close : TokenKind) {phrase mirror : Parser α}
    (each : twins.InStep form phrase mirror) :
    twins.InStep formless (listUpTo close phrase) (listUpTo close mirror) := by
  refine inStep_currentKind_bind fun kind => ?_
  split
  · exact .always (inStep_pure rfl)
  · exact .always (inStep_commaSeparated each)

end Twins

end KnightFront
