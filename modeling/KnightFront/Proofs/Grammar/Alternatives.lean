import KnightFront.Proofs.Grammar.Phrases

namespace KnightFront
namespace Grammar

/-!
# Alternatives

The grammar lets an alternative belong to any condition in front of it, while
a reader gives it to the nearest one.  Both take the same tokens: where a
statement ends with a condition that has no alternative yet, an alternative
behind it can be moved inside.  So every statement is one whose alternatives
belong to the nearest conditions.
-/

/-- The statements that begin with a name. -/
def nameStatement : Form :=
  .phrase .assign ++ .token .semicolon ||| .phrase .arrayAssign ++ .token .semicolon |||
    .phrase .fieldAssign ||| .phrase .call ++ .token .semicolon

/-- The statements that end with a token of their own. -/
def plainStatement : Form := .phrase .block ||| .phrase .ret ||| nameStatement

/-- What stands in front of the body of a loop. -/
def loopHead : Form := .token .whileWord ++ .phrase .condition ||| .phrase .forHead

theorem begins_forHead {dialect : Dialect} : Begins dialect (.phrase .forHead) [.forWord] :=
  .phrase (.append (.append (.append (.append (.append (.append .token))))))

theorem begins_loopHead {dialect : Dialect} : Begins dialect loopHead [.whileWord, .forWord] :=
  .or (.append .token) begins_forHead

section

variable {ahead behind : List TokenContent}

/-- The three ways to write a statement. -/
theorem between_statement_iff :
    Between .accepted (.phrase .statement) ahead behind ↔
      Between .accepted plainStatement ahead behind ∨
        (∃ middle, Between .accepted (.token .ifWord ++ .phrase .condition) ahead middle ∧
          ∃ further, Between .accepted (.phrase .statement) middle further ∧
            (further = behind ∨ headKind further = .elseWord ∧
              Between .accepted (.phrase .statement) further.tail behind)) ∨
        ∃ middle, Between .accepted loopHead ahead middle ∧
          Between .accepted (.phrase .statement) middle behind := by
  have conditional : Between .accepted (.phrase .conditional) ahead behind ↔
      ∃ middle, Between .accepted (.token .ifWord ++ .phrase .condition) ahead middle ∧
        ∃ further, Between .accepted (.phrase .statement) middle further ∧
          (further = behind ∨ headKind further = .elseWord ∧
            Between .accepted (.phrase .statement) further.tail behind) := by
    rw [between_phrase, Phrase.rule, between_append_assoc, between_append]
    simp [between_token, or_comm, and_assoc]
  have loop : (∃ middle, Between .accepted loopHead ahead middle ∧
      Between .accepted (.phrase .statement) middle behind) ↔
        Between .accepted (.phrase .whileLoop) ahead behind ∨
          Between .accepted (.phrase .forLoop) ahead behind := by
    rw [between_phrase, between_phrase, Phrase.rule, Phrase.rule]
    simp only [loopHead, between_or, between_append, or_and_right, exists_or]
  rw [between_phrase, ← conditional, loop, Phrase.rule, plainStatement, nameStatement]
  simp only [between_or]
  grind

end

/-- A statement whose alternatives belong to the nearest conditions, told by
whether it ends with a condition that could take one more. -/
inductive Nearest : Bool → List TokenContent → List TokenContent → Prop where
  | plain {ahead behind : List TokenContent}
      (between : Between .accepted plainStatement ahead behind) : Nearest false ahead behind
  | ifThen {takes : Bool} {ahead middle behind : List TokenContent}
      (head : Between .accepted (.token .ifWord ++ .phrase .condition) ahead middle)
      (body : Nearest takes middle behind) : Nearest true ahead behind
  | ifElse {takes : Bool} {ahead middle further behind : List TokenContent}
      (head : Between .accepted (.token .ifWord ++ .phrase .condition) ahead middle)
      (body : Nearest false middle further) (word : headKind further = .elseWord)
      (alternative : Nearest takes further.tail behind) : Nearest takes ahead behind
  | loop {takes : Bool} {ahead middle behind : List TokenContent}
      (head : Between .accepted loopHead ahead middle)
      (body : Nearest takes middle behind) : Nearest takes ahead behind

variable {takes : Bool} {ahead middle behind : List TokenContent}

/-- Every such statement is one of the grammar. -/
theorem Nearest.between (nearest : Nearest takes ahead behind) :
    Between .accepted (.phrase .statement) ahead behind := by
  induction nearest with
  | plain between => exact between_statement_iff.mpr (.inl between)
  | ifThen head _ body =>
      exact between_statement_iff.mpr (.inr (.inl ⟨_, head, _, body, .inl rfl⟩))
  | ifElse head _ word _ body alternative =>
      exact between_statement_iff.mpr (.inr (.inl ⟨_, head, _, body, .inr ⟨word, alternative⟩⟩))
  | loop head _ body => exact between_statement_iff.mpr (.inr (.inr ⟨_, head, body⟩))

/-- An alternative moves to the condition that takes it. -/
theorem Nearest.absorb (nearest : Nearest true ahead middle) (word : headKind middle = .elseWord)
    (alternative : Nearest takes middle.tail behind) :
    ∃ takesMore, Nearest takesMore ahead behind := by
  generalize isOpen : true = dangling at nearest
  induction nearest with
  | plain => cases isOpen
  | @ifThen inner _ _ _ head body inductionHypothesis =>
      cases inner with
      | false => exact ⟨takes, .ifElse head body word alternative⟩
      | true =>
          rcases inductionHypothesis word alternative rfl with ⟨_, whole⟩
          exact ⟨true, .ifThen head whole⟩
  | ifElse head body inner _ _ inductionHypothesis =>
      rcases inductionHypothesis word alternative isOpen with ⟨takesMore, whole⟩
      exact ⟨takesMore, .ifElse head body inner whole⟩
  | loop head _ inductionHypothesis =>
      rcases inductionHypothesis word alternative isOpen with ⟨takesMore, whole⟩
      exact ⟨takesMore, .loop head whole⟩

/-- In every statement the alternatives can be given to the nearest
conditions. -/
theorem exists_nearest (between : Between .accepted (.phrase .statement) ahead behind) :
    ∃ takes, Nearest takes ahead behind := by
  induction size : ahead.length using Nat.strongRecOn generalizing ahead behind with
  | ind size inductionHypothesis =>
      rcases between_statement_iff.mp between with
        plain | ⟨middle, head, further, body, rfl | ⟨word, alternative⟩⟩ | ⟨middle, head, body⟩
      · exact ⟨false, .plain plain⟩
      · have shorter := (Begins.append .token).length_lt (by decide) head
        rcases inductionHypothesis _ (size ▸ shorter) body rfl with ⟨_, nearest⟩
        exact ⟨true, .ifThen head nearest⟩
      · have shorter := (Begins.append .token).length_lt (by decide) head
        rcases inductionHypothesis _ (size ▸ shorter) body rfl with ⟨inner, nearest⟩
        have shorterStill : further.tail.length < ahead.length := by
          have within := body.length_le
          simp only [List.length_tail]
          omega
        rcases inductionHypothesis _ (size ▸ shorterStill) alternative rfl with ⟨takes, nearestToo⟩
        cases inner with
        | false => exact ⟨takes, .ifElse head nearest word nearestToo⟩
        | true =>
            rcases nearest.absorb word nearestToo with ⟨_, whole⟩
            exact ⟨true, .ifThen head whole⟩
      · have shorter := begins_loopHead.length_lt (by decide) head
        rcases inductionHypothesis _ (size ▸ shorter) body rfl with ⟨takes, nearest⟩
        exact ⟨takes, .loop head nearest⟩

end Grammar
end KnightFront
