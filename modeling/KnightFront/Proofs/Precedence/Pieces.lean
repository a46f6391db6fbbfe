import KnightFront.Proofs.Grammar.ReadsExpr
import KnightFront.Proofs.Precedence.Grouping

namespace KnightFront

/-!
# The rows that tokens spell

What stands at one level of an expression is an operand and then steps, each a
joint with the operand behind it.  A literal, a name, a call, a new instance or
array, an array literal and a parenthesised expression are operands; what
stands in brackets behind an operand is an expression of its own.  The level
goes on as long as a binary operator, a dot or a bracket follows.

The row is a matter of the tokens alone: nothing here depends on priorities
except that an expression is the right grouping of its row.  The same tokens
spell one row and one expression only.
-/

/-- The token that names the type of an array's elements. -/
def ElementTy.word : ElementTy → TokenKind
  | int => .intWord
  | string => .stringWord

/-- What a stretch of tokens is read as.  Expressions in it are shapes. -/
inductive Piece where
  /-- A name or a call. -/
  | part (value : Expr)
  | operand (value : Expr)
  /-- The steps behind an operand. -/
  | steps (others : List (Joint × Expr))
  | row (row : Row)
  | expr (value : Expr)
  /-- One or more expressions with commas between them, and the sign that closes
  the list. -/
  | items (close : TokenKind) (values : List Expr)
  /-- The same, but the list may be empty. -/
  | list (close : TokenKind) (values : List Expr)

/-- A name as it is spelled. -/
def NameUse.ofSpelling (spelled : String) : NameUse := { text := spelled, span := .nowhere }

/-- Whether the tokens ahead spell a piece up to the tokens behind it.  A piece
goes on as far as it can. -/
inductive Piece.Spelled : Piece → List TokenContent → List TokenContent → Prop where
  | name {spelled : String} {behind : List TokenContent}
      (ends : headKind behind ≠ .openParen) :
      Spelled (.part (.name .bare (.ofSpelling spelled))) ((.identifier, spelled) :: behind) behind
  | call {callee sign : String} {args : List Expr} {ahead behind : List TokenContent}
      (inside : Spelled (.list .closeParen args) ahead behind) :
      Spelled (.part (.call .bare (.ofSpelling callee) args))
        ((.identifier, callee) :: (.openParen, sign) :: ahead) behind
  | int {digits : String} {value : Int} {behind : List TokenContent}
      (fits : Parser.decimal? digits.toList = some value) :
      Spelled (.operand (.int .bare value)) ((.number, digits) :: behind) behind
  | string {value : String} {behind : List TokenContent} :
      Spelled (.operand (.string .bare value)) ((.string, value) :: behind) behind
  | isTrue {sign : String} {behind : List TokenContent} :
      Spelled (.operand (.bool .bare true)) ((.trueWord, sign) :: behind) behind
  | isFalse {sign : String} {behind : List TokenContent} :
      Spelled (.operand (.bool .bare false)) ((.falseWord, sign) :: behind) behind
  | part {value : Expr} {ahead behind : List TokenContent}
      (inside : Spelled (.part value) ahead behind) : Spelled (.operand value) ahead behind
  | group {value : Expr} {opening closing : String} {ahead behind : List TokenContent}
      (inside : Spelled (.expr value) ahead ((.closeParen, closing) :: behind)) :
      Spelled (.operand value) ((.openParen, opening) :: ahead) behind
  | array {items : List Expr} {opening : String} {ahead behind : List TokenContent}
      (inside : Spelled (.list .closeBracket items) ahead behind) :
      Spelled (.operand (.array .bare items)) ((.openBracket, opening) :: ahead) behind
  | newInstance {keyword className opening closing : String} {behind : List TokenContent} :
      Spelled (.operand (.newInstance .bare (.ofSpelling className)))
        ((.newWord, keyword) :: (.identifier, className) :: (.openParen, opening) ::
          (.closeParen, closing) :: behind) behind
  | newArray {element : ElementTy} {length : Expr} {kind : TokenKind}
      {keyword word opening closing : String} {ahead behind : List TokenContent}
      (names : kind = element.word)
      (inside : Spelled (.expr length) ahead ((.closeBracket, closing) :: behind)) :
      Spelled (.operand (.newArray .bare element length))
        ((.newWord, keyword) :: (kind, word) :: (.openBracket, opening) :: ahead) behind
  | done {behind : List TokenContent} (ends : headKind behind ∉ Grammar.suffixKinds) :
      Spelled (.steps []) behind behind
  | binary {op : BinaryOp} {value : Expr} {others : List (Joint × Expr)} {kind : TokenKind}
      {sign : String} {ahead middle behind : List TokenContent} (writes : kind = op.token)
      (next : Spelled (.operand value) ahead middle)
      (rest : Spelled (.steps others) middle behind) :
      Spelled (.steps ((.binary op, value) :: others)) ((kind, sign) :: ahead) behind
  | member {value : Expr} {others : List (Joint × Expr)} {sign : String}
      {ahead middle behind : List TokenContent} (next : Spelled (.part value) ahead middle)
      (rest : Spelled (.steps others) middle behind) :
      Spelled (.steps ((.member, value) :: others)) ((.dot, sign) :: ahead) behind
  | index {value : Expr} {others : List (Joint × Expr)} {opening closing : String}
      {ahead middle behind : List TokenContent}
      (next : Spelled (.expr value) ahead ((.closeBracket, closing) :: middle))
      (rest : Spelled (.steps others) middle behind) :
      Spelled (.steps ((.index, value) :: others)) ((.openBracket, opening) :: ahead) behind
  | row {first : Expr} {others : List (Joint × Expr)} {ahead middle behind : List TokenContent}
      (front : Spelled (.operand first) ahead middle)
      (rest : Spelled (.steps others) middle behind) :
      Spelled (.row ⟨first, others⟩) ahead behind
  | expr {row : Row} {value : Expr} {ahead behind : List TokenContent} (grouping : Grouping)
      (level : Spelled (.row row) ahead behind) (same : grouping.row = row)
      (grouped : grouping.Grouped) (shape : grouping.expr = value) :
      Spelled (.expr value) ahead behind
  | last {close : TokenKind} {value : Expr} {closing : String} {ahead behind : List TokenContent}
      (only : Spelled (.expr value) ahead ((close, closing) :: behind)) (ends : close ≠ .comma) :
      Spelled (.items close [value]) ahead behind
  | more {close : TokenKind} {value : Expr} {values : List Expr} {sign : String}
      {ahead middle behind : List TokenContent}
      (first : Spelled (.expr value) ahead ((.comma, sign) :: middle))
      (rest : Spelled (.items close values) middle behind) :
      Spelled (.items close (value :: values)) ahead behind
  | none {close : TokenKind} {closing : String} {behind : List TokenContent} :
      Spelled (.list close []) ((close, closing) :: behind) behind
  | some {close : TokenKind} {values : List Expr} {ahead behind : List TokenContent}
      (other : headKind ahead ≠ close) (inside : Spelled (.items close values) ahead behind) :
      Spelled (.list close values) ahead behind

namespace BinaryOp

theorem token_mem_suffixKinds (op : BinaryOp) : op.token ∈ Grammar.suffixKinds := by
  cases op <;> decide

theorem token_injective {first second : BinaryOp} (same : first.token = second.token) :
    first = second :=
  Option.some.inj ((ofToken?_eq_some_iff.mpr rfl).symm.trans (ofToken?_eq_some_iff.mpr same))

theorem token_ne_dot (op : BinaryOp) : op.token ≠ .dot := by
  cases op <;> decide

theorem token_ne_openBracket (op : BinaryOp) : op.token ≠ .openBracket := by
  cases op <;> decide

end BinaryOp

namespace Piece

/-- Whether two pieces are of one kind, and closed by the same sign if they are
lists. -/
def SameKind : Piece → Piece → Prop
  | part _, part _ => True
  | operand _, operand _ => True
  | steps _, steps _ => True
  | row _, row _ => True
  | expr _, expr _ => True
  | items close _, items other _ => close = other
  | list close _, list other _ => close = other
  | _, _ => False

variable {piece other : Piece} {ahead behind further : List TokenContent}

/-- Steps go on as far as they can. -/
theorem Spelled.ends {others : List (Joint × Expr)} (spelled : (steps others).Spelled ahead behind) :
    headKind behind ∉ Grammar.suffixKinds := by
  induction others generalizing ahead with
  | nil =>
      cases spelled with
      | done ends => exact ends
  | cons step others inductionHypothesis =>
      cases spelled with
      | binary _ _ rest | member _ rest | index _ rest => exact inductionHypothesis rest

/-- The same tokens spell at most one piece of a kind. -/
theorem Spelled.unique (first : piece.Spelled ahead behind) (second : other.Spelled ahead further)
    (kind : piece.SameKind other) : piece = other ∧ behind = further := by
  induction first generalizing other further with
  | name ends =>
      cases second with
      | name => exact ⟨rfl, rfl⟩
      | call => exact absurd rfl ends
      | _ => cases kind
  | call inside inductionHypothesis =>
      cases second with
      | name ends => exact absurd rfl ends
      | call others => simpa using inductionHypothesis others rfl
      | _ => cases kind
  | int fits =>
      cases second with
      | int others => simpa using Option.some.inj (fits.symm.trans others)
      | part others => cases others
      | _ => cases kind
  | string =>
      cases second with
      | string => exact ⟨rfl, rfl⟩
      | part others => cases others
      | _ => cases kind
  | isTrue =>
      cases second with
      | isTrue => exact ⟨rfl, rfl⟩
      | part others => cases others
      | _ => cases kind
  | isFalse =>
      cases second with
      | isFalse => exact ⟨rfl, rfl⟩
      | part others => cases others
      | _ => cases kind
  | part inside inductionHypothesis =>
      cases second with
      | part others => simpa using inductionHypothesis others trivial
      | int | string | isTrue | isFalse | group | array | newInstance | newArray => cases inside
      | _ => cases kind
  | group inside inductionHypothesis =>
      cases second with
      | group others =>
          have same := inductionHypothesis others trivial
          simp only [expr.injEq, List.cons.injEq] at same
          exact ⟨congrArg operand same.1, same.2.2⟩
      | part others => cases others
      | _ => cases kind
  | array inside inductionHypothesis =>
      cases second with
      | array others => simpa using inductionHypothesis others rfl
      | part others => cases others
      | _ => cases kind
  | newInstance =>
      cases second with
      | newInstance => exact ⟨rfl, rfl⟩
      | part others => cases others
      | _ => cases kind
  | @newArray element _ _ _ _ _ _ _ _ names inside inductionHypothesis =>
      cases second with
      | @newArray another _ _ _ _ _ _ _ _ others within =>
          have same := inductionHypothesis within trivial
          simp only [expr.injEq, List.cons.injEq] at same
          obtain rfl : element = another := by
            cases element <;> cases another <;> first | rfl | cases names.symm.trans others
          exact ⟨congrArg _ (congrArg _ same.1), same.2.2⟩
      | part others => cases others
      | _ => cases kind
  | done ends =>
      cases second with
      | done => exact ⟨rfl, rfl⟩
      | binary writes => exact absurd (writes ▸ BinaryOp.token_mem_suffixKinds _) ends
      | member => exact absurd (show TokenKind.dot ∈ Grammar.suffixKinds by decide) ends
      | index => exact absurd (show TokenKind.openBracket ∈ Grammar.suffixKinds by decide) ends
      | _ => cases kind
  | @binary op _ _ _ _ _ _ _ writes next rest nextHypothesis restHypothesis =>
      cases second with
      | done ends => exact absurd (writes ▸ op.token_mem_suffixKinds) ends
      | @binary another _ _ _ _ _ _ _ others second more =>
          obtain ⟨⟨rfl⟩, rfl⟩ := nextHypothesis second trivial
          obtain ⟨⟨rfl⟩, rfl⟩ := restHypothesis more trivial
          obtain rfl : op = another := BinaryOp.token_injective (writes.symm.trans others)
          exact ⟨rfl, rfl⟩
      | member => exact absurd writes.symm op.token_ne_dot
      | index => exact absurd writes.symm op.token_ne_openBracket
      | _ => cases kind
  | member next rest nextHypothesis restHypothesis =>
      cases second with
      | done ends => exact absurd (show TokenKind.dot ∈ Grammar.suffixKinds by decide) ends
      | member second more =>
          obtain ⟨⟨rfl⟩, rfl⟩ := nextHypothesis second trivial
          obtain ⟨⟨rfl⟩, rfl⟩ := restHypothesis more trivial
          exact ⟨rfl, rfl⟩
      | binary writes => exact absurd writes.symm (BinaryOp.token_ne_dot _)
      | _ => cases kind
  | index next rest nextHypothesis restHypothesis =>
      cases second with
      | done ends => exact absurd (show TokenKind.openBracket ∈ Grammar.suffixKinds by decide) ends
      | index second more =>
          obtain ⟨⟨rfl⟩, ⟨rfl⟩⟩ := nextHypothesis second trivial
          obtain ⟨⟨rfl⟩, rfl⟩ := restHypothesis more trivial
          exact ⟨rfl, rfl⟩
      | binary writes => exact absurd writes.symm (BinaryOp.token_ne_openBracket _)
      | _ => cases kind
  | row front rest frontHypothesis restHypothesis =>
      cases second with
      | row second more =>
          obtain ⟨⟨rfl⟩, rfl⟩ := frontHypothesis second trivial
          obtain ⟨⟨rfl⟩, rfl⟩ := restHypothesis more trivial
          exact ⟨rfl, rfl⟩
      | _ => cases kind
  | expr grouping level same grouped shape inductionHypothesis =>
      cases second with
      | expr another others alike right drawn =>
          obtain ⟨⟨rfl⟩, rfl⟩ := inductionHypothesis others trivial
          rw [← shape, ← drawn, grouped.unique right (same.trans alike.symm)]
          exact ⟨rfl, rfl⟩
      | _ => cases kind
  | last only ends inductionHypothesis =>
      cases second with
      | last others =>
          cases kind
          obtain ⟨⟨rfl⟩, ⟨rfl⟩⟩ := inductionHypothesis others trivial
          exact ⟨rfl, rfl⟩
      | more others =>
          obtain ⟨-, ⟨⟩⟩ := inductionHypothesis others trivial
          exact absurd rfl ends
      | _ => cases kind
  | more first rest firstHypothesis restHypothesis =>
      cases second with
      | last others notComma =>
          obtain ⟨-, ⟨⟩⟩ := firstHypothesis others trivial
          exact absurd rfl notComma
      | more others listed =>
          cases kind
          obtain ⟨⟨rfl⟩, ⟨rfl⟩⟩ := firstHypothesis others trivial
          obtain ⟨⟨rfl⟩, rfl⟩ := restHypothesis listed rfl
          exact ⟨rfl, rfl⟩
      | _ => cases kind
  | none =>
      cases second with
      | none => exact ⟨by cases kind; rfl, rfl⟩
      | some differs => exact absurd kind differs
      | _ => cases kind
  | some differs inside inductionHypothesis =>
      cases second with
      | none => exact absurd kind.symm differs
      | some _ others =>
          cases kind
          obtain ⟨⟨rfl⟩, rfl⟩ := inductionHypothesis others rfl
          exact ⟨rfl, rfl⟩
      | _ => cases kind

/-! ## What is spelled can be derived -/

open Grammar (Between between_phrase between_token between_number between_or between_append
  between_many between_optional)

/-- Whether the grammar derives the form of a piece from its tokens. -/
def Derived : Piece → List TokenContent → List TokenContent → Prop
  | part _, ahead, behind => Between .accepted (.phrase .nameOrCall) ahead behind
  | operand _, ahead, behind => Between .accepted (.phrase .operand) ahead behind
  | steps _, ahead, behind => Between .accepted (.many (.phrase .suffix)) ahead behind
  | row _, ahead, behind => Between .accepted (.phrase .expr) ahead behind
  | expr _, ahead, behind => Between .accepted (.phrase .expr) ahead behind
  | items close _, ahead, behind => ∃ closing,
      Between .accepted (.listed (.phrase .expr)) ahead ((close, closing) :: behind)
  | list close _, ahead, behind => ∃ closing,
      Between .accepted (.optional (.listed (.phrase .expr))) ahead ((close, closing) :: behind)

/-- A token is derived in front of what follows it. -/
theorem between_cons {kind : TokenKind} {value : String}
    (plain : kind ≠ .eof ∧ kind ≠ .number) :
    Between .accepted (.token kind) ((kind, value) :: behind) behind :=
  (between_token plain.1 plain.2).mpr ⟨rfl, rfl⟩

theorem between_word (element : ElementTy) {value : String} :
    Between .accepted (.token .intWord ||| .token .stringWord) ((element.word, value) :: behind)
      behind := by
  cases element <;> simp [between_token, ElementTy.word]

/-- The grammar derives what is spelled. -/
theorem Spelled.derived (spelled : piece.Spelled ahead behind) : piece.Derived ahead behind := by
  induction spelled with
  | name ends =>
      refine between_phrase.mpr (.append (between_cons (by decide)) ?_)
      exact between_optional.mpr (.inr rfl)
  | call inside inductionHypothesis =>
      rcases inductionHypothesis with ⟨closing, listed⟩
      refine between_phrase.mpr
        (.append (between_cons (by decide)) (between_optional.mpr (.inl ?_)))
      exact between_phrase.mpr
        ((Between.append (between_cons (by decide)) listed).append (between_cons (by decide)))
  | int fits =>
      refine between_phrase.mpr ?_
      simp [Grammar.Phrase.rule, between_number, fits]
  | string => exact between_phrase.mpr (by simp [Grammar.Phrase.rule, between_token])
  | isTrue => exact between_phrase.mpr (by simp [Grammar.Phrase.rule, between_token])
  | isFalse => exact between_phrase.mpr (by simp [Grammar.Phrase.rule, between_token])
  | part inside inductionHypothesis =>
      have named : Between _ _ _ _ := inductionHypothesis
      exact between_phrase.mpr (by simp [Grammar.Phrase.rule, named])
  | group inside inductionHypothesis =>
      have inside : Between _ _ _ _ := inductionHypothesis
      refine between_phrase.mpr ?_
      simp only [Grammar.Phrase.rule, between_or]
      exact .inl (.inl (.inl (.inr
        ((Between.append (between_cons (by decide)) inside).append (between_cons (by decide))))))
  | array inside inductionHypothesis =>
      rcases inductionHypothesis with ⟨closing, listed⟩
      refine between_phrase.mpr ?_
      simp only [Grammar.Phrase.rule, between_or]
      exact .inl (.inl (.inr
        ((Between.append (between_cons (by decide)) listed).append (between_cons (by decide)))))
  | newInstance =>
      refine between_phrase.mpr ?_
      simp only [Grammar.Phrase.rule, between_or]
      exact .inl (.inr (Between.append (Between.append (Between.append
        (between_cons (by decide)) (between_cons (by decide))) (between_cons (by decide)))
        (between_cons (by decide))))
  | @newArray element _ _ _ _ _ _ _ _ names inside inductionHypothesis =>
      have length : Between _ _ _ _ := inductionHypothesis
      subst names
      refine between_phrase.mpr ?_
      simp only [Grammar.Phrase.rule, between_or]
      exact .inr (Between.append (Between.append (Between.append (Between.append
        (between_cons (by decide)) (between_word element)) (between_cons (by decide))) length)
        (between_cons (by decide)))
  | done ends => exact between_many.mpr (.inl rfl)
  | @binary op _ _ _ _ _ _ _ writes next rest nextHypothesis restHypothesis =>
      have operand : Between _ _ _ _ := nextHypothesis
      subst writes
      refine between_many.mpr (.inr ⟨_, between_phrase.mpr ?_, restHypothesis⟩)
      simp only [Grammar.Phrase.rule, between_or]
      refine .inl (.inl (Between.append (between_phrase.mpr ?_) operand))
      cases op <;> simp [Grammar.Phrase.rule, between_token, BinaryOp.token]
  | member next rest nextHypothesis restHypothesis =>
      have named : Between _ _ _ _ := nextHypothesis
      refine between_many.mpr (.inr ⟨_, between_phrase.mpr ?_, restHypothesis⟩)
      simp only [Grammar.Phrase.rule, between_or]
      exact .inr (Between.append (between_cons (by decide)) named)
  | index next rest nextHypothesis restHypothesis =>
      have position : Between _ _ _ _ := nextHypothesis
      refine between_many.mpr (.inr ⟨_, between_phrase.mpr ?_, restHypothesis⟩)
      simp only [Grammar.Phrase.rule, between_or]
      exact .inl (.inr
        ((Between.append (between_cons (by decide)) position).append (between_cons (by decide))))
  | row front rest frontHypothesis restHypothesis =>
      exact between_phrase.mpr (Between.append frontHypothesis restHypothesis)
  | expr grouping level same grouped shape inductionHypothesis => exact inductionHypothesis
  | last only ends inductionHypothesis =>
      exact ⟨_, Between.append inductionHypothesis (between_many.mpr (.inl rfl))⟩
  | more first rest firstHypothesis restHypothesis =>
      rcases restHypothesis with ⟨closing, listed⟩
      rcases between_append.mp listed with ⟨middle, second, others⟩
      exact ⟨closing, Between.append firstHypothesis
        (between_many.mpr (.inr ⟨_, Between.append (between_cons (by decide)) second, others⟩))⟩
  | none => exact ⟨_, between_optional.mpr (.inr rfl)⟩
  | some other inside inductionHypothesis =>
      rcases inductionHypothesis with ⟨closing, listed⟩
      exact ⟨closing, between_optional.mpr (.inl listed)⟩

end Piece

end KnightFront
