import KnightFront.Parse.TypeName
import KnightFront.Proofs.Grammar.Balance

namespace KnightFront
namespace Grammar

/-!
# Reading types and expressions

Each reader of a phrase reads the phrase that the grammar gives for it.  An
expression goes on as long as an operator, a dot or a bracket follows, so it
is read completely in front of any other token.
-/

open KnightFront.Parser (Ensures Yields)
open Form (optional listed name dotted)

variable {α : Type} {cursor : Cursor} {nested : Parser Expr} {limit : Nat}
variable {ahead behind rest : List TokenContent} {body : Form} {follow inside : TokenKind → Prop}

theorem reads_arraySuffix (element : ElementTy) :
    Reads (Parser.arraySuffix element) cursor
      (optional (.token .openBracket ++ .token .closeBracket)) (except .openBracket) := by
  simp only [Parser.arraySuffix, reads_bind_currentKind]
  split
  · next found =>
      refine Reads.present ?_ (by simp [except, found])
      refine (reads_take found (by decide)).step fun opening _ => ?_
      refine Reads.ending (reads_expect (by decide)) fun closing _ => ?_
      simp
  · next other =>
      exact Reads.absent (by simp) (by simp [between_token, other])

/-- The kinds that begin a type. -/
def typeKinds : List TokenKind := [.intWord, .stringWord, .boolWord, .voidWord, .identifier]

theorem begins_type {dialect : Dialect} : Begins dialect (.phrase .type) typeKinds :=
  .phrase ((((Begins.token.or .token).append.or .token).or .token).or .token)

/-- A type is read if no bracket follows. -/
theorem reads_typeName :
    Reads Parser.typeName cursor (.phrase .type) (except .openBracket) := by
  simp only [Parser.typeName, reads_bind_position, reads_bind_currentKind]
  split
  · next found =>
      refine Reads.same ((reads_take found (by decide)).step fun word _ =>
        (reads_arraySuffix .int).ending fun typed _ => by simp) ?_
      simp [between_phrase, Phrase.rule, between_token, found, name]
  · next found =>
      refine Reads.same ((reads_take found (by decide)).step fun word _ =>
        (reads_arraySuffix .string).ending fun typed _ => by simp) ?_
      simp [between_phrase, Phrase.rule, between_token, found, name]
  · next found =>
      refine Reads.same ((reads_take found (by decide)).ending fun word _ => by simp) ?_
      simp [between_phrase, Phrase.rule, between_token, found, name]
  · next found =>
      refine Reads.same ((reads_take found (by decide)).ending fun word _ => by simp) ?_
      simp [between_phrase, Phrase.rule, between_token, found, name]
  · next found =>
      refine Reads.same ((reads_take found (by decide)).ending fun named _ => by simp) ?_
      simp [between_phrase, Phrase.rule, between_token, found, name]
  · refine reads_bind_misplaced fun _ between => ?_
    have starts := begins_type _ _ between
    simp only [typeKinds, List.mem_cons, List.not_mem_nil] at starts
    grind

/-- A list goes on behind a comma. -/
theorem between_listed_iff :
    Between .accepted (listed body) ahead behind ↔
      ∃ middle, Between .accepted body ahead middle ∧
        (middle = behind ∨
          headKind middle = .comma ∧ Between .accepted (listed body) middle.tail behind) := by
  simp only [listed, between_append]
  refine exists_congr fun middle => and_congr_right fun _ => ?_
  rw [between_many]
  simp [between_append, between_token, and_assoc]

/-- Phrases that can be followed by a comma are read with commas between
them. -/
theorem reads_commaSeparated {phrase : Parser α}
    (reads : ∀ inner : Cursor, inner.remaining ≤ cursor.remaining → Reads phrase inner body inside)
    (comma : inside .comma) (ends : ∀ kind, follow kind → inside kind ∧ kind ≠ .comma) :
    Reads (Parser.commaSeparated phrase) cursor (listed body) follow := by
  refine reads_rounds (fun _ inner => inner.remaining ≤ cursor.remaining) ?_ ?_ (Nat.le_refl _)
  · intro collected inner fits
    simp only [Parser.ensures_bind, Parser.ensures_currentKind]
    refine (reads inner fits).sound.mono fun value middle facts => ?_
    have shorter := facts.1.length_le
    simp only [← Cursor.remaining_eq] at shorter
    split
    · next isComma =>
        simp only [Parser.ensures_bind, Parser.ensures_take, Parser.ensures_pure,
          Cursor.contents_advance]
        refine ⟨Nat.le_trans middle.remaining_advance_le (Nat.le_trans shorter fits), ?_⟩
        intro rest others
        exact between_listed_iff.mpr ⟨_, facts.1, .inr ⟨isComma, others⟩⟩
    · simpa using between_listed_iff.mpr ⟨_, facts.1, .inl rfl⟩
  · intro collected inner rest fits between follows
    rcases between_listed_iff.mp between with ⟨middle, first, rfl | ⟨isComma, others⟩⟩
    · simp only [Parser.yields_bind, Parser.yields_currentKind]
      refine ((reads inner fits).complete _ first (ends _ follows).1).mono fun value behind same => ?_
      simp [same, (ends _ follows).2]
    · simp only [Parser.yields_bind, Parser.yields_currentKind]
      refine ((reads inner fits).complete _ first (isComma ▸ comma)).mono fun value behind same => ?_
      subst same
      have more : behind.kind ≠ .eof := by simp [isComma]
      have shorter := first.length_le
      simp only [← Cursor.remaining_eq] at shorter
      simp only [isComma, if_true, Parser.yields_bind, Parser.yields_take, Parser.yields_pure,
        Cursor.contents_advance]
      exact ⟨Nat.lt_of_lt_of_le (Cursor.remaining_advance_lt more) shorter, others⟩

/-- A list that may be empty is read up to a token that begins no member of
it. -/
theorem reads_listUpTo {phrase : Parser α} {close : TokenKind}
    (reads : ∀ inner : Cursor, inner.remaining ≤ cursor.remaining → Reads phrase inner body inside)
    (comma : inside .comma) (closes : inside close) (notComma : close ≠ .comma)
    (starts : ∀ {ahead behind}, Between .accepted body ahead behind → headKind ahead ≠ close) :
    Reads (Parser.listUpTo close phrase) cursor (optional (listed body)) (only close) := by
  simp only [Parser.listUpTo, reads_bind_currentKind]
  split
  · next found =>
      refine Reads.absent (by simp) fun rest between => ?_
      rcases between_listed_iff.mp between with ⟨middle, first, -⟩
      exact starts first found
  · next more =>
      refine (reads_commaSeparated reads comma ?_).present more
      rintro kind rfl
      exact ⟨closes, notComma⟩

/-- Whether no expression goes on with a token. -/
def EndsExpr (kind : TokenKind) : Prop :=
  BinaryOp.ofToken? kind = none ∧ kind ∉ [.dot, .openBracket, .openParen]

instance (kind : TokenKind) : Decidable (EndsExpr kind) := inferInstanceAs (Decidable (_ ∧ _))

/-- The kinds that begin an expression. -/
def exprKinds : List TokenKind :=
  [.number, .string, .trueWord, .falseWord, .identifier, .openParen, .openBracket, .newWord]

theorem begins_args {dialect : Dialect} : Begins dialect (.phrase .args) [.openParen] :=
  .phrase (.append (.append .token))

theorem begins_nameOrCall {dialect : Dialect} :
    Begins dialect (.phrase .nameOrCall) [.identifier] :=
  .phrase (.append .token)

theorem begins_operand {dialect : Dialect} : Begins dialect (.phrase .operand) exprKinds := by
  refine .mono (.phrase ((((((((Begins.token.or .token).or .token).or .token).or
    begins_nameOrCall).or (.append (.append .token))).or (.append (.append .token))).or
      (.append (.append (.append .token)))).or (.append (.append (.append (.append .token)))))) ?_
  decide

theorem begins_expr {dialect : Dialect} : Begins dialect (.phrase .expr) exprKinds :=
  .phrase begins_operand.append

/-- A reader reads expressions wherever fewer tokens are left than a limit. -/
def ReadsInside (nested : Parser Expr) (limit : Nat) : Prop :=
  ∀ inner : Cursor, inner.remaining < limit → Reads nested inner (.phrase .expr) EndsExpr

/-- Behind a token fewer tokens are left. -/
theorem remaining_lt_of_token {kind : TokenKind} {behind : Cursor}
    (between : Between .accepted (.token kind) cursor.contents behind.contents) :
    behind.remaining < cursor.remaining := by
  rcases between with ⟨tokens, derives, same⟩
  cases derives with
  | token => simp [Cursor.remaining_eq, same]

theorem remaining_le_of_between {form : Form} {behind : Cursor}
    (between : Between .accepted form cursor.contents behind.contents) :
    behind.remaining ≤ cursor.remaining := by
  simpa only [Cursor.remaining_eq] using between.length_le

/-- Expressions are read in a list. -/
theorem ReadsInside.listUpTo (reads : ReadsInside nested limit) (fits : cursor.remaining < limit)
    {close : TokenKind} (closes : EndsExpr close) (notComma : close ≠ .comma)
    (other : close ∉ exprKinds) :
    Reads (Parser.listUpTo close nested) cursor (optional (listed (.phrase .expr))) (only close) :=
  reads_listUpTo (fun inner within => reads inner (Nat.lt_of_le_of_lt within fits))
    (by decide : EndsExpr .comma) closes notComma
    fun between same => begins_expr.excludes same other between

theorem reads_arguments (reads : ReadsInside nested limit) (fits : cursor.remaining ≤ limit) :
    Reads (Parser.arguments nested) cursor (.phrase .args) anything := by
  simp only [Parser.arguments, reads_phrase, Phrase.rule, reads_append_assoc]
  refine Reads.andThen (reads_expect (by decide)) fun _ behind _ opened => ?_
  have shorter := Nat.lt_of_lt_of_le (remaining_lt_of_token opened) fits
  have listed := reads.listUpTo shorter (by decide : EndsExpr .closeParen) (by decide) (by decide)
  refine listed.before (Begins.token.fits (by decide)) fun args _ => ?_
  refine Reads.ending (reads_expect (by decide)) fun closing _ => ?_
  simp

/-- Arguments, if there are any. -/
def argsIf (called : Bool) : Form := if called then .phrase .args else .nothing

/-- Whether arguments are ahead. -/
def calls (contents : List TokenContent) : Bool := decide (headKind contents = .openParen)

theorem Between.optional_args {called : Bool}
    (between : Between .accepted (argsIf called) ahead behind) :
    Between .accepted (optional (.phrase .args)) ahead behind := by
  cases called with
  | true => exact between_optional.mpr (.inl between)
  | false => exact between_optional.mpr (.inr (between_nothing.mp between))

/-- Where no parenthesis follows, arguments are there if one is ahead. -/
theorem Between.argsIf_calls
    (between : Between .accepted (optional (.phrase .args)) ahead behind)
    (other : headKind behind ≠ .openParen) :
    Between .accepted (argsIf (calls ahead)) ahead behind := by
  rcases between_optional.mp between with args | rfl
  · have opened := List.mem_singleton.mp (begins_args _ _ args)
    simpa [calls, opened, argsIf] using args
  · simp [calls, other, argsIf]

/-- A name is read with the arguments behind it. -/
theorem reads_nameOrCall (reads : ReadsInside nested limit) (fits : cursor.remaining ≤ limit)
    (id : NodeId) (token : Token) :
    Reads (Parser.nameOrCall nested id token) cursor (argsIf (calls cursor.contents)) follow
      (Part (calls cursor.contents)) := by
  simp only [Parser.nameOrCall, reads_bind_currentKind]
  split
  · next found =>
      simp only [calls, found, decide_true, argsIf, if_true]
      refine Reads.last ((reads_arguments reads fits).mono fun _ _ => trivial) fun args _ _ _ => ?_
      simpa using .call _ _ args
  · next other =>
      simpa [calls, other, argsIf] using .name _ _

/-- A name or a call, as the token behind the name says. -/
def part (called : Bool) : Form := name ++ argsIf called

/-- What may stand behind a dot. -/
theorem reads_member (reads : ReadsInside nested limit) (fits : cursor.remaining ≤ limit) :
    Reads (Parser.member nested) cursor (part (calls cursor.contents.tail)) follow
      (Part (calls cursor.contents.tail)) := by
  simp only [Parser.member, reads_bind_freshId]
  refine Reads.andThen (reads_expectOr (by decide)) fun _ behind _ named => ?_
  have next : behind.contents = cursor.contents.tail :=
    ((between_token (by decide) (by decide)).mp named).2.symm
  rw [← next]
  have shorter := Nat.lt_of_lt_of_le (remaining_lt_of_token named) fits
  exact reads_nameOrCall reads (Nat.le_of_lt shorter) _ _

theorem Between.nameOrCall {called : Bool}
    (between : Between .accepted (part called) ahead behind) :
    Between .accepted (.phrase .nameOrCall) ahead behind := by
  rcases between_append.mp between with ⟨middle, named, args⟩
  exact between_phrase.mpr (named.append args.optional_args)

theorem Between.part_calls (between : Between .accepted (.phrase .nameOrCall) ahead behind)
    (other : headKind behind ≠ .openParen) :
    Between .accepted (part (calls ahead.tail)) ahead behind := by
  rcases between_append.mp (between_phrase.mp between) with ⟨middle, named, args⟩
  rw [((between_token (by decide) (by decide)).mp named).2]
  exact named.append (args.argsIf_calls other)

/-- Where no parenthesis follows, the token behind a name tells how the name is
read. -/
theorem Reads.nameOrCall {parser : Parser α} {holds : α → Prop}
    (reads : Reads parser cursor (part (calls cursor.contents.tail)) (except .openParen) holds) :
    Reads parser cursor (.phrase .nameOrCall) (except .openParen) holds :=
  reads.congr (fun _ => Between.nameOrCall) fun _ between other => between.part_calls other

/-- A number literal is read if the number fits. -/
theorem reads_numberLiteral (found : headKind cursor.contents = .number) (id : NodeId) :
    Reads (Parser.numberLiteral id) cursor (.token .number) follow := by
  rcases ahead : cursor.contents with - | ⟨⟨kind, value⟩, rest⟩
  · simp [ahead] at found
  obtain rfl : kind = .number := by simpa [ahead] using found
  have spelled := Cursor.current_value ahead
  constructor
  · simp only [Parser.numberLiteral, Parser.ensures_bind, Parser.ensures_take, spelled]
    split
    · next fits => simp [between_number, ahead, fits]
    · simp
  · intro behind between _
    rcases between_number.mp between with ⟨-, other, same, fits⟩
    rw [ahead] at same
    cases same
    rcases Option.isSome_iff_exists.mp fits with ⟨number, reads⟩
    simp [Parser.numberLiteral, spelled, reads, ahead]

theorem reads_arrayLiteral (reads : ReadsInside nested limit) (fits : cursor.remaining ≤ limit)
    (found : headKind cursor.contents = .openBracket) (id : NodeId) :
    Reads (Parser.arrayLiteral nested id) cursor
      (.token .openBracket ++ optional (listed (.phrase .expr)) ++ .token .closeBracket) follow := by
  simp only [Parser.arrayLiteral, reads_bind_position, reads_append_assoc]
  refine (reads_take found (by decide)).andThen fun _ behind _ opened => ?_
  have shorter := Nat.lt_of_lt_of_le (remaining_lt_of_token opened) fits
  have listed := reads.listUpTo shorter (by decide : EndsExpr .closeBracket) (by decide) (by decide)
  refine listed.before (Begins.token.fits (by decide)) fun elements _ => ?_
  refine Reads.ending (reads_expect (by decide)) fun closing _ => ?_
  simp

theorem reads_arrayInstance (reads : ReadsInside nested limit) (fits : cursor.remaining ≤ limit)
    {kind : TokenKind} (found : headKind cursor.contents = kind) (more : kind ≠ .eof)
    (plain : kind ≠ .number) (id : NodeId) (start : Position) (element : ElementTy) :
    Reads (Parser.arrayInstance nested id start element) cursor
      (.token kind ++ .token .openBracket ++ .phrase .expr ++ .token .closeBracket) follow := by
  simp only [Parser.arrayInstance, reads_append_assoc]
  refine (reads_take found ⟨more, plain⟩).andThen fun _ _ _ word => ?_
  refine Reads.andThen (reads_expect (by decide)) fun _ behind _ opened => ?_
  have shorter := Nat.lt_trans (remaining_lt_of_token opened) (remaining_lt_of_token word)
  have sized := reads behind (Nat.lt_of_lt_of_le shorter fits)
  refine sized.before (Begins.token.fits (by decide)) fun size _ => ?_
  refine Reads.ending (reads_expect (by decide)) fun closing _ => ?_
  simp

/-! ## Operands -/

variable {state : ExprStacks}

/-- What stands behind `new`. -/
def created : Form :=
  name ++ .token .openParen ++ .token .closeParen |||
    (.token .intWord ||| .token .stringWord) ++ .token .openBracket ++ .phrase .expr ++
      .token .closeBracket

theorem begins_created {dialect : Dialect} :
    Begins dialect created [.identifier, .intWord, .stringWord] :=
  .or (.append (.append .token)) (.append (.append (.append (.or .token .token))))

theorem reads_creation (reads : ReadsInside nested limit) (fits : cursor.remaining ≤ limit)
    (awaiting : Awaiting state) (id : NodeId) :
    Reads (Parser.creation nested id state) cursor (.token .newWord ++ created) follow Filled := by
  refine Reads.andThen (reads_expect (by decide)) fun keyword behind _ opened => ?_
  have within := Nat.le_of_lt (Nat.lt_of_lt_of_le (remaining_lt_of_token opened) fits)
  simp only [reads_bind_currentKind]
  split
  · next found =>
      simp only [awaiting.pushOperator_instantiation, pure_bind]
      refine Reads.left ?_ fun rest between => ?_
      · rw [reads_append_assoc]
        refine (reads_take found (by decide)).step fun named _ => ?_
        refine Reads.step (reads_expect (by decide)) fun opening _ => ?_
        refine Reads.ending (reads_expect (by decide)) fun closing _ => ?_
        rw [reads_bind_spanFrom, reads_pure]
        exact .instantiation _ _ _ awaiting
      · simp [between_token, found] at between
  · next found =>
      refine Reads.same ((reads_arrayInstance reads within found (by decide) (by decide) id _ .int).last
        fun value _ _ _ => reads_pure.mpr (.settled (awaiting.pushOperand value))) fun rest => ?_
      simp [created, between_token, found, name]
  · next found =>
      refine Reads.same ((reads_arrayInstance reads within found (by decide) (by decide) id _ .string).last
        fun value _ _ _ => reads_pure.mpr (.settled (awaiting.pushOperand value))) fun rest => ?_
      simp [created, between_token, found, name]
  · refine reads_misplaced fun _ between => ?_
    have starts := begins_created _ _ between
    simp only [List.mem_cons, List.not_mem_nil] at starts
    grind

/-- An operand is read onto its stack if no parenthesis follows. -/
theorem reads_operand (reads : ReadsInside nested limit) (fits : cursor.remaining ≤ limit)
    (awaiting : Awaiting state) :
    Reads (Parser.operand nested state) cursor (.phrase .operand) (except .openParen) Filled := by
  have pushed (value : Expr) : Filled (state.pushOperand value) :=
    .settled (awaiting.pushOperand value)
  rw [Parser.operand, reads_bind_freshId]
  replace fits : Cursor.remaining { cursor with nextId := cursor.nextId + 1 } ≤ limit := fits
  generalize cursor.nextId = id at fits ⊢
  generalize ({ cursor with nextId := id + 1 } : Cursor) = numbered at fits ⊢
  have noCall {kind : TokenKind} (found : headKind numbered.contents = kind)
      (other : kind ≠ .identifier) (rest : List TokenContent) :
      ¬ Between .accepted (.phrase .nameOrCall) numbered.contents rest :=
    begins_nameOrCall.excludes found (by simpa using other)
  have below {kind : TokenKind} {behind : Cursor}
      (read : Between .accepted (.token kind) numbered.contents behind.contents) :
      behind.remaining < limit :=
    Nat.lt_of_lt_of_le (remaining_lt_of_token read) fits
  simp only [reads_bind_currentKind, reads_phrase]
  split
  · next found =>
      refine Reads.same ((reads_numberLiteral found id).last fun value _ _ _ =>
        reads_pure.mpr (pushed value)) fun rest => ?_
      simp [Phrase.rule, between_token, found, name, noCall found]
  · next found =>
      refine Reads.same ((reads_take found (by decide)).last fun value _ _ _ =>
        reads_pure.mpr (pushed _)) fun rest => ?_
      simp [Phrase.rule, between_token, between_number, found, name, noCall found]
  · next found =>
      refine Reads.same ((reads_take found (by decide)).last fun value _ _ _ =>
        reads_pure.mpr (pushed _)) fun rest => ?_
      simp [Phrase.rule, between_token, between_number, found, name, noCall found]
  · next found =>
      refine Reads.same ((reads_take found (by decide)).last fun value _ _ _ =>
        reads_pure.mpr (pushed _)) fun rest => ?_
      simp [Phrase.rule, between_token, between_number, found, name, noCall found]
  · next found =>
      have named : Reads (do state.pushOperand <$> Parser.nameOrCall nested id (← Parser.take))
          numbered (.phrase .nameOrCall) (except .openParen) Filled := by
        refine Reads.nameOrCall
          ((reads_take found (by decide)).andThen fun token behind _ read => ?_)
        rw [((between_token (by decide) (by decide)).mp read).2]
        exact reads_map.mpr ((reads_nameOrCall reads (Nat.le_of_lt (below read)) id token).weaken
          fun value _ => pushed value)
      simp only [bind_pure_comp]
      refine named.same fun rest => ?_
      simp [Phrase.rule, between_token, between_number, found, name]
  · next found =>
      refine Reads.same ((reads_take found (by decide)).andThen fun token behind _ read =>
        (reads behind (below read)).before (Begins.token.fits (by decide)) fun value _ =>
          Reads.ending (reads_expect (by decide)) fun closing _ =>
            reads_pure.mpr (pushed value)) fun rest => ?_
      simp [Phrase.rule, between_token, between_number, found, name, noCall found]
  · next found =>
      refine Reads.same ((reads_arrayLiteral reads fits found id).last fun value _ _ _ =>
        reads_pure.mpr (pushed value)) fun rest => ?_
      simp [Phrase.rule, between_token, between_number, found, name, noCall found]
  · next found =>
      refine Reads.same (reads_creation reads fits awaiting id) fun rest => ?_
      simp [created, Phrase.rule, between_token, between_number, found, name, noCall found]
  · refine reads_misplaced fun _ between => ?_
    have starts := begins_operand _ _ (between_phrase.mpr between)
    simp only [exprKinds, List.mem_cons, List.not_mem_nil] at starts
    grind

/-- The kinds of binary operators. -/
def operatorKinds : List TokenKind :=
  [.or, .and, .equals, .notEquals, .less, .lessEquals, .greater, .greaterEquals, .plus, .dash,
    .percent, .star, .slash]

theorem mem_operatorKinds {kind : TokenKind} :
    kind ∈ operatorKinds ↔ (BinaryOp.ofToken? kind).isSome = true := by
  cases kind <;> decide

theorem begins_operator {dialect : Dialect} :
    Begins dialect (.phrase .operator) operatorKinds :=
  .phrase ((((((((((((Begins.token.or .token).or .token).or .token).or .token).or .token).or
    .token).or .token).or .token).or .token).or .token).or .token).or .token)

/-- The kinds that go on with an expression behind an operand. -/
def suffixKinds : List TokenKind := operatorKinds ++ [.openBracket, .dot]

theorem begins_suffix {dialect : Dialect} : Begins dialect (.phrase .suffix) suffixKinds :=
  .mono (.phrase ((begins_operator.append.or (.append (.append .token))).or (.append .token)))
    (by decide)

/-- A binary operator that has been looked at is read. -/
theorem reads_take_operator {op : BinaryOp}
    (found : BinaryOp.ofToken? (headKind cursor.contents) = some op) :
    Reads Parser.take cursor (.phrase .operator) follow := by
  replace found := BinaryOp.ofToken?_eq_some_iff.mp found
  cases op <;>
    exact (reads_take found (by decide)).same fun rest => by
      rw [between_phrase]
      simp [Phrase.rule, between_token, found, BinaryOp.token]

theorem EndsExpr.except_openParen {kind : TokenKind} (ends : EndsExpr kind) :
    except .openParen kind :=
  fun isParen => ends.2 (by simp [isParen])

/-- An operator with the operand behind it, or the end of the level. -/
theorem reads_operatorRound (reads : ReadsInside nested limit) (fits : cursor.remaining ≤ limit)
    (filled : Filled state) :
    Reads (Parser.operatorRound nested state) cursor .nothing anything Ends ∧
        headKind cursor.contents ∉ suffixKinds ∨
      Reads (Parser.operatorRound nested state) cursor (.phrase .suffix) (except .openParen)
          (GoesOn Filled) ∧
        ¬ EndsExpr (headKind cursor.contents) := by
  have below {form : Form} {behind further : Cursor}
      (read : Between .accepted form cursor.contents behind.contents)
      (same : further.contents = behind.contents) : further.remaining ≤ limit := by
    have shorter := Nat.le_trans (remaining_le_of_between read) fits
    rwa [Cursor.remaining_eq, same, ← Cursor.remaining_eq]
  simp only [Parser.operatorRound, reads_bind_currentKind]
  split
  · next op found =>
      refine .inr ⟨?_, by simp [EndsExpr, found]⟩
      have weak : (StackedOperator.binary op).priority < .member :=
        Nat.lt_trans op.priority_lt_index (by decide)
      refine Reads.same ((reads_take_operator found).andThen fun _ behind _ read =>
        (reads_nothing_of_yields (filled.yields_pushOperator weak)).silently
          fun pushed further awaiting same =>
            (reads_operand reads (below read same) awaiting).last fun next _ isFilled _ =>
              reads_pure.mpr isFilled) fun rest => ?_
      rw [BinaryOp.ofToken?_eq_some_iff] at found
      rw [between_phrase]
      cases op <;> simp [Phrase.rule, Form.dotted, between_token, found, BinaryOp.token]
  · next found =>
      have noOperator (rest : List TokenContent) :
          ¬ Between .accepted (.phrase .operator) cursor.contents rest := by
        intro between
        have isOperator := mem_operatorKinds.mp (begins_operator _ _ between)
        simp [found] at isOperator
      split
      · next dot =>
          refine .inr ⟨?_, by simp [EndsExpr, dot]⟩
          refine Reads.same ((reads_take dot (by decide)).andThen fun _ behind _ read =>
            (reads_nothing_of_yields filled.yields_pushMember).silently
              fun pushed further isOpen same =>
                (Reads.nameOrCall (reads_member reads (below read same))).last
                  fun right _ isPart _ => reads_pure.mpr (isOpen.pushOperand isPart)) fun rest => ?_
          rw [between_phrase]
          simp [Phrase.rule, Form.dotted, between_token, dot, noOperator]
      · split
        · next other bracket =>
            refine .inr ⟨?_, by simp [EndsExpr, bracket]⟩
            have weak (close : Span) : (StackedOperator.index close).priority < .member :=
              show Priority.index < .member by decide
            refine Reads.same (reads_append_assoc.mpr ((reads_take bracket (by decide)).andThen
              fun _ behind _ read =>
                (reads_nothing_of_yields (filled.yields_reduce (by decide))).silently
                  fun reduced further settled same =>
                    (reads further ?_).before (Begins.token.fits (by decide)) fun inner _ =>
                      Reads.ending (reads_expect (by decide)) fun close _ => reads_pure.mpr
                        (.settled ((settled.push (weak close.span)).pushOperand inner)))) fun rest => ?_
            · rw [Cursor.remaining_eq, same, ← Cursor.remaining_eq]
              exact Nat.lt_of_lt_of_le (remaining_lt_of_token read) fits
            · rw [between_phrase]
              simp [Phrase.rule, Form.dotted, between_token, bracket, noOperator]
        · next notDot notBracket =>
            refine .inl ⟨?_, ?_⟩
            · have finished : Yields state.result cursor fun _ behind =>
                  True ∧ behind.contents = cursor.contents :=
                filled.yields_result.mono fun _ _ same => ⟨trivial, same⟩
              refine (reads_nothing_of_yields finished).ending fun result _ => ?_
              exact reads_pure.mpr trivial
            · simp [suffixKinds, mem_operatorKinds, found, notDot, notBracket]

/-- One level of an expression is read. -/
theorem reads_exprLevel (reads : ReadsInside nested cursor.remaining) :
    Reads (Parser.exprLevel nested) cursor (.phrase .expr) EndsExpr := by
  rw [Parser.exprLevel, reads_phrase]
  refine Reads.bind (reads_operand reads (Nat.le_refl _) awaiting_empty)
    (fun state behind filled first => ?_) ?_
  · refine reads_rounds_many Filled begins_suffix (by decide)
      (show ∀ kind ∈ suffixKinds, except .openParen kind by decide)
      (fun _ => EndsExpr.except_openParen) ?_ filled
    intro state inner filled within
    exact reads_operatorRound reads (Nat.le_trans within (remaining_le_of_between first)) filled
  · intro middle rest suffixes ends
    rcases between_many.mp suffixes with rfl | ⟨_, suffix, -⟩
    · exact ends.except_openParen
    · have starts := begins_suffix _ _ suffix
      exact fun isParen => by simp [isParen, suffixKinds, operatorKinds] at starts

/-- An expression is read in front of a token that does not go on with it. -/
theorem reads_expr : Reads Parser.expr cursor (.phrase .expr) EndsExpr :=
  reads_nesting (fun _ _ reads => reads_exprLevel reads) cursor

end Grammar
end KnightFront
