import KnightFront.Parse.Item
import KnightFront.Proofs.Foresight.Rules

namespace KnightFront

/-!
# Phrases in step

Every reader of the grammar is in step with itself, whatever places and
identities the two runs have met.  Of what has been read the grammar asks little:
how strongly a stacked operator binds, and which of a few forms an expression
has.
-/

/-- What is asked of an expression that has been read. -/
inductive Expr.Form where
  | name
  | call
  | methodCall
  | field
  | other
deriving DecidableEq

/-- The form of an expression. -/
def Expr.form : Expr → Form
  | name .. => .name
  | call .. => .call
  | methodCall .. => .methodCall
  | field .. => .field
  | _ => .other

theorem Expr.isCall_eq (expr : Expr) :
    expr.isCall = decide (expr.form = .call ∨ expr.form = .methodCall) := by
  cases expr <;> rfl

/-- The form of the stacks of a level. -/
def ExprStacks.form (state : ExprStacks) : List Priority × List Expr.Form :=
  (state.operators.map StackedOperator.priority, state.operands.map Expr.form)

open KnightFront.Parser

namespace Twins

variable {twins : Twins}

theorem inStep_apply : ∀ {top image : StackedOperator} {operands images : List Expr},
    image.priority = top.priority → images.map Expr.form = operands.map Expr.form →
    twins.InStep (List.map Expr.form) (ExprStacks.apply top operands)
      (ExprStacks.apply image images)
  | .binary op, image, right :: left :: below, images, same, formed => by
      rcases List.map_eq_cons_iff.mp formed with ⟨right, images, rfl, -, behind⟩
      rcases List.map_eq_cons_iff.mp behind with ⟨left, images, rfl, -, lower⟩
      cases image with
      | binary other =>
          exact .bind inStep_freshId fun id id' _ => inStep_pure (by simp [Expr.form, lower])
      | _ => cases op <;> simp [StackedOperator.priority, BinaryOp.priority] at same
  | .index close, image, position :: base :: below, images, same, formed => by
      rcases List.map_eq_cons_iff.mp formed with ⟨position, images, rfl, -, behind⟩
      rcases List.map_eq_cons_iff.mp behind with ⟨base, images, rfl, -, lower⟩
      cases image with
      | index other =>
          exact .bind inStep_freshId fun id id' _ => inStep_pure (by simp [Expr.form, lower])
      | binary op => cases op <;> simp [StackedOperator.priority, BinaryOp.priority] at same
      | _ => simp [StackedOperator.priority] at same
  | .member, image, right :: receiver :: below, images, same, formed => by
      rcases List.map_eq_cons_iff.mp formed with ⟨other, images, rfl, alike, behind⟩
      rcases List.map_eq_cons_iff.mp behind with ⟨receiver, images, rfl, -, lower⟩
      cases image with
      | member =>
          cases right with
          | call =>
              cases other <;> simp [Expr.form] at alike
              exact inStep_pure (by simp [Expr.form, lower])
          | name =>
              cases other <;> simp [Expr.form] at alike
              exact inStep_pure (by simp [Expr.form, lower])
          | _ => exact inStep_defective _ _
      | binary op => cases op <;> simp [StackedOperator.priority, BinaryOp.priority] at same
      | _ => simp [StackedOperator.priority] at same
  | .instantiation keyword, image, operand :: below, images, same, formed => by
      rcases List.map_eq_cons_iff.mp formed with ⟨other, images, rfl, alike, lower⟩
      cases image with
      | instantiation =>
          cases operand with
          | name =>
              cases other <;> simp [Expr.form] at alike
              exact inStep_pure (by simp [Expr.form, lower])
          | _ => exact inStep_defective _ _
      | binary op => cases op <;> simp [StackedOperator.priority, BinaryOp.priority] at same
      | _ => simp [StackedOperator.priority] at same
  | .binary _, _, [], _, _, _ | .binary _, _, [_], _, _, _ | .index _, _, [], _, _, _
  | .index _, _, [_], _, _, _ | .member, _, [], _, _, _ | .member, _, [_], _, _, _
  | .instantiation _, _, [], _, _, _ => inStep_defective _ _

theorem inStep_reduceList (least : Priority) {operators images : List StackedOperator}
    {operands others : List Expr}
    (same : images.map StackedOperator.priority = operators.map StackedOperator.priority)
    (formed : others.map Expr.form = operands.map Expr.form) :
    twins.InStep ExprStacks.form (ExprStacks.reduceList least operators operands)
      (ExprStacks.reduceList least images others) := by
  induction operators generalizing images operands others with
  | nil =>
      rw [List.map_nil, List.map_eq_nil_iff] at same
      subst same
      exact inStep_pure (by simp [ExprStacks.form, formed])
  | cons top below inductionHypothesis =>
      rcases List.map_eq_cons_iff.mp same with ⟨image, images, rfl, binds, lower⟩
      simp only [ExprStacks.reduceList, binds]
      split
      · refine (inStep_apply binds formed).bind fun operands operands' applied => ?_
        exact inductionHypothesis lower applied
      · exact inStep_pure (by simp [ExprStacks.form, formed, binds, lower])

theorem inStep_reduce (least : Priority) {state image : ExprStacks}
    (formed : image.form = state.form) :
    twins.InStep ExprStacks.form (state.reduce least) (image.reduce least) :=
  inStep_reduceList least (congrArg Prod.fst formed) (congrArg Prod.snd formed)

theorem inStep_pushOperator (operator other : StackedOperator) {state image : ExprStacks}
    (same : other.priority = operator.priority) (formed : image.form = state.form) :
    twins.InStep ExprStacks.form (state.pushOperator operator) (image.pushOperator other) := by
  unfold ExprStacks.pushOperator
  rw [same]
  refine (inStep_reduce _ formed).bind fun reduced further formed => inStep_pure ?_
  simp_all [ExprStacks.form]

theorem inStep_result {state image : ExprStacks} (formed : image.form = state.form) :
    twins.InStep Expr.form state.result image.result := by
  refine (inStep_reduce .sentinel formed).bind fun reduced further formed => ?_
  have operands : further.operands.map Expr.form = reduced.operands.map Expr.form :=
    congrArg Prod.snd formed
  match held : reduced.operands with
  | [only] =>
      rw [held] at operands
      rcases List.map_eq_singleton_iff.mp operands with ⟨other, found, alike⟩
      simp only [found]
      exact inStep_pure alike
  | [] => exact inStep_defective _ _
  | _ :: _ :: _ => exact inStep_defective _ _

theorem form_pushOperand {state image : ExprStacks} {operand other : Expr}
    (formed : image.form = state.form) (alike : other.form = operand.form) :
    (image.pushOperand other).form = (state.pushOperand operand).form := by
  simp_all [ExprStacks.form, ExprStacks.pushOperand]

section Expressions

variable {nested mirror : Parser Expr} (inner : twins.InStep Expr.form nested mirror)

include inner

theorem inStep_arguments : twins.InStep formless (arguments nested) (arguments mirror) := by
  refine (inStep_expect .openParen (by decide)).bind fun opening opening' _ => ?_
  refine (inStep_listUpTo .closeParen inner).bind fun args args' _ => ?_
  refine (inStep_expect .closeParen (by decide)).bind fun closing closing' _ => ?_
  exact inStep_pure rfl

theorem inStep_nameOrCall (id other : NodeId) (token image : Token) :
    twins.InStep Expr.form (nameOrCall nested id token) (nameOrCall mirror other image) := by
  refine inStep_currentKind_bind fun kind => ?_
  split
  · refine .always ?_
    refine (inStep_arguments inner).bind fun args args' _ => ?_
    refine (inStep_spanFrom token.span.start image.span.start).bind fun span span' _ => ?_
    exact inStep_pure rfl
  · exact .always (inStep_pure rfl)

theorem inStep_member : twins.InStep Expr.form (member nested) (member mirror) := by
  refine .bind inStep_freshId fun id id' _ => ?_
  refine (inStep_expectOr .identifier (by decide) _).bind fun token token' _ => ?_
  exact inStep_nameOrCall inner id id' token token'

omit inner in
/-- A number that does not fit is reported where it stands, though it has been
read. -/
theorem inStepAt_numberLiteral (id other : NodeId) :
    twins.InStepAt .number Expr.form (numberLiteral id) (numberLiteral other) := by
  intro index cursor opposite standing beside
  have more : (twins.first.token index).kind ≠ .eof := by simp [standing]
  have opened (id : NodeId) (other : Cursor) (token : Token) (stands : other.current = token) :
      numberLiteral id other = (decimal? token.value.toList).elim
        (.error (.fault ⟨.numberTooLarge token.value, token.span.start⟩))
        fun value => .ok (.int ⟨id, token.span, none⟩ value, other.advance) := by
    rw [numberLiteral, bind_of_ok rfl, stands]
    cases decimal? token.value.toList <;> rfl
  rw [opened id cursor _ beside.here.current]
  cases number : decimal? (twins.first.token index).value.toList with
  | some value =>
      refine ⟨index + 1, Nat.le_succ _, beside.here.advance more, fun covered => ?_⟩
      have there := beside.there (by omega)
      rw [opened other opposite _ there.current, twins.value_eq (by omega), number]
      refine ⟨_, _, rfl, rfl, there.advance ?_⟩
      rwa [twins.kind_eq (by omega)]
  | none =>
      refine ⟨index, Nat.le_refl _, beside.here.index_le, rfl, fun covered => ?_⟩
      rw [opened other opposite _ (beside.there covered).current, twins.value_eq (by omega), number,
        Option.elim_none]

theorem inStepAt_arrayLiteral (id other : NodeId) :
    twins.InStepAt .openBracket Expr.form (arrayLiteral nested id) (arrayLiteral mirror other) := by
  refine inStepAt_position_bind fun start start' => ?_
  refine (inStepAt_take (by decide)).bind fun bracket bracket' _ => ?_
  refine (inStep_listUpTo .closeBracket inner).bind fun items items' _ => ?_
  refine (inStep_expect .closeBracket (by decide)).bind fun close close' _ => ?_
  refine (inStep_spanFrom start start').bind fun span span' _ => ?_
  exact inStep_pure rfl

theorem inStepAt_arrayInstance {kind : TokenKind} (more : kind ≠ .eof) (id other : NodeId)
    (start image : Position) (element : ElementTy) :
    twins.InStepAt kind Expr.form (arrayInstance nested id start element)
      (arrayInstance mirror other image element) := by
  refine (inStepAt_take more).bind fun word word' _ => ?_
  refine (inStep_expect .openBracket (by decide)).bind fun bracket bracket' _ => ?_
  refine inner.bind fun length length' _ => ?_
  refine (inStep_expect .closeBracket (by decide)).bind fun close close' _ => ?_
  refine (inStep_spanFrom start image).bind fun span span' _ => ?_
  exact inStep_pure rfl

theorem inStep_creation (id other : NodeId) {state image : ExprStacks}
    (formed : image.form = state.form) :
    twins.InStep ExprStacks.form (creation nested id state) (creation mirror other image) := by
  refine (inStep_expect .newWord (by decide)).bind fun keyword keyword' _ => ?_
  refine inStep_currentKind_bind fun kind => ?_
  cases kind with
  | identifier =>
      refine (inStepAt_take (by decide)).bind fun className className' _ => ?_
      refine (inStep_expect .openParen (by decide)).bind fun opening opening' _ => ?_
      refine (inStep_expect .closeParen (by decide)).bind fun closing closing' _ => ?_
      refine (inStep_spanFrom className.span.start className'.span.start).bind
        fun span span' _ => ?_
      refine (inStep_pushOperator (.instantiation keyword.span) (.instantiation keyword'.span) rfl
        formed).bind fun pushed pushed' alike => ?_
      exact inStep_pure (form_pushOperand alike rfl)
  | intWord | stringWord =>
      refine (inStepAt_arrayInstance inner (by decide) _ _ _ _ _).bind fun value value' alike => ?_
      exact inStep_pure (form_pushOperand formed alike)
  | _ => exact .always (inStep_misplaced _)

theorem inStep_operand {state image : ExprStacks} (formed : image.form = state.form) :
    twins.InStep ExprStacks.form (operand nested state) (operand mirror image) := by
  refine .bind inStep_freshId fun id id' _ => ?_
  refine inStep_currentKind_bind fun kind => ?_
  cases kind with
  | number =>
      refine (inStepAt_numberLiteral id id').bind fun value value' alike => ?_
      exact inStep_pure (form_pushOperand formed alike)
  | string | trueWord | falseWord =>
      refine (inStepAt_take (by decide)).bind fun token token' _ => ?_
      exact inStep_pure (form_pushOperand formed rfl)
  | identifier =>
      refine (inStepAt_take (by decide)).bind fun token token' _ => ?_
      refine (inStep_nameOrCall inner id id' token token').bind fun value value' alike => ?_
      exact inStep_pure (form_pushOperand formed alike)
  | openParen =>
      refine (inStepAt_take (by decide)).bind fun opening opening' _ => ?_
      refine inner.bind fun value value' alike => ?_
      refine (inStep_expect .closeParen (by decide)).bind fun closing closing' _ => ?_
      exact inStep_pure (form_pushOperand formed alike)
  | openBracket =>
      refine (inStepAt_arrayLiteral inner id id').bind fun value value' alike => ?_
      exact inStep_pure (form_pushOperand formed alike)
  | newWord => exact .always (inStep_creation inner id id' formed)
  | _ => exact .always (inStep_misplaced _)

theorem inStep_operatorRound {state image : ExprStacks} (formed : image.form = state.form) :
    twins.InStep (roundForm ExprStacks.form Expr.form) (operatorRound nested state)
      (operatorRound mirror image) := by
  refine inStep_currentKind_bind fun kind => ?_
  cases operator : BinaryOp.ofToken? kind with
  | some op =>
      have more : kind ≠ .eof := by
        rintro rfl
        cases operator
      refine (inStepAt_take more).bind fun sign sign' _ => ?_
      refine (inStep_pushOperator (.binary op) (.binary op) rfl formed).bind
        fun pushed pushed' alike => ?_
      refine (inStep_operand inner alike).bind fun next next' found => ?_
      exact inStep_pure (congrArg Sum.inl found)
  | none =>
      dsimp only
      split
      · next isDot =>
          refine (inStepAt_take (by simp [isDot])).bind fun dot dot' _ => ?_
          refine (inStep_pushOperator .member .member rfl formed).bind
            fun pushed pushed' alike => ?_
          refine (inStep_member inner).bind fun found found' same => ?_
          exact inStep_pure (congrArg Sum.inl (form_pushOperand alike same))
      split
      · next isBracket =>
          refine (inStepAt_take (by simp [isBracket])).bind fun bracket bracket' _ => ?_
          refine (inStep_reduce .index formed).bind fun reduced reduced' same => ?_
          refine inner.bind fun position position' alike => ?_
          refine (inStep_expect .closeBracket (by decide)).bind fun close close' _ => ?_
          refine inStep_pure ?_
          simp_all [roundForm, ExprStacks.form, StackedOperator.priority]
      · refine .always ?_
        refine (inStep_result formed).bind fun value value' alike => ?_
        exact inStep_pure (congrArg Sum.inr alike)

theorem inStep_exprLevel : twins.InStep Expr.form (exprLevel nested) (exprLevel mirror) := by
  refine (inStep_operand inner rfl).bind fun state state' formed => ?_
  refine inStep_rounds ExprStacks.form Expr.form (fun next next' same => ?_) formed
  exact inStep_operatorRound inner same

end Expressions

/-- Two expressions are read in step. -/
theorem inStep_expr : twins.InStep Expr.form expr expr :=
  inStep_nesting fun _nested _mirror inner => inStep_exprLevel inner

/-! ## Types and parts of statements -/

theorem inStep_arraySuffix (element : ElementTy) :
    twins.InStep formless (arraySuffix element) (arraySuffix element) := by
  refine inStep_currentKind_bind fun kind => ?_
  split
  · next isBracket =>
      refine (inStepAt_take (by simp [isBracket])).bind fun bracket bracket' _ => ?_
      refine (inStep_expect .closeBracket (by decide)).bind fun close close' _ => ?_
      exact inStep_pure rfl
  · exact .always (inStep_pure rfl)

theorem inStep_typeName : twins.InStep formless typeName typeName := by
  refine .bind inStep_position fun start start' _ => ?_
  refine inStep_currentKind_bind fun kind => ?_
  cases kind with
  | intWord | stringWord =>
      refine (inStepAt_take (by decide)).bind fun word word' _ => ?_
      refine (inStep_arraySuffix _).bind fun ty ty' _ => ?_
      refine (inStep_spanFrom start start').bind fun span span' _ => ?_
      exact inStep_pure rfl
  | boolWord | voidWord | identifier =>
      refine (inStepAt_take (by decide)).bind fun word word' _ => ?_
      simp only [pure_bind]
      refine (inStep_spanFrom start start').bind fun span span' _ => ?_
      exact inStep_pure rfl
  | _ => exact .always (inStep_misplaced_bind _ _ _)

/-- Both runs agree on whether a declaration begins.  This looks one token behind
the one they stand on. -/
theorem inStep_startsDeclaration_bind {β ψ : Type} {result : β → ψ} {next after : Bool → Parser β}
    (late : ∀ starts, twins.InStep result (next starts) (after starts)) :
    twins.InStep result (startsDeclaration >>= next) (startsDeclaration >>= after) := by
  have looked : twins.InStep id startsDeclaration startsDeclaration := by
    refine inStep_currentKind_bind fun kind => ?_
    cases kind with
    | identifier => exact .always <| inStep_nextKind_bind fun _ => inStep_pure rfl
    | _ => exact .always (inStep_pure rfl)
  refine looked.bind fun starts image same => ?_
  cases same
  exact late starts

theorem inStep_varDecl : twins.InStep formless varDecl varDecl := by
  refine .bind inStep_typeName fun typed typed' _ => ?_
  refine (inStep_expect .identifier (by decide)).bind fun name name' _ => ?_
  refine inStep_currentKind_bind fun kind => ?_
  simp only [pure_bind]
  split
  · next assigned =>
      refine (inStepAt_take (by simp [assigned])).bind fun sign sign' _ => ?_
      refine .bind inStep_expr fun value value' _ => ?_
      refine (inStep_expect .semicolon (by decide)).bind fun semicolon semicolon' _ => ?_
      exact inStep_pure rfl
  · refine .always ?_
    refine (inStep_expect .semicolon (by decide)).bind fun semicolon semicolon' _ => ?_
    exact inStep_pure rfl

theorem inStep_assignment : twins.InStep formless assignment assignment := by
  refine .bind inStep_position fun start start' _ => ?_
  refine .bind inStep_freshId fun id id' _ => ?_
  refine (inStep_expect .identifier (by decide)).bind fun name name' _ => ?_
  refine inStep_currentKind_bind fun kind => ?_
  simp only [pure_bind]
  split
  · next isBracket =>
      refine (inStepAt_take (by simp [isBracket])).bind fun bracket bracket' _ => ?_
      refine .bind inStep_expr fun index index' _ => ?_
      refine (inStep_expect .closeBracket (by decide)).bind fun close close' _ => ?_
      refine (inStep_expect .assignment (by decide)).bind fun sign sign' _ => ?_
      refine .bind inStep_expr fun value value' _ => ?_
      refine (inStep_spanFrom start start').bind fun span span' _ => ?_
      exact inStep_pure rfl
  · refine .always ?_
    refine (inStep_expect .assignment (by decide)).bind fun sign sign' _ => ?_
    refine .bind inStep_expr fun value value' _ => ?_
    refine (inStep_spanFrom start start').bind fun span span' _ => ?_
    exact inStep_pure rfl

theorem inStep_returnClause : twins.InStep formless returnClause returnClause := by
  refine (inStep_expect .retWord (by decide)).bind fun keyword keyword' _ => ?_
  refine inStep_currentKind_bind fun kind => ?_
  simp only [pure_bind]
  split
  · refine .always ?_
    refine (inStep_expect .semicolon (by decide)).bind fun semicolon semicolon' _ => ?_
    refine (inStep_spanFrom keyword.span.start keyword'.span.start).bind fun span span' _ => ?_
    exact inStep_pure rfl
  · refine .always ?_
    refine .bind inStep_expr fun value value' _ => ?_
    refine (inStep_expect .semicolon (by decide)).bind fun semicolon semicolon' _ => ?_
    refine (inStep_spanFrom keyword.span.start keyword'.span.start).bind fun span span' _ => ?_
    exact inStep_pure rfl

theorem inStep_returnStmt : twins.InStep formless returnStmt returnStmt := by
  refine .bind inStep_freshId fun id id' _ => ?_
  refine .bind inStep_returnClause fun returned returned' _ => ?_
  exact inStep_pure rfl

theorem inStep_condition : twins.InStep formless condition condition := by
  refine (inStep_expect .openParen (by decide)).bind fun opening opening' _ => ?_
  refine .bind inStep_expr fun tested tested' _ => ?_
  refine (inStep_expect .closeParen (by decide)).bind fun closing closing' _ => ?_
  exact inStep_pure rfl

/-- What begins with a name is told by the token behind the name; what follows an
expression, by the form of the expression. -/
theorem inStep_nameStmt : twins.InStep formless nameStmt nameStmt := by
  refine inStep_nextKind_bind fun next => ?_
  split
  · refine .bind inStep_assignment fun assigned assigned' _ => ?_
    refine (inStep_expect .semicolon (by decide)).bind fun semicolon semicolon' _ => ?_
    refine (inStep_spanFrom assigned.info.span.start assigned'.info.span.start).bind
      fun span span' _ => ?_
    exact inStep_pure rfl
  · refine .bind inStep_position fun start start' _ => ?_
    refine .bind inStep_freshId fun id id' _ => ?_
    refine .bind inStep_expr fun found image alike => ?_
    refine inStep_currentKind_bind fun kind => ?_
    rw [image.isCall_eq, alike, ← found.isCall_eq]
    split
    · next assigned =>
        cases found with
        | field =>
            cases image <;> simp [Expr.form] at alike
            refine (inStepAt_take (by simp [assigned])).bind fun sign sign' _ => ?_
            refine .bind inStep_expr fun value value' _ => ?_
            refine (inStep_expect .semicolon (by decide)).bind fun semicolon semicolon' _ => ?_
            refine (inStep_spanFrom start start').bind fun span span' _ => ?_
            exact inStep_pure rfl
        | _ =>
            cases image <;> simp [Expr.form] at alike <;> exact .always (inStep_misplaced _)
    split
    · refine .always ?_
      refine (inStep_expect .semicolon (by decide)).bind fun semicolon semicolon' _ => ?_
      refine (inStep_spanFrom start start').bind fun span span' _ => ?_
      exact inStep_pure rfl
    · exact .always (inStep_misplaced _)

section Statements

variable {nested mirror : Parser Stmt} (inner : twins.InStep formless nested mirror)

include inner

theorem inStep_ifStmt : twins.InStep formless (ifStmt nested) (ifStmt mirror) := by
  refine .bind inStep_position fun start start' _ => ?_
  refine .bind inStep_freshId fun id id' _ => ?_
  refine (inStep_expect .ifWord (by decide)).bind fun keyword keyword' _ => ?_
  refine .bind inStep_condition fun tested tested' _ => ?_
  refine inner.bind fun body body' _ => ?_
  refine inStep_currentKind_bind fun kind => ?_
  split
  · next isElse =>
      refine (inStepAt_take (by simp [isElse])).bind fun word word' _ => ?_
      refine inner.bind fun alternative alternative' _ => ?_
      refine (inStep_spanFrom start start').bind fun span span' _ => ?_
      exact inStep_pure rfl
  · refine .always ?_
    refine (inStep_spanFrom start start').bind fun span span' _ => ?_
    exact inStep_pure rfl

theorem inStep_whileStmt : twins.InStep formless (whileStmt nested) (whileStmt mirror) := by
  refine .bind inStep_position fun start start' _ => ?_
  refine .bind inStep_freshId fun id id' _ => ?_
  refine (inStep_expect .whileWord (by decide)).bind fun keyword keyword' _ => ?_
  refine .bind inStep_condition fun tested tested' _ => ?_
  refine inner.bind fun body body' _ => ?_
  refine (inStep_spanFrom start start').bind fun span span' _ => ?_
  exact inStep_pure rfl

theorem inStep_forStmt : twins.InStep formless (forStmt nested) (forStmt mirror) := by
  refine .bind inStep_position fun start start' _ => ?_
  refine .bind inStep_freshId fun id id' _ => ?_
  refine (inStep_expect .forWord (by decide)).bind fun keyword keyword' _ => ?_
  refine (inStep_expect .openParen (by decide)).bind fun opening opening' _ => ?_
  refine inStep_startsDeclaration_bind fun starts => ?_
  cases starts with
  | false => exact inStep_misplaced_bind _ _ _
  | true =>
      refine .bind inStep_varDecl fun init init' _ => ?_
      refine .bind inStep_expr fun tested tested' _ => ?_
      refine (inStep_expect .semicolon (by decide)).bind fun semicolon semicolon' _ => ?_
      refine inStep_currentKind_bind fun kind => ?_
      split
      · exact .always (inStep_misplaced_bind _ _ _)
      · refine .always ?_
        refine .bind inStep_assignment fun update update' _ => ?_
        refine (inStep_expect .closeParen (by decide)).bind fun closing closing' _ => ?_
        refine inner.bind fun body body' _ => ?_
        refine (inStep_spanFrom start start').bind fun span span' _ => ?_
        exact inStep_pure rfl

theorem inStep_bodyItem : twins.InStep formless (bodyItem nested) (bodyItem mirror) := by
  refine inStep_startsDeclaration_bind fun starts => ?_
  split
  · refine .bind inStep_position fun start start' _ => ?_
    refine .bind inStep_freshId fun id id' _ => ?_
    refine .bind inStep_varDecl fun decl decl' _ => ?_
    refine (inStep_spanFrom start start').bind fun span span' _ => ?_
    exact inStep_pure rfl
  · exact inner

theorem inStep_blockStmt : twins.InStep formless (blockStmt nested) (blockStmt mirror) := by
  refine .bind inStep_position fun start start' _ => ?_
  refine .bind inStep_freshId fun id id' _ => ?_
  refine (inStep_expect .openCurly (by decide)).bind fun opening opening' _ => ?_
  refine InStep.bind (inStep_rounds formless formless (fun collected collected' _ => ?_) rfl)
    fun stmts stmts' _ => ?_
  · refine inStep_currentKind_bind fun kind => ?_
    cases kind with
    | closeCurly => exact .always (inStep_pure rfl)
    | eof => exact .always (inStep_misplaced _)
    | _ =>
        refine .always ?_
        refine (inStep_bodyItem inner).bind fun stmt stmt' _ => ?_
        exact inStep_pure rfl
  · refine (inStep_expect .closeCurly (by decide)).bind fun closing closing' _ => ?_
    refine (inStep_spanFrom start start').bind fun span span' _ => ?_
    exact inStep_pure rfl

theorem inStep_stmtLevel : twins.InStep formless (stmtLevel nested) (stmtLevel mirror) := by
  refine inStep_currentKind_bind fun kind => ?_
  cases kind with
  | ifWord => exact .always (inStep_ifStmt inner)
  | whileWord => exact .always (inStep_whileStmt inner)
  | forWord => exact .always (inStep_forStmt inner)
  | retWord => exact .always inStep_returnStmt
  | openCurly => exact .always (inStep_blockStmt inner)
  | identifier => exact .always inStep_nameStmt
  | _ => exact .always (inStep_misplaced _)

end Statements

theorem inStep_stmt : twins.InStep formless stmt stmt :=
  inStep_nesting fun _nested _mirror inner => inStep_stmtLevel inner

theorem inStep_param : twins.InStep formless param param := by
  refine .bind inStep_typeName fun typed typed' _ => ?_
  refine (inStep_expect .identifier (by decide)).bind fun name name' _ => ?_
  exact inStep_pure rfl

theorem inStep_params : twins.InStep formless params params := by
  refine (inStep_expect .openParen (by decide)).bind fun opening opening' _ => ?_
  refine (inStep_listUpTo .closeParen inStep_param).bind fun found found' _ => ?_
  refine (inStep_expect .closeParen (by decide)).bind fun closing closing' _ => ?_
  exact inStep_pure rfl

theorem inStep_functionHead : twins.InStep formless functionHead functionHead := by
  refine (inStep_expect .fnWord (by decide)).bind fun keyword keyword' _ => ?_
  refine (inStep_expect .identifier (by decide)).bind fun name name' _ => ?_
  refine .bind inStep_params fun params params' _ => ?_
  refine (inStep_expect .colon (by decide)).bind fun colon colon' _ => ?_
  refine .bind inStep_typeName fun returned returned' _ => ?_
  exact inStep_pure rfl

theorem inStep_functionBody : twins.InStep formless functionBody functionBody := by
  refine inStep_rounds formless formless (fun collected collected' _ => ?_) rfl
  refine inStep_currentKind_bind fun kind => ?_
  cases kind with
  | closeCurly => exact .always (inStep_pure rfl)
  | eof => exact .always (inStep_misplaced _)
  | retWord =>
      refine .always ?_
      refine .bind inStep_freshId fun id id' _ => ?_
      refine .bind inStep_returnClause fun returned returned' _ => ?_
      refine inStep_currentKind_bind fun next => ?_
      split
      · exact .always (inStep_pure rfl)
      · exact .always (inStep_pure rfl)
  | _ =>
      refine .always ?_
      refine (inStep_bodyItem inStep_stmt).bind fun stmt stmt' _ => ?_
      exact inStep_pure rfl

theorem inStep_function : twins.InStep formless function function := by
  refine .bind inStep_freshId fun id id' _ => ?_
  refine .bind inStep_functionHead fun head head' _ => ?_
  refine (inStep_expect .openCurly (by decide)).bind fun opening opening' _ => ?_
  refine .bind inStep_functionBody fun body body' _ => ?_
  refine (inStep_expect .closeCurly (by decide)).bind fun closing closing' _ => ?_
  exact inStep_pure rfl

theorem inStep_inclusion : twins.InStep formless inclusion inclusion := by
  refine (inStep_expect .includeWord (by decide)).bind fun keyword keyword' _ => ?_
  refine (inStep_expect .less (by decide)).bind fun opening opening' _ => ?_
  refine (inStep_expect .identifier (by decide)).bind fun name name' _ => ?_
  refine (inStep_expect .greater (by decide)).bind fun closing closing' _ => ?_
  refine (inStep_spanFrom keyword.span.start keyword'.span.start).bind fun span span' _ => ?_
  exact inStep_pure rfl

theorem inStep_enumMembers : twins.InStep formless enumMembers enumMembers := by
  refine inStep_rounds formless formless (fun collected collected' _ => ?_) rfl
  refine inStep_currentKind_bind fun kind => ?_
  split
  · next isName =>
      refine (inStepAt_take (by simp [isName])).bind fun member member' _ => ?_
      refine inStep_currentKind_bind fun next => ?_
      split
      · next isComma =>
          refine (inStepAt_take (by simp [isComma])).bind fun comma comma' _ => ?_
          exact inStep_pure rfl
      · exact .always (inStep_pure rfl)
  · exact .always (inStep_pure rfl)

theorem inStep_enumeration : twins.InStep formless enumeration enumeration := by
  refine (inStep_expect .enumWord (by decide)).bind fun keyword keyword' _ => ?_
  refine (inStep_expect .identifier (by decide)).bind fun name name' _ => ?_
  refine (inStep_expect .openCurly (by decide)).bind fun opening opening' _ => ?_
  refine .bind inStep_enumMembers fun members members' _ => ?_
  refine (inStep_expect .closeCurly (by decide)).bind fun closing closing' _ => ?_
  exact inStep_pure rfl

theorem inStep_nameUse : twins.InStep formless nameUse nameUse := by
  refine (inStep_expect .identifier (by decide)).bind fun token token' _ => ?_
  exact inStep_pure rfl

theorem inStep_nameClause {keyword : TokenKind} (more : keyword ≠ .eof) :
    twins.InStep formless (nameClause keyword) (nameClause keyword) := by
  refine inStep_currentKind_bind fun kind => ?_
  split
  · next isKeyword =>
      refine (inStepAt_take (isKeyword ▸ more)).bind fun word word' _ => ?_
      exact inStep_commaSeparated inStep_nameUse
  · exact .always (inStep_pure rfl)

theorem inStep_interfaceMethods : twins.InStep formless interfaceMethods interfaceMethods := by
  refine inStep_rounds formless formless (fun collected collected' _ => ?_) rfl
  refine inStep_currentKind_bind fun kind => ?_
  split
  · refine .always ?_
    refine .bind inStep_functionHead fun head head' _ => ?_
    refine (inStep_expect .semicolon (by decide)).bind fun semicolon semicolon' _ => ?_
    exact inStep_pure rfl
  · exact .always (inStep_pure rfl)

theorem inStep_interface : twins.InStep formless interface interface := by
  refine (inStep_expect .interfaceWord (by decide)).bind fun keyword keyword' _ => ?_
  refine (inStep_expect .identifier (by decide)).bind fun name name' _ => ?_
  refine (inStep_nameClause (by decide)).bind fun bases bases' _ => ?_
  refine (inStep_expect .openCurly (by decide)).bind fun opening opening' _ => ?_
  refine .bind inStep_interfaceMethods fun methods methods' _ => ?_
  refine (inStep_expect .closeCurly (by decide)).bind fun closing closing' _ => ?_
  exact inStep_pure rfl

theorem inStep_parentClause : twins.InStep formless parentClause parentClause := by
  refine inStep_currentKind_bind fun kind => ?_
  split
  · next isKeyword =>
      refine (inStepAt_take (by simp [isKeyword])).bind fun word word' _ => ?_
      refine .bind inStep_nameUse fun parent parent' _ => ?_
      exact inStep_pure rfl
  · exact .always (inStep_pure rfl)

theorem inStep_classMembers : twins.InStep formless classMembers classMembers := by
  refine inStep_rounds formless formless (fun collected collected' _ => ?_) rfl
  rcases collected with ⟨fields, methods⟩
  rcases collected' with ⟨fields', methods'⟩
  refine inStep_currentKind_bind fun kind => ?_
  cases kind with
  | closeCurly => exact .always (inStep_pure rfl)
  | fnWord => exact .always (.bind inStep_function fun method method' _ => inStep_pure rfl)
  | _ =>
      refine .always (inStep_startsDeclaration_bind fun starts => ?_)
      cases starts with
      | false => exact inStep_misplaced _
      | true => exact .bind inStep_varDecl fun field field' _ => inStep_pure rfl

theorem inStep_classDecl : twins.InStep formless classDecl classDecl := by
  refine (inStep_expect .classWord (by decide)).bind fun keyword keyword' _ => ?_
  refine (inStep_expect .identifier (by decide)).bind fun name name' _ => ?_
  refine .bind inStep_parentClause fun parent parent' _ => ?_
  refine (inStep_nameClause (by decide)).bind fun uses uses' _ => ?_
  refine (inStep_expect .openCurly (by decide)).bind fun opening opening' _ => ?_
  refine .bind inStep_classMembers fun members members' _ => ?_
  refine (inStep_expect .closeCurly (by decide)).bind fun closing closing' _ => ?_
  exact inStep_pure rfl

theorem inStep_item : twins.InStep formless item item := by
  refine inStep_currentKind_bind fun kind => ?_
  cases kind with
  | includeWord => exact .always (.bind inStep_inclusion fun decl decl' _ => inStep_pure rfl)
  | enumWord => exact .always (.bind inStep_enumeration fun decl decl' _ => inStep_pure rfl)
  | interfaceWord => exact .always (.bind inStep_interface fun decl decl' _ => inStep_pure rfl)
  | classWord => exact .always (.bind inStep_classDecl fun decl decl' _ => inStep_pure rfl)
  | fnWord => exact .always (.bind inStep_function fun decl decl' _ => inStep_pure rfl)
  | _ =>
      refine .always (inStep_startsDeclaration_bind fun starts => ?_)
      cases starts with
      | false => exact inStep_misplaced _
      | true => exact .bind inStep_varDecl fun decl decl' _ => inStep_pure rfl

/-- Two programs are read in step. -/
theorem inStep_items : twins.InStep formless items items := by
  refine inStep_rounds formless formless (fun collected collected' _ => ?_) rfl
  refine inStep_currentKind_bind fun kind => ?_
  split
  · exact .always (inStep_pure rfl)
  · exact .always (.bind inStep_item fun decl decl' _ => inStep_pure rfl)

end Twins

end KnightFront
