import KnightFront.Proofs.Identity.Rules

namespace KnightFront

/-!
# Identities in expressions and statements

Every reader of the grammar keeps within its supply of identities.  Operands that
wait on a stack count like finished trees, so a node may take its identity before
its operands are read, after they are, or from one of them.
-/

namespace Expr

theorem map_id_nodesOfList (exprs : List Expr) :
    (nodesOfList exprs).map Expr.id = exprs.flatMap ids := by
  rw [nodesOfList_eq_flatMap, List.map_flatMap]
  rfl

variable {info : ExprInfo}

@[simp]
theorem ids_int (value : Int) : (int info value).ids = [info.id] := rfl

@[simp]
theorem ids_string (value : String) : (string info value).ids = [info.id] := rfl

@[simp]
theorem ids_bool (value : Bool) : (bool info value).ids = [info.id] := rfl

@[simp]
theorem ids_name (used : NameUse) : (name info used).ids = [info.id] := rfl

@[simp]
theorem ids_newInstance (used : NameUse) : (newInstance info used).ids = [info.id] := rfl

@[simp]
theorem ids_binary (op : BinaryOp) (left right : Expr) :
    (binary info op left right).ids = info.id :: (left.ids ++ right.ids) :=
  congrArg (List.cons info.id) List.map_append

@[simp]
theorem ids_field (receiver : Expr) (used : NameUse) :
    (field info receiver used).ids = info.id :: receiver.ids := rfl

@[simp]
theorem ids_newArray (element : ElementTy) (length : Expr) :
    (newArray info element length).ids = info.id :: length.ids := rfl

@[simp]
theorem ids_index (base position : Expr) :
    (index info base position).ids = info.id :: (base.ids ++ position.ids) :=
  congrArg (List.cons info.id) List.map_append

@[simp]
theorem ids_call (callee : NameUse) (args : List Expr) :
    (call info callee args).ids = info.id :: args.flatMap ids :=
  congrArg (List.cons info.id) (map_id_nodesOfList args)

@[simp]
theorem ids_methodCall (receiver : Expr) (callee : NameUse) (args : List Expr) :
    (methodCall info receiver callee args).ids =
      info.id :: (receiver.ids ++ args.flatMap ids) := by
  rw [← map_id_nodesOfList]
  exact congrArg (List.cons info.id) List.map_append

@[simp]
theorem ids_array (items : List Expr) : (array info items).ids = info.id :: items.flatMap ids :=
  congrArg (List.cons info.id) (map_id_nodesOfList items)

end Expr

attribute [local simp] List.count_cons

namespace ExprStacks

open KnightFront.Parser (Allots)

variable {id : NodeId}

/-- The identities of the operands on the stack. -/
def ids (state : ExprStacks) : List NodeId := state.operands.flatMap Expr.ids

/-- Applying an operator takes an identity of its own or that of an operand. -/
theorem allots_apply (top : StackedOperator) (operands : List Expr) :
    Allots id ((operands.flatMap Expr.ids).count id) (apply top operands)
      fun applied => (applied.flatMap Expr.ids).count id := by
  unfold apply
  split
  · exact Allots.freshId.bind fun fresh => .pure (by simp; omega)
  · split
    · exact .pure (by simp; omega)
    · exact .pure (by simp)
    · exact .defective _
  · exact Allots.freshId.bind fun fresh => .pure (by simp; omega)
  · split
    · exact .pure (Nat.le_refl _)
    · exact .defective _
  · exact .defective _

theorem allots_reduce (state : ExprStacks) (least : Priority) :
    Allots id (state.ids.count id) (state.reduce least) fun reduced => reduced.ids.count id := by
  rcases state with ⟨operators, operands⟩
  induction operators generalizing operands with
  | nil => exact .pure (Nat.le_refl _)
  | cons top below inductionHypothesis =>
      simp only [reduce, reduceList]
      split
      · exact (allots_apply top operands).bind_all inductionHypothesis
      · exact .pure (Nat.le_refl _)

theorem allots_pushOperator (state : ExprStacks) (operator : StackedOperator) :
    Allots id (state.ids.count id) (state.pushOperator operator)
      fun pushed => pushed.ids.count id := by
  refine (allots_reduce state operator.priority).bind_all fun reduced => ?_
  exact .pure (Nat.le_refl _)

theorem allots_result (state : ExprStacks) :
    Allots id (state.ids.count id) state.result fun value => value.ids.count id := by
  refine (allots_reduce state .sentinel).bind_all fun reduced => ?_
  split
  · next only single => exact .pure (by simp [ids, single])
  · exact .defective _

theorem count_ids_pushOperand (state : ExprStacks) (operand : Expr) :
    (state.pushOperand operand).ids.count id = operand.ids.count id + state.ids.count id := by
  simp [ids, pushOperand]

end ExprStacks

namespace Parser

variable {id : NodeId}

/-- A reader of expressions allots the identities of its value. -/
def AllotsIds (id : NodeId) (nested : Parser Expr) : Prop :=
  Allots id 0 nested fun value => value.ids.count id

section Expressions

variable {nested : Parser Expr} (inner : AllotsIds id nested)

include inner

theorem allots_arguments :
    Allots id 0 (arguments nested) fun args => (args.flatMap Expr.ids).count id := by
  refine (Idle.expect .openParen).bind fun opening => ?_
  refine (Allots.listUpTo inner .closeParen).bind fun args => ?_
  refine (Idle.expect .closeParen).bind fun closing => ?_
  exact .pure (by simp)

theorem allots_nameOrCall (own : NodeId) (token : Token) :
    Allots id ([own].count id) (nameOrCall nested own token) fun value => value.ids.count id := by
  refine Idle.currentKind.bind fun kind => ?_
  split
  · refine (allots_arguments inner).bind fun args => ?_
    exact (Idle.spanFrom token.span.start).bind fun span => .pure (by simp; omega)
  · exact .pure (by simp)

theorem allots_member : AllotsIds id (member nested) := by
  refine Allots.freshId.bind_all fun fresh => ?_
  refine (Idle.expectOr .identifier _).bind fun token => ?_
  exact allots_nameOrCall inner fresh token

omit inner in
theorem allots_numberLiteral (own : NodeId) :
    Allots id ([own].count id) (numberLiteral own) fun value => value.ids.count id := by
  refine Idle.take.bind fun token => ?_
  split
  · exact .pure (by simp)
  · exact .faulty _ _

theorem allots_arrayLiteral (own : NodeId) :
    Allots id ([own].count id) (arrayLiteral nested own) fun value => value.ids.count id := by
  refine Idle.position.bind fun start => ?_
  refine Idle.take.bind fun bracket => ?_
  refine (Allots.listUpTo inner .closeBracket).bind fun items => ?_
  refine (Idle.expect .closeBracket).bind fun close => ?_
  exact (Idle.spanFrom start).bind fun span => .pure (by simp; omega)

theorem allots_arrayInstance (own : NodeId) (start : Position) (element : ElementTy) :
    Allots id ([own].count id) (arrayInstance nested own start element)
      fun value => value.ids.count id := by
  refine Idle.take.bind fun word => ?_
  refine (Idle.expect .openBracket).bind fun bracket => ?_
  refine inner.bind fun length => ?_
  refine (Idle.expect .closeBracket).bind fun close => ?_
  exact (Idle.spanFrom start).bind fun span => .pure (by simp; omega)

theorem allots_creation (own : NodeId) (state : ExprStacks) :
    Allots id (state.ids.count id + [own].count id) (creation nested own state)
      fun pushed => pushed.ids.count id := by
  have array (start : Position) (element : ElementTy) :
      Allots id (state.ids.count id + [own].count id)
        (do return state.pushOperand (← arrayInstance nested own start element))
        fun pushed => pushed.ids.count id :=
    (Allots.frame (allots_arrayInstance inner own start element) _).bind_all fun value =>
      .pure (by simp [ExprStacks.count_ids_pushOperand, Nat.add_comm])
  refine (Idle.expect .newWord).bind fun keyword => ?_
  refine Idle.currentKind.bind fun kind => ?_
  split
  · refine Idle.take.bind fun className => ?_
    refine (Idle.expect .openParen).bind fun opening => ?_
    refine (Idle.expect .closeParen).bind fun closing => ?_
    refine (Idle.spanFrom className.span.start).bind fun span => ?_
    rw [Nat.add_comm]
    exact (Allots.frame (state.allots_pushOperator _) _).bind_all fun pushed =>
      .pure (by simp [ExprStacks.count_ids_pushOperand])
  · exact array _ _
  · exact array _ _
  · exact .misplaced _

theorem allots_operand (state : ExprStacks) :
    Allots id (state.ids.count id) (operand nested state) fun pushed => pushed.ids.count id := by
  refine Allots.freshId.bind fun fresh => ?_
  refine Idle.currentKind.bind fun kind => ?_
  have push {parser : Parser Expr}
      (read : Allots id ([fresh].count id) parser fun value => value.ids.count id) :
      Allots id (state.ids.count id + [fresh].count id)
        (do return state.pushOperand (← parser)) fun pushed => pushed.ids.count id :=
    (Allots.frame read _).bind_all fun value =>
      .pure (by simp [ExprStacks.count_ids_pushOperand, Nat.add_comm])
  have literal {make : Token → Expr} (single : ∀ token, (make token).ids = [fresh]) :
      Allots id (state.ids.count id + [fresh].count id)
        (do
          let token ← take
          return state.pushOperand (make token)) fun pushed => pushed.ids.count id :=
    Idle.take.bind fun token =>
      .pure (by simp [ExprStacks.count_ids_pushOperand, single, Nat.add_comm])
  split
  · exact push (allots_numberLiteral fresh)
  · exact literal fun _ => rfl
  · exact literal fun _ => rfl
  · exact literal fun _ => rfl
  · exact Idle.take.bind fun token => push (allots_nameOrCall inner fresh token)
  · refine Idle.take.bind fun opening => ?_
    refine inner.bind fun value => ?_
    refine (Idle.expect .closeParen).bind fun closing => .pure ?_
    rw [ExprStacks.count_ids_pushOperand]
    omega
  · exact push (allots_arrayLiteral inner fresh)
  · exact allots_creation inner fresh state
  · exact .misplaced _

theorem allots_operatorRound (state : ExprStacks) :
    Allots id (state.ids.count id) (operatorRound nested state)
      (roundUses (fun next => next.ids.count id) fun value => value.ids.count id) := by
  refine Idle.currentKind.bind fun kind => ?_
  split
  · refine Idle.take.bind fun sign => ?_
    refine (state.allots_pushOperator _).bind_all fun pushed => ?_
    exact (allots_operand inner pushed).bind_all fun next => .pure (Nat.le_refl _)
  · split
    · refine Idle.take.bind fun dot => ?_
      refine (state.allots_pushOperator .member).bind_all fun pushed => ?_
      refine (allots_member inner).bind fun value => .pure ?_
      simp only [roundUses, ExprStacks.count_ids_pushOperand]
      omega
    · split
      · refine Idle.take.bind fun bracket => ?_
        refine (state.allots_reduce .index).bind_all fun reduced => ?_
        refine inner.bind fun value => ?_
        refine (Idle.expect .closeBracket).bind fun close => .pure ?_
        simp [roundUses, ExprStacks.ids, Nat.add_comm]
      · exact state.allots_result.bind_all fun value => .pure (Nat.le_refl _)

end Expressions

theorem allots_expr : AllotsIds id expr := by
  refine Allots.nesting fun nested inner => ?_
  refine (allots_operand inner .empty).bind_all fun state => ?_
  exact .rounds (fun state => state.ids.count id) _ (allots_operatorRound inner) state

/-! ## Types and parts of statements -/

/-- How often an identity occurs in some expressions. -/
def occurrences (id : NodeId) (exprs : List Expr) : Nat := (exprs.flatMap Expr.ids).count id

attribute [local simp] occurrences VarDecl.exprs Assignment.exprs Return.exprs

theorem allots_varDecl : Allots id 0 varDecl fun decl => occurrences id decl.exprs := by
  refine compositional_idle.typeName.bind fun typed => ?_
  refine (Idle.expect .identifier).bind fun name => ?_
  refine Idle.currentKind.bind fun kind => ?_
  simp only [pure_bind]
  split
  · refine Idle.take.bind fun sign => ?_
    refine .bind allots_expr fun value => ?_
    exact (Idle.expect .semicolon).bind fun semicolon => .pure (by simp)
  · exact (Idle.expect .semicolon).bind fun semicolon => .pure (by simp)

theorem allots_assignment :
    Allots id 0 assignment fun found =>
      [found.info.id].count id + occurrences id found.exprs := by
  refine Idle.position.bind fun start => ?_
  refine Allots.freshId.bind fun fresh => ?_
  refine (Idle.expect .identifier).bind fun name => ?_
  refine Idle.currentKind.bind fun kind => ?_
  simp only [pure_bind]
  split
  · refine Idle.take.bind fun bracket => ?_
    refine .bind allots_expr fun index => ?_
    refine (Idle.expect .closeBracket).bind fun close => ?_
    refine (Idle.expect .assignment).bind fun sign => ?_
    refine .bind allots_expr fun value => ?_
    exact (Idle.spanFrom start).bind fun span => .pure (by simp; omega)
  · refine (Idle.expect .assignment).bind fun sign => ?_
    refine .bind allots_expr fun value => ?_
    exact (Idle.spanFrom start).bind fun span => .pure (by simp)

theorem allots_returnClause :
    Allots id 0 returnClause fun returned => occurrences id returned.exprs := by
  refine (Idle.expect .retWord).bind fun keyword => ?_
  refine Idle.currentKind.bind fun kind => ?_
  simp only [pure_bind]
  split
  · refine (Idle.expect .semicolon).bind fun semicolon => ?_
    exact (Idle.spanFrom keyword.span.start).bind fun span => .pure (by simp)
  · refine .bind allots_expr fun value => ?_
    refine (Idle.expect .semicolon).bind fun semicolon => ?_
    exact (Idle.spanFrom keyword.span.start).bind fun span => .pure (by simp)

theorem allots_condition : AllotsIds id condition := by
  refine (Idle.expect .openParen).bind fun opening => ?_
  refine .bind allots_expr fun tested => ?_
  exact (Idle.expect .closeParen).bind fun closing => .pure (by simp)

/-- A reader of statements allots the identities of its value. -/
def AllotsStmt (id : NodeId) (nested : Parser Stmt) : Prop :=
  Allots id 0 nested fun stmt => stmt.ids.count id

/-- How often an identity occurs in some statements. -/
def stmtOccurrences (id : NodeId) (stmts : List Stmt) : Nat := (stmts.flatMap Stmt.ids).count id

theorem stmtOccurrences_cons (first : Stmt) (rest : List Stmt) :
    stmtOccurrences id (first :: rest) = first.ids.count id + stmtOccurrences id rest := by
  calc
    stmtOccurrences id (first :: rest) = (first.ids ++ rest.flatMap Stmt.ids).count id := by
      rw [stmtOccurrences, List.flatMap_cons]
    _ = first.ids.count id + stmtOccurrences id rest := List.count_append

theorem stmtOccurrences_reverse (stmts : List Stmt) :
    stmtOccurrences id stmts.reverse = stmtOccurrences id stmts :=
  count_flatMap_reverse _ _

/-- The statements and the expressions of a list can be counted apart. -/
theorem stmtOccurrences_eq (stmts : List Stmt) :
    stmtOccurrences id stmts =
      ((Stmt.nodesOfList stmts).flatMap Stmt.ownIds).count id +
        occurrences id (Stmt.exprsOfList stmts) := by
  induction stmts with
  | nil => rfl
  | cons first rest inductionHypothesis =>
      simp only [stmtOccurrences, occurrences, List.flatMap_cons, List.count_append, Stmt.ids,
        Stmt.nodesOfList, Stmt.exprsOfList, List.flatMap_append] at inductionHypothesis ⊢
      omega

section Parts

variable {own : NodeId} {span : Span} {condition : Expr} {body : Stmt}

/-- An identity occurs in a condition with its branch as often as in the parts. -/
theorem count_ids_ifThen :
    (Stmt.ifThen ⟨own, span⟩ condition body).ids.count id =
      [own].count id + condition.ids.count id + body.ids.count id := by
  simp only [Stmt.ids, Stmt.nodes, Stmt.exprs, Stmt.ownIds, Stmt.info, List.flatMap_cons,
    List.count_append]
  omega

theorem count_ids_ifElse {alternative : Stmt} :
    (Stmt.ifElse ⟨own, span⟩ condition body alternative).ids.count id =
      [own].count id + condition.ids.count id + body.ids.count id +
        alternative.ids.count id := by
  simp only [Stmt.ids, Stmt.nodes, Stmt.exprs, Stmt.ownIds, Stmt.info, List.flatMap_cons,
    List.flatMap_append, List.cons_append, List.nil_append, List.count_append, List.count_cons,
    List.count_nil]
  omega

theorem count_ids_whileLoop :
    (Stmt.whileLoop ⟨own, span⟩ condition body).ids.count id =
      [own].count id + condition.ids.count id + body.ids.count id := by
  simp only [Stmt.ids, Stmt.nodes, Stmt.exprs, Stmt.ownIds, Stmt.info, List.flatMap_cons,
    List.count_append]
  omega

/-- The assignment at the head of a loop has an identity as well. -/
theorem count_ids_forLoop {init : VarDecl} {update : Assignment} {scope : Option ScopeId} :
    (Stmt.forLoop ⟨own, span⟩ init condition update body scope).ids.count id =
      [own].count id + occurrences id init.exprs + condition.ids.count id +
        ([update.info.id].count id + occurrences id update.exprs) + body.ids.count id := by
  simp only [Stmt.ids, Stmt.nodes, Stmt.exprs, Stmt.ownIds, List.flatMap_cons, List.flatMap_append,
    List.cons_append, List.count_append, List.count_cons, List.count_nil, occurrences]
  omega

theorem count_ids_block {stmts : List Stmt} {scope : Option ScopeId} :
    (Stmt.block ⟨own, span⟩ stmts scope).ids.count id =
      [own].count id + stmtOccurrences id stmts := by
  simp only [stmtOccurrences_eq, occurrences, Stmt.ids, Stmt.nodes, Stmt.exprs, Stmt.ownIds,
    Stmt.info, List.flatMap_cons, List.count_append]
  omega

end Parts

attribute [local simp] Stmt.ids Stmt.nodes Stmt.exprs Stmt.ownIds Stmt.info

theorem allots_returnStmt : AllotsStmt id returnStmt := by
  refine Allots.freshId.bind fun fresh => ?_
  refine .bind allots_returnClause fun returned => ?_
  exact .pure (by simp; omega)

theorem allots_nameStmt : AllotsStmt id nameStmt := by
  refine Idle.nextKind.bind fun next => ?_
  split
  · refine .bind allots_assignment fun assigned => ?_
    refine (Idle.expect .semicolon).bind fun semicolon => ?_
    refine (Idle.spanFrom assigned.info.span.start).bind fun span => ?_
    exact .pure (by simp; omega)
  · refine Idle.position.bind fun start => ?_
    refine Allots.freshId.bind fun fresh => ?_
    refine .bind allots_expr fun first => ?_
    refine Idle.currentKind.bind fun kind => ?_
    split
    · split
      · refine Idle.take.bind fun sign => ?_
        refine .bind allots_expr fun value => ?_
        refine (Idle.expect .semicolon).bind fun semicolon => ?_
        exact (Idle.spanFrom start).bind fun span => .pure (by simp; omega)
      · exact .misplaced _
    split
    · refine (Idle.expect .semicolon).bind fun semicolon => ?_
      exact (Idle.spanFrom start).bind fun span => .pure (by simp; omega)
    · exact .misplaced _

section Statements

variable {nested : Parser Stmt} (inner : AllotsStmt id nested)

include inner

theorem allots_ifStmt : AllotsStmt id (ifStmt nested) := by
  refine Idle.position.bind fun start => ?_
  refine Allots.freshId.bind fun fresh => ?_
  refine (Idle.expect .ifWord).bind fun keyword => ?_
  refine .bind allots_condition fun tested => ?_
  refine inner.bind fun body => ?_
  refine Idle.currentKind.bind fun kind => ?_
  split
  · refine Idle.take.bind fun word => ?_
    refine inner.bind fun alternative => ?_
    refine (Idle.spanFrom start).bind fun span => .pure ?_
    rw [count_ids_ifElse]
    omega
  · refine (Idle.spanFrom start).bind fun span => .pure ?_
    rw [count_ids_ifThen]
    omega

theorem allots_whileStmt : AllotsStmt id (whileStmt nested) := by
  refine Idle.position.bind fun start => ?_
  refine Allots.freshId.bind fun fresh => ?_
  refine (Idle.expect .whileWord).bind fun keyword => ?_
  refine .bind allots_condition fun tested => ?_
  refine inner.bind fun body => ?_
  refine (Idle.spanFrom start).bind fun span => .pure ?_
  rw [count_ids_whileLoop]
  omega

theorem allots_forStmt : AllotsStmt id (forStmt nested) := by
  refine Idle.position.bind fun start => ?_
  refine Allots.freshId.bind fun fresh => ?_
  refine (Idle.expect .forWord).bind fun keyword => ?_
  refine (Idle.expect .openParen).bind fun opening => ?_
  refine compositional_idle.startsDeclaration.bind fun starts => ?_
  cases starts with
  | false => exact .misplaced_bind _ _
  | true =>
      refine .bind allots_varDecl fun init => ?_
      refine .bind allots_expr fun tested => ?_
      refine (Idle.expect .semicolon).bind fun semicolon => ?_
      refine Idle.currentKind.bind fun kind => ?_
      split
      · exact .misplaced_bind _ _
      · refine .bind allots_assignment fun update => ?_
        refine (Idle.expect .closeParen).bind fun closing => ?_
        refine inner.bind fun body => ?_
        refine (Idle.spanFrom start).bind fun span => .pure ?_
        rw [count_ids_forLoop]
        omega

theorem allots_bodyItem : AllotsStmt id (bodyItem nested) := by
  refine compositional_idle.startsDeclaration.bind fun starts => ?_
  split
  · refine Idle.position.bind fun start => ?_
    refine Allots.freshId.bind fun fresh => ?_
    refine .bind allots_varDecl fun decl => ?_
    exact (Idle.spanFrom start).bind fun span => .pure (by simp; omega)
  · exact inner

theorem allots_blockStmt : AllotsStmt id (blockStmt nested) := by
  refine Idle.position.bind fun start => ?_
  refine Allots.freshId.bind fun fresh => ?_
  refine (Idle.expect .openCurly).bind fun opening => ?_
  refine Allots.bind
    (Allots.rounds (stmtOccurrences id) (stmtOccurrences id) (fun collected => ?_) [])
    fun stmts => ?_
  · refine Idle.currentKind.bind fun kind => ?_
    split
    · exact .pure (Nat.le_of_eq (stmtOccurrences_reverse _))
    · exact .misplaced _
    · refine (allots_bodyItem inner).bind fun found => .pure ?_
      rw [roundUses, stmtOccurrences_cons]
      omega
  · refine (Idle.expect .closeCurly).bind fun closing => ?_
    refine (Idle.spanFrom start).bind fun span => .pure ?_
    rw [count_ids_block]
    omega

theorem allots_stmtLevel : AllotsStmt id (stmtLevel nested) := by
  refine Idle.currentKind.bind fun kind => ?_
  split
  · exact allots_ifStmt inner
  · exact allots_whileStmt inner
  · exact allots_forStmt inner
  · exact allots_returnStmt
  · exact allots_blockStmt inner
  · exact allots_nameStmt
  · exact .misplaced _

end Statements

theorem allots_stmt : AllotsStmt id stmt :=
  .nesting fun _nested inner => allots_stmtLevel inner

end Parser

end KnightFront
