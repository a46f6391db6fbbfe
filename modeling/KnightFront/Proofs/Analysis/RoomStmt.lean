import KnightFront.Proofs.Analysis.RoomExpr
import KnightFront.Proofs.Edits.JudgedStmt

namespace KnightFront

/-!
# Reports about statements

A statement is reported on at most once for every token that it mentions and for
every conversion: each of its parts takes the room of its own tokens, and what a place
requires of an expression takes the room that is left where the expression begins.
-/

namespace Diagnostic

variable (diagnostic : Diagnostic)

/-- The room that tokens and the nodes of expressions leave together. -/
def share (places : List Position) (exprs : List Expr) : Nat :=
  diagnostic.rooms places + diagnostic.conversions (exprs.flatMap Expr.nodes)

theorem share_cons (place : Position) (places : List Position) (exprs : List Expr) :
    diagnostic.share (place :: places) exprs =
      diagnostic.room place + diagnostic.share places exprs := by
  rw [share, share, rooms_cons, Nat.add_assoc]

theorem share_append (places others : List Position) (exprs rest : List Expr) :
    diagnostic.share (places ++ others) (exprs ++ rest) =
      diagnostic.share places exprs + diagnostic.share others rest := by
  unfold share
  rw [rooms_append, List.flatMap_append, conversions_append]
  exact Nat.add_add_add_comm _ _ _ _

/-- An expression in front has its own share. -/
theorem share_leaves_append (expr : Expr) (places : List Position) (rest : List Expr) :
    diagnostic.share (expr.leaves ++ places) (expr :: rest) =
      diagnostic.share expr.leaves [expr] + diagnostic.share places rest :=
  diagnostic.share_append expr.leaves places [expr] rest

theorem share_flatMap {α : Type} (places : α → List Position) (exprs : α → List Expr)
    (list : List α) :
    diagnostic.share (list.flatMap places) (list.flatMap exprs) =
      (list.map fun member => diagnostic.share (places member) (exprs member)).sum := by
  induction list with
  | nil => rfl
  | cons first rest inductionHypothesis =>
      rw [List.flatMap_cons, List.flatMap_cons, share_append, inductionHypothesis]
      rfl

end Diagnostic

namespace Analysis

open Resolution Typing

section Requirements

variable (diagnostic : Diagnostic) (place : NamePlace) (scopes : List Scope)

/-- A type is either unknown or void, or neither. -/
theorem times_ty (ty : Ty) (position : Position) (name : String) :
    (checkTy place ty position).tally diagnostic.tells +
        (Reported.reportIf (decide (ty = .void)) position (.voidVariable name)).tally
          diagnostic.tells ≤
      diagnostic.room position := by
  have room := diagnostic.plainRoom_add_callRoom position
  cases ty with
  | named type =>
      have reported : (checkTy place (.named type) position).tally diagnostic.tells ≤ _ :=
        Reported.times_reportIf_le_plainRoom rfl _
      have none : (Reported.reportIf (decide (Ty.named type = .void)) position
        (.voidVariable name)).tally diagnostic.tells = 0 := rfl
      split at reported <;> omega
  | void =>
      have reported : (Reported.reportIf (decide (Ty.void = .void)) position
          (.voidVariable name)).tally diagnostic.tells ≤ diagnostic.plainRoom position :=
        Reported.times_report_le_plainRoom rfl
      have none : (checkTy place .void position).tally diagnostic.tells = 0 := rfl
      omega
  | _ => exact Nat.zero_le _

/-- What is required of an expression takes the room where it begins. -/
theorem times_requirement_judge (required : Ty) (expr : Expr) (problem : Ty → Problem)
    (plain : ∀ ty, (problem ty).isPlain = true) :
    (Reported.reportIf (differs required (judge place scopes expr).value)
        (resolveExpr place scopes expr).value.position
        (problem (judge place scopes expr).value)).tally diagnostic.tells ≤
      spareRoom diagnostic place scopes expr := by
  rw [position_resolveExpr]
  exact times_requirement diagnostic _ (plain _)

theorem times_requireAssignable_judge (name : String) (expected : Ty) (expr : Expr) :
    (requireAssignable place.model name expected (judge place scopes expr).value
        (resolveExpr place scopes expr).value.position).tally diagnostic.tells ≤
      spareRoom diagnostic place scopes expr := by
  rw [position_resolveExpr]
  exact times_requireAssignable diagnostic _ _ _ _ _

/-- What is reported of an expression leaves the room where it begins. -/
theorem times_judge {expr : Expr} (written : expr.Written) (anchored : expr.Anchored) :
    (judge place scopes expr).tally diagnostic.tells + spareRoom diagnostic place scopes expr ≤
      diagnostic.share expr.leaves [expr] := by
  rw [Diagnostic.share, List.flatMap_singleton]
  exact withinLeaves expr written anchored

/-- A target takes the room of a bound name, or leaves it as long as it has a
type. -/
theorem times_targetTy (used : NameUse) :
    (targetTy used).tally diagnostic.tells +
        diagnostic.spared used.span.start (targetTy used).value none ≤
      diagnostic.nameRoom used := by
  unfold targetTy
  cases bound : used.binding with
  | none =>
      have lost : diagnostic.spared used.span.start .error none = 0 :=
        diagnostic.spared_of_lost rfl rfl
      simp [lost]
  | some binding =>
      have room : diagnostic.nameRoom used = diagnostic.plainRoom used.span.start := by
        simp [Diagnostic.nameRoom, bound]
      rw [room]
      dsimp only
      split
      · rw [Reported.tally_pure, Nat.zero_add]
        exact diagnostic.spared_le
      · rw [Reported.tally_bind, Reported.tally_pure, Reported.value_bind, Reported.value_pure,
          diagnostic.spared_of_lost rfl rfl]
        exact Reported.times_report_le_plainRoom rfl

end Requirements

variable (diagnostic : Diagnostic) {head : FunctionHead}

section Parts

variable (place : NamePlace) (scopes : List Scope)

/-- A declaration is reported on at most once for every token that it mentions. -/
theorem times_decl {decl : VarDecl} (written : decl.Written)
    (anchored : ∀ expr ∈ decl.exprs, expr.Anchored) :
    declTally diagnostic.tells place scopes decl ≤ diagnostic.share decl.mentions decl.exprs := by
  have type := times_ty diagnostic place decl.ty decl.tySpan.start decl.name
  rw [VarDecl.mentions, diagnostic.share_cons]
  cases isInit : decl.init with
  | none =>
      rw [declTally_of_no_init _ isInit]
      exact Nat.le_trans type (Nat.le_add_right _ _)
  | some init =>
      have only : decl.exprs = [init] := congrArg Option.toList isInit
      have inside : init ∈ decl.exprs := only ▸ List.mem_singleton_self init
      have value := times_judge diagnostic place scopes (written.exprs init inside)
        (anchored init inside)
      have required := times_requireAssignable_judge diagnostic place scopes decl.name decl.ty init
      rw [declTally_of_init _ isInit, only, List.flatMap_singleton]
      omega

/-- A condition is reported on at most once for every leaf. -/
theorem times_condition {condition : Expr}
    (written : condition.Written) (anchored : condition.Anchored) :
    conditionTally diagnostic.tells place scopes condition ≤
      diagnostic.share condition.leaves [condition] := by
  have value := times_judge diagnostic place scopes written anchored
  have required := times_requirement_judge diagnostic place scopes .bool condition
    .conditionNotBool fun _ => rfl
  rw [conditionTally_eq]
  omega

/-- An assignment is reported on at most once for every token that it mentions. -/
theorem times_assignment {assignment : Assignment}
    (written : assignment.Written) (anchored : ∀ expr ∈ assignment.exprs, expr.Anchored) :
    assignmentTally diagnostic.tells place scopes assignment ≤
      diagnostic.share assignment.mentions assignment.exprs := by
  let target := (bindValue place scopes assignment.target).value
  have name := (binds_bindValue diagnostic place scopes written.target.unbound).room
  have declared := times_targetTy diagnostic target
  have room := diagnostic.plainRoom_add_callRoom assignment.target.span.start
  have last : assignment.value ∈ assignment.exprs :=
    List.mem_append_right _ (List.mem_singleton_self _)
  have value := times_judge diagnostic place scopes (written.exprs _ last) (anchored _ last)
  rw [Assignment.mentions, diagnostic.share_cons]
  cases isIndex : assignment.index with
  | none =>
      have only : assignment.exprs = [assignment.value] := by
        rw [Assignment.exprs, isIndex]
        rfl
      have required := times_requireAssignable_judge diagnostic place scopes target.text
        (targetTy target).value assignment.value
      rw [assignmentTally_of_no_index _ isIndex, only, List.flatMap_singleton]
      dsimp only [target] at declared required ⊢
      omega
  | some index =>
      have both : assignment.exprs = [index, assignment.value] := by
        rw [Assignment.exprs, isIndex]
        rfl
      have inside : index ∈ assignment.exprs := both ▸ List.mem_cons_self
      have position := times_judge diagnostic place scopes (written.exprs _ inside)
        (anchored _ inside)
      have integral := times_requirement_judge diagnostic place scopes .int index
        .indexNotInt fun _ => rfl
      let element := elementTy (targetTy target).value target.span.start
      have elements : element.tally diagnostic.tells +
          diagnostic.spared target.span.start element.value none ≤
            diagnostic.spared target.span.start (targetTy target).value none :=
        times_elementTy diagnostic _ _ _ rfl
      have required := times_requireAssignable_judge diagnostic place scopes target.text
        element.value assignment.value
      rw [assignmentTally_of_index _ isIndex, both, List.flatMap_cons, List.flatMap_singleton,
        diagnostic.share_leaves_append]
      dsimp only [target, element] at declared elements required ⊢
      omega

variable (head) in
/-- A return is reported on at most once for every token that it mentions. -/
theorem times_return {returned : Return}
    (written : returned.Written) (anchored : ∀ expr ∈ returned.exprs, expr.Anchored) :
    returnTally diagnostic.tells place scopes head returned ≤
      diagnostic.share returned.mentions returned.exprs := by
  have room := diagnostic.plainRoom_add_callRoom returned.span.start
  have single (condition : Bool) (problem : Problem) (plain : problem.isPlain = true) :
      (Reported.reportIf condition returned.span.start problem).tally diagnostic.tells ≤
        diagnostic.plainRoom returned.span.start := by
    refine Nat.le_trans (Reported.times_reportIf_le_plainRoom plain _) ?_
    split
    · exact Nat.le_refl _
    · exact Nat.zero_le _
  rw [Return.mentions, diagnostic.share_cons]
  cases isValue : returned.value with
  | none =>
      have missing := single (differs .void head.returnTy)
        (.missingReturnValue head.name head.returnTy) rfl
      rw [returnTally_of_no_value _ isValue]
      omega
  | some result =>
      have only : returned.exprs = [result] := congrArg Option.toList isValue
      have inside : result ∈ returned.exprs := only ▸ List.mem_singleton_self result
      have value := times_judge diagnostic place scopes (written _ inside) (anchored _ inside)
      rw [returnTally_of_value _ isValue, only, List.flatMap_singleton]
      split
      · have void : (Reported.report returned.span.start (.returnFromVoid head.name)).tally
            diagnostic.tells ≤ diagnostic.plainRoom returned.span.start :=
          Reported.times_report_le_plainRoom rfl
        omega
      · have mismatched := single
          (!place.model.isAssignable head.returnTy (judge place scopes result).value)
          (.mismatchedReturn head.name head.returnTy (judge place scopes result).value) rfl
        omega

end Parts

section Stmts

variable {place : NamePlace} {state : ScopeState} {info : StmtInfo}

theorem times_fieldAssign {receiver value : Expr}
    {used : NameUse} (written : (Stmt.fieldAssign info receiver used value).Written)
    (anchored : receiver.Anchored ∧ value.Anchored) :
    stmtTally diagnostic.tells place head state (.fieldAssign info receiver used value) ≤
      diagnostic.share (receiver.leaves ++ used.span.start :: value.leaves) [receiver, value] := by
  rcases written with ⟨receiverWritten, -, usedWritten, valueWritten⟩
  let target := (bindField place (memberTy? place state.scopes receiver) used).value
  have name := (binds_bindField diagnostic place usedWritten.unbound
    (memberTy? place state.scopes receiver)).room
  have declared := times_targetTy diagnostic target
  have room := diagnostic.plainRoom_add_callRoom used.span.start
  have first := times_judge diagnostic place state.scopes receiverWritten anchored.1
  have second := times_judge diagnostic place state.scopes valueWritten anchored.2
  have required := times_requireAssignable_judge diagnostic place state.scopes target.text
    (targetTy target).value value
  rw [stmtTally_fieldAssign, diagnostic.share_leaves_append, diagnostic.share_cons]
  dsimp only [target] at declared required ⊢
  omega

mutual

/-- A statement is reported on at most once for every token that it mentions. -/
theorem times_stmt :
    ∀ (place : NamePlace) (state : ScopeState) (stmt : Stmt), stmt.Written →
      (∀ expr ∈ stmt.exprs, expr.Anchored) →
        stmtTally diagnostic.tells place head state stmt ≤
          diagnostic.share stmt.mentions stmt.exprs
  | place, state, .varDecl _ decl, written, anchored => by
      rw [stmtTally_varDecl]
      exact times_decl diagnostic place state.scopes written anchored
  | place, state, .assign assignment, written, anchored => by
      rw [stmtTally_assign]
      exact times_assignment diagnostic place state.scopes written anchored
  | place, state, .fieldAssign _ receiver used value, written, anchored =>
      times_fieldAssign diagnostic written (by simpa [Stmt.exprs] using anchored)
  | place, state, .call _ expr, written, anchored => by
      have value := times_judge diagnostic place state.scopes written.1
        (anchored expr (List.mem_singleton_self expr))
      rw [stmtTally_call]
      exact Nat.le_trans (Nat.le_add_right _ _) value
  | place, state, .ifThen _ condition body, written, anchored => by
      rw [Stmt.exprs, List.forall_mem_cons] at anchored
      have first := times_condition diagnostic place state.scopes written.1 anchored.1
      have second := times_stmt place state body written.2.1 anchored.2
      rw [stmtTally_ifThen]
      calc
        _ ≤ diagnostic.share condition.leaves [condition] +
              diagnostic.share body.mentions body.exprs := Nat.add_le_add first second
        _ = diagnostic.share (condition.leaves ++ body.mentions) (condition :: body.exprs) :=
          (diagnostic.share_leaves_append _ _ _).symm
  | place, state, .ifElse _ condition body alternative, written, anchored => by
      rw [Stmt.exprs, List.forall_mem_cons, List.forall_mem_append] at anchored
      have first := times_condition diagnostic place state.scopes written.1 anchored.1
      have second := times_stmt place state body written.2.1 anchored.2.1
      have third := times_stmt place (resolveStmt place state body).value.2 alternative
        written.2.2.1 anchored.2.2
      rw [stmtTally_ifElse, Nat.add_assoc]
      calc
        _ ≤ diagnostic.share condition.leaves [condition] +
              (diagnostic.share body.mentions body.exprs +
                diagnostic.share alternative.mentions alternative.exprs) :=
          Nat.add_le_add first (Nat.add_le_add second third)
        _ = diagnostic.share (condition.leaves ++ (body.mentions ++ alternative.mentions))
              (condition :: (body.exprs ++ alternative.exprs)) := by
          rw [diagnostic.share_leaves_append, diagnostic.share_append]
  | place, state, .whileLoop _ condition body, written, anchored => by
      rw [Stmt.exprs, List.forall_mem_cons] at anchored
      have first := times_condition diagnostic place state.scopes written.1 anchored.1
      have second := times_stmt place state body written.2.1 anchored.2
      rw [stmtTally_whileLoop]
      calc
        _ ≤ diagnostic.share condition.leaves [condition] +
              diagnostic.share body.mentions body.exprs := Nat.add_le_add first second
        _ = diagnostic.share (condition.leaves ++ body.mentions) (condition :: body.exprs) :=
          (diagnostic.share_leaves_append _ _ _).symm
  | place, state, .forLoop _ init condition update body _, written, anchored => by
      rw [Stmt.exprs, List.forall_mem_append, List.forall_mem_cons,
        List.forall_mem_append] at anchored
      let inner := innerPlace place state
      let behind := (resolveLocal inner (innerState place state) init).value.2
      have first := times_decl diagnostic inner (innerState place state).scopes written.1 anchored.1
      have second := times_condition diagnostic inner behind.scopes written.2.1 anchored.2.1
      have third := times_assignment diagnostic inner behind.scopes written.2.2.1 anchored.2.2.1
      have last := times_stmt inner behind body written.2.2.2.1 anchored.2.2.2
      rw [stmtTally_forLoop, Nat.add_assoc, Nat.add_assoc]
      calc
        _ ≤ diagnostic.share init.mentions init.exprs +
              (diagnostic.share condition.leaves [condition] +
                (diagnostic.share update.mentions update.exprs +
                  diagnostic.share body.mentions body.exprs)) :=
          Nat.add_le_add first (Nat.add_le_add second (Nat.add_le_add third last))
        _ = diagnostic.share
              (init.mentions ++ (condition.leaves ++ (update.mentions ++ body.mentions)))
              (init.exprs ++ condition :: (update.exprs ++ body.exprs)) := by
          rw [diagnostic.share_append, diagnostic.share_leaves_append, diagnostic.share_append]
  | place, state, .ret _ returned, written, anchored => by
      rw [stmtTally_ret]
      exact times_return diagnostic head place state.scopes written anchored
  | place, state, .block _ stmts _, written, anchored => by
      rw [stmtTally_block]
      exact times_stmts (innerPlace place state) (innerState place state) stmts written anchored

/-- Statements one after another are reported on at most once for every token that
they mention. -/
theorem times_stmts :
    ∀ (place : NamePlace) (state : ScopeState) (stmts : List Stmt), Stmt.WrittenList stmts →
      (∀ expr ∈ Stmt.exprsOfList stmts, expr.Anchored) →
        stmtsTally diagnostic.tells place head state stmts ≤
          diagnostic.share (Stmt.mentionsOfList stmts) (Stmt.exprsOfList stmts)
  | _, _, [], _, _ => Nat.zero_le _
  | place, state, first :: rest, written, anchored => by
      rw [Stmt.exprsOfList, List.forall_mem_append] at anchored
      have here := times_stmt place state first written.1 anchored.1
      have later := times_stmts place (resolveStmt place state first).value.2 rest
        written.2 anchored.2
      rw [stmtsTally_cons, Stmt.mentionsOfList, Stmt.exprsOfList, diagnostic.share_append]
      exact Nat.add_le_add here later

end

end Stmts

end Analysis

end KnightFront
