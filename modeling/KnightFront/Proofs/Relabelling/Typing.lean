import KnightFront.Analysis.Typing
import KnightFront.Proofs.Relabelling.Expressions
import KnightFront.Proofs.Relabelling.Findings

namespace KnightFront

/-!
# Typing relabelled trees

Types come out of a relabelled tree relabelled, and so do the findings, if the
declarations around it say of relabelled types what the old ones say of the
types themselves.  All but the interfaces that a class keeps is judged by what
can be assigned to what.
-/

variable {change : Relabelling} {model other : SymbolModel}

/-- What can be assigned to what does not depend on whether types are
relabelled. -/
def SymbolModel.AssignsAlike (change : Relabelling) (model other : SymbolModel) : Prop :=
  ∀ expected actual, other.isAssignable (expected.relabel change) (actual.relabel change) =
    model.isAssignable expected actual

/-- The declared type of a relabelled name is relabelled. -/
theorem Binding.ty_relabel (binding : Binding) :
    (binding.relabel change).ty = binding.ty.relabel change := by
  cases binding <;> rfl

@[simp]
theorem NameUse.boundTy_relabel (used : NameUse) :
    (used.relabel change).boundTy = used.boundTy.relabel change := by
  cases bound : used.binding with
  | none => simp [boundTy, relabel, bound, Ty.relabel]
  | some binding => simp [boundTy, relabel, bound, Binding.ty_relabel]

@[simp]
theorem Signature.parameterTys_relabel (signature : Signature) :
    (signature.relabel change).parameterTys = signature.parameterTys.map (Ty.relabel change) := by
  simp [parameterTys, relabel]

@[simp]
theorem Binding.signature?_relabel (binding : Binding) :
    (binding.relabel change).signature? = binding.signature?.map (Signature.relabel change) := by
  cases binding <;> rfl

@[simp]
theorem ExprInfo.typed_relabel (info : ExprInfo) (ty : Ty) :
    (info.relabel change).typed (ty.relabel change) = (info.typed ty).relabel change := rfl

@[simp]
theorem ExprInfo.span_relabel (info : ExprInfo) :
    (info.relabel change).span = info.span.relabel change := rfl

@[simp]
theorem Expr.position_relabel (expr : Expr) :
    (expr.relabel change).position = change.start expr.position := by
  simp [position, Span.relabel]

namespace Typing

open Reported (Alike Follows report alike_pure follows_report follows_reportIf)

section Types

variable (injective : Function.Injective change.name)

include injective

theorem relabel_eq_iff {left right : Ty} :
    left.relabel change = right.relabel change ↔ left = right :=
  (Ty.relabel_injective injective).eq_iff

theorem differs_relabel (required actual : Ty) :
    differs (required.relabel change) (actual.relabel change) = differs required actual := by
  simp [differs, relabel_eq_iff injective]

end Types

theorem converts_relabel (op : BinaryOp) (left right : Ty) :
    converts op (left.relabel change) (right.relabel change) = converts op left right := by
  simp [converts]

section Operators

variable (assigns : model.AssignsAlike change other)

include assigns

theorem comparable_relabel (left right : Ty) :
    comparable other (left.relabel change) (right.relabel change) = comparable model left right := by
  have forth := assigns left right
  have back := assigns right left
  cases left with
  | named => cases right with
    | named => simp_all [comparable, Ty.relabel]
    | _ => rfl
  | _ => cases right <;> rfl

theorem operatorTy?_relabel (op : BinaryOp) (left right : Ty) :
    operatorTy? other op (left.relabel change) (right.relabel change) =
      (operatorTy? model op left right).map (Ty.relabel change) := by
  cases op with
  | plus => cases left <;> cases right <;> rfl
  | _ =>
      simp only [operatorTy?, Ty.relabel_eq_int_iff, Ty.relabel_eq_bool_iff,
        comparable_relabel assigns]
      split <;> rfl

theorem argumentsMatch_relabel (expected actual : List Ty) :
    argumentsMatch other (expected.map (Ty.relabel change)) (actual.map (Ty.relabel change)) =
      argumentsMatch model expected actual := by
  have pairs : (expected.zip actual).map (Prod.map (Ty.relabel change) (Ty.relabel change)) =
      (expected.map (Ty.relabel change)).zip (actual.map (Ty.relabel change)) :=
    List.zip_map.symm
  have each : ((expected.zip actual).all fun pair =>
      other.isAssignable (pair.1.relabel change) (pair.2.relabel change)) =
      (expected.zip actual).all fun pair => model.isAssignable pair.1 pair.2 := by
    simp only [assigns _ _]
  simp [argumentsMatch, ← pairs, Function.comp_def, each]

end Operators

/-- Two passes find a type and a relabelled one. -/
abbrev Types (change : Relabelling) : Ty → Ty → Prop := fun ty other => other = ty.relabel change

theorem follows_binaryTy (assigns : model.AssignsAlike change other) (op : BinaryOp)
    (left right : Ty) (position : Position) :
    Follows change (Types change) (binaryTy model op left right position)
      (binaryTy other op (left.relabel change) (right.relabel change) (change.start position)) := by
  simp only [binaryTy, Ty.relabel_eq_error_iff, operatorTy?_relabel assigns]
  split
  · exact alike_pure rfl
  · cases operatorTy? model op left right with
    | some ty =>
        exact (follows_reportIf (converts_relabel op left right) rfl rfl).returns rfl
    | none => exact (follows_report rfl rfl).returns rfl

theorem follows_arrayTy (injective : Function.Injective change.name) (items : List Ty)
    (position : Position) :
    Follows change (Types change) (arrayTy items position)
      (arrayTy (items.map (Ty.relabel change)) (change.start position)) := by
  have failed : Follows change (Types change)
      (do report position .mixedArray; return .error)
      (do report (change.start position) .mixedArray; return .error) :=
    (follows_report rfl rfl).returns rfl
  cases items with
  | nil => exact alike_pure rfl
  | cons first rest =>
      have unknown : ((first :: rest).map (Ty.relabel change)).contains .error =
          (first :: rest).contains .error := by
        rw [Bool.eq_iff_iff, List.contains_iff_mem, List.contains_iff_mem, List.mem_map]
        constructor
        · rintro ⟨ty, member, isError⟩
          exact Ty.relabel_eq_error_iff.mp isError ▸ member
        · intro member
          exact ⟨.error, member, rfl⟩
      have alike : (rest.map (Ty.relabel change)).all (fun ty => decide (ty = first.relabel change)) =
          rest.all fun ty => decide (ty = first) := by
        simp [Function.comp_def, relabel_eq_iff injective]
      rw [List.map_cons] at unknown ⊢
      simp only [arrayTy, unknown, alike, Ty.arrayOf?_relabel]
      split
      · exact alike_pure rfl
      · cases first.arrayOf? with
        | none => exact failed
        | some array =>
            simp only [Option.map_some]
            split
            · exact alike_pure rfl
            · exact failed

theorem follows_elementTy (base : Ty) (position : Position) :
    Follows change (Types change) (elementTy base position)
      (elementTy (base.relabel change) (change.start position)) := by
  simp only [elementTy, Ty.element?_relabel]
  cases base.element? with
  | some element => exact alike_pure rfl
  | none => exact (follows_reportIf (by simp) rfl rfl).returns rfl

theorem follows_callTy (assigns : model.AssignsAlike change other) (callee : NameUse)
    (args : List Ty) :
    Follows change (Types change) (callTy model callee args)
      (callTy other (callee.relabel change) (args.map (Ty.relabel change))) := by
  have signature : (callee.relabel change).binding.bind Binding.signature? =
      (callee.binding.bind Binding.signature?).map (Signature.relabel change) := by
    cases bound : callee.binding <;> simp [NameUse.relabel, bound]
  simp only [callTy, signature]
  cases callee.binding.bind Binding.signature? with
  | none => exact alike_pure rfl
  | some found =>
      simp only [Option.map_some, Signature.parameterTys_relabel, argumentsMatch_relabel assigns]
      split
      · exact alike_pure rfl
      · exact (follows_report rfl rfl).returns rfl

/-- Two passes annotate a tree and find its type, and the one a relabelled tree
and the relabelled type. -/
abbrev Typed {α : Type} (relabel : α → α) (change : Relabelling) : α × Ty → α × Ty → Prop :=
  fun found other => other = (relabel found.1, found.2.relabel change)

/-- Lists of what two passes find for single members. -/
abbrev TypedList {α : Type} (relabel : List α → List α) (change : Relabelling) :
    List α × List Ty → List α × List Ty → Prop :=
  fun found other => other = (relabel found.1, found.2.map (Ty.relabel change))

mutual

theorem follows_checkExpr (injective : Function.Injective change.name)
    (assigns : model.AssignsAlike change other) : ∀ (expr : Expr),
    Follows change (Typed (Expr.relabel change) change) (checkExpr model expr)
      (checkExpr other (expr.relabel change))
  | .int .. | .string .. | .bool .. => alike_pure rfl
  | .name info used | .newInstance info used => by
      rw [Expr.relabel, checkExpr, checkExpr, NameUse.boundTy_relabel]
      exact alike_pure rfl
  | .binary info op left right => by
      refine (follows_checkExpr injective assigns left).bind ?_
      rintro ⟨left, leftTy⟩ _ rfl
      refine (follows_checkExpr injective assigns right).bind ?_
      rintro ⟨right, rightTy⟩ _ rfl
      refine (follows_binaryTy assigns op leftTy rightTy info.span.start).bind ?_
      rintro ty _ rfl
      exact alike_pure rfl
  | .call info callee args => by
      refine (follows_checkExprs injective assigns args).bind ?_
      rintro ⟨args, argTys⟩ _ rfl
      refine (follows_callTy assigns callee argTys).bind ?_
      rintro ty _ rfl
      exact alike_pure rfl
  | .methodCall info receiver callee args => by
      refine (follows_checkExpr injective assigns receiver).bind ?_
      rintro ⟨receiver, _⟩ _ rfl
      refine (follows_checkExprs injective assigns args).bind ?_
      rintro ⟨args, argTys⟩ _ rfl
      refine (follows_callTy assigns callee argTys).bind ?_
      rintro ty _ rfl
      exact alike_pure rfl
  | .field info receiver used => by
      refine (follows_checkExpr injective assigns receiver).bind ?_
      rintro ⟨receiver, _⟩ _ rfl
      exact alike_pure (by simp [Expr.relabel])
  | .newArray info element length => by
      refine (follows_checkExpr injective assigns length).bind ?_
      rintro ⟨typed, lengthTy⟩ _ rfl
      refine (follows_reportIf (differs_relabel injective .int lengthTy)
        length.position_relabel rfl).andThen ?_
      exact alike_pure rfl
  | .index info base position => by
      refine (follows_checkExpr injective assigns base).bind ?_
      rintro ⟨base, baseTy⟩ _ rfl
      refine (follows_checkExpr injective assigns position).bind ?_
      rintro ⟨typed, positionTy⟩ _ rfl
      refine (follows_reportIf (differs_relabel injective .int positionTy)
        position.position_relabel rfl).andThen ?_
      refine (follows_elementTy baseTy info.span.start).bind ?_
      rintro ty _ rfl
      exact alike_pure rfl
  | .array info items => by
      refine (follows_checkExprs injective assigns items).bind ?_
      rintro ⟨items, itemTys⟩ _ rfl
      refine (follows_arrayTy injective itemTys info.span.start).bind ?_
      rintro ty _ rfl
      exact alike_pure rfl

theorem follows_checkExprs (injective : Function.Injective change.name)
    (assigns : model.AssignsAlike change other) : ∀ (exprs : List Expr),
    Follows change (TypedList (Expr.relabelList change) change) (checkExprs model exprs)
      (checkExprs other (Expr.relabelList change exprs))
  | [] => alike_pure rfl
  | first :: rest => by
      refine (follows_checkExpr injective assigns first).bind ?_
      rintro ⟨first, firstTy⟩ _ rfl
      refine (follows_checkExprs injective assigns rest).bind ?_
      rintro ⟨rest, restTys⟩ _ rfl
      exact alike_pure rfl

end

/-! ## Statements -/

/-- Two passes annotate a tree and a relabelled one. -/
abbrev Trees {α : Type} (relabel : α → α) : α → α → Prop := fun found other => other = relabel found

/-- The place of a relabelled function. -/
def TypingPlace.relabel (change : Relabelling) (other : SymbolModel) (place : TypingPlace) :
    TypingPlace :=
  ⟨other, change.name place.functionName, place.returnTy.relabel change⟩

theorem follows_targetTy (target : NameUse) :
    Follows change (Types change) (targetTy target) (targetTy (target.relabel change)) := by
  have entity (binding : Binding) :
      (binding.relabel change).entity? = binding.entity?.map (Variable.relabel change) := by
    cases binding <;> rfl
  unfold targetTy
  cases bound : target.binding with
  | none =>
      simp only [NameUse.relabel, bound, Option.map_none]
      exact alike_pure rfl
  | some binding =>
      simp only [NameUse.relabel, bound, Option.map_some, entity]
      cases binding.entity? with
      | some found => exact alike_pure rfl
      | none => exact (follows_report rfl rfl).returns rfl

theorem follows_requireAssignable (assigns : model.AssignsAlike change other) (name : String)
    (expected actual : Ty) (position : Position) :
    Follows change (fun _ _ => True) (requireAssignable model name expected actual position)
      (requireAssignable other (change.name name) (expected.relabel change) (actual.relabel change)
        (change.start position)) :=
  follows_reportIf (by rw [assigns]) rfl rfl

section Parts

variable (injective : Function.Injective change.name) (assigns : model.AssignsAlike change other)

include injective assigns

theorem follows_checkDecl (decl : VarDecl) :
    Follows change (Trees (VarDecl.relabel change)) (checkDecl model decl)
      (checkDecl other (decl.relabel change)) := by
  refine (follows_reportIf (by simp [VarDecl.relabel]) rfl rfl).andThen ?_
  rcases decl with ⟨ty, tySpan, name, nameSpan, init⟩
  cases init with
  | none => exact alike_pure rfl
  | some init =>
      refine (follows_checkExpr injective assigns init).bind ?_
      rintro ⟨typed, actual⟩ _ rfl
      have required := follows_requireAssignable assigns name ty actual init.position
      rw [← Expr.position_relabel] at required
      exact required.returns rfl

theorem follows_checkCondition (condition : Expr) :
    Follows change (Trees (Expr.relabel change)) (checkCondition model condition)
      (checkCondition other (condition.relabel change)) := by
  refine (follows_checkExpr injective assigns condition).bind ?_
  rintro ⟨typed, ty⟩ _ rfl
  exact (follows_reportIf (differs_relabel injective .bool ty) condition.position_relabel
    rfl).returns rfl

theorem follows_checkIndex (index : Expr) :
    Follows change (Trees (Expr.relabel change)) (checkIndex model index)
      (checkIndex other (index.relabel change)) := by
  refine (follows_checkExpr injective assigns index).bind ?_
  rintro ⟨typed, ty⟩ _ rfl
  exact (follows_reportIf (differs_relabel injective .int ty) index.position_relabel
    rfl).returns rfl

theorem follows_checkAssignment (assignment : Assignment) :
    Follows change (Trees (Assignment.relabel change)) (checkAssignment model assignment)
      (checkAssignment other (assignment.relabel change)) := by
  rcases assignment with ⟨info, target, index, value⟩
  refine (follows_targetTy target).bind ?_
  rintro declared _ rfl
  cases index with
  | none =>
      refine (follows_checkExpr injective assigns value).bind ?_
      rintro ⟨typed, actual⟩ _ rfl
      have required :=
        follows_requireAssignable assigns target.text declared actual value.position
      rw [← Expr.position_relabel] at required
      exact required.returns rfl
  | some index =>
      refine (follows_checkIndex injective assigns index).bind ?_
      rintro index _ rfl
      refine (follows_checkExpr injective assigns value).bind ?_
      rintro ⟨typed, actual⟩ _ rfl
      refine (follows_elementTy declared target.span.start).bind ?_
      rintro expected _ rfl
      have required :=
        follows_requireAssignable assigns target.text expected actual value.position
      rw [← Expr.position_relabel] at required
      exact required.returns rfl

theorem follows_checkReturn {place : TypingPlace} (same : place.model = model)
    (returned : Return) :
    Follows change (Trees (Return.relabel change)) (checkReturn place returned)
      (checkReturn (place.relabel change other) (returned.relabel change)) := by
  subst same
  rcases returned with ⟨value, span⟩
  cases value with
  | none =>
      exact (follows_reportIf (differs_relabel injective .void place.returnTy) rfl rfl).returns rfl
  | some value =>
      refine (follows_checkExpr injective assigns value).bind ?_
      rintro ⟨typed, actual⟩ _ rfl
      have void : (place.relabel change other).returnTy = .void ↔ place.returnTy = .void :=
        Ty.relabel_eq_void_iff
      simp only [void]
      by_cases isVoid : place.returnTy = .void
      · simp only [isVoid, if_true]
        exact (follows_report rfl rfl).returns rfl
      · simp only [isVoid, if_false]
        have fits : (!other.isAssignable (place.returnTy.relabel change) (actual.relabel change)) =
            !place.model.isAssignable place.returnTy actual := by rw [assigns]
        exact (follows_reportIf fits rfl rfl).returns rfl

end Parts

mutual

theorem follows_checkStmt (injective : Function.Injective change.name)
    (assigns : model.AssignsAlike change other) {place : TypingPlace}
    (same : place.model = model) : ∀ (stmt : Stmt),
    Follows change (Trees (Stmt.relabel change)) (checkStmt place stmt)
      (checkStmt (place.relabel change other) (stmt.relabel change))
  | .varDecl info decl => by
      subst same
      refine (follows_checkDecl injective assigns decl).bind ?_
      rintro decl _ rfl
      exact alike_pure rfl
  | .assign assignment => by
      subst same
      refine (follows_checkAssignment injective assigns assignment).bind ?_
      rintro assignment _ rfl
      exact alike_pure rfl
  | .fieldAssign info receiver used value => by
      subst same
      refine (follows_checkExpr injective assigns receiver).bind ?_
      rintro ⟨receiver, _⟩ _ rfl
      refine (follows_targetTy used).bind ?_
      rintro expected _ rfl
      refine (follows_checkExpr injective assigns value).bind ?_
      rintro ⟨typed, actual⟩ _ rfl
      have required := follows_requireAssignable assigns used.text expected actual value.position
      rw [← Expr.position_relabel] at required
      exact required.returns rfl
  | .call info expr => by
      subst same
      refine (follows_checkExpr injective assigns expr).bind ?_
      rintro ⟨expr, _⟩ _ rfl
      exact alike_pure rfl
  | .ifThen info condition body => by
      refine (follows_checkCondition injective (same ▸ assigns) condition).bind ?_
      rintro condition _ rfl
      refine (follows_checkStmt injective assigns same body).bind ?_
      rintro body _ rfl
      exact alike_pure rfl
  | .ifElse info condition body alternative => by
      refine (follows_checkCondition injective (same ▸ assigns) condition).bind ?_
      rintro condition _ rfl
      refine (follows_checkStmt injective assigns same body).bind ?_
      rintro body _ rfl
      refine (follows_checkStmt injective assigns same alternative).bind ?_
      rintro alternative _ rfl
      exact alike_pure rfl
  | .whileLoop info condition body => by
      refine (follows_checkCondition injective (same ▸ assigns) condition).bind ?_
      rintro condition _ rfl
      refine (follows_checkStmt injective assigns same body).bind ?_
      rintro body _ rfl
      exact alike_pure rfl
  | .forLoop info init condition update body scope => by
      refine (follows_checkDecl injective (same ▸ assigns) init).bind ?_
      rintro init _ rfl
      refine (follows_checkCondition injective (same ▸ assigns) condition).bind ?_
      rintro condition _ rfl
      refine (follows_checkAssignment injective (same ▸ assigns) update).bind ?_
      rintro update _ rfl
      refine (follows_checkStmt injective assigns same body).bind ?_
      rintro body _ rfl
      exact alike_pure rfl
  | .ret info returned => by
      refine (follows_checkReturn injective assigns same returned).bind ?_
      rintro returned _ rfl
      exact alike_pure rfl
  | .block info stmts scope => by
      refine (follows_checkStmts injective assigns same stmts).bind ?_
      rintro stmts _ rfl
      exact alike_pure rfl

theorem follows_checkStmts (injective : Function.Injective change.name)
    (assigns : model.AssignsAlike change other) {place : TypingPlace}
    (same : place.model = model) : ∀ (stmts : List Stmt),
    Follows change (Trees (Stmt.relabelList change)) (checkStmts place stmts)
      (checkStmts (place.relabel change other) (Stmt.relabelList change stmts))
  | [] => alike_pure rfl
  | first :: rest => by
      refine (follows_checkStmt injective assigns same first).bind ?_
      rintro first _ rfl
      refine (follows_checkStmts injective assigns same rest).bind ?_
      rintro rest _ rfl
      exact alike_pure rfl

end

theorem follows_checkFunction (injective : Function.Injective change.name)
    (assigns : model.AssignsAlike change other) (decl : FunctionDecl) :
    Follows change (Trees (FunctionDecl.relabel change)) (checkFunction model decl)
      (checkFunction other (decl.relabel change)) := by
  rcases decl with ⟨id, head, body, closing, paramScope, bodyScope⟩
  let place : TypingPlace := ⟨model, head.name, head.returnTy⟩
  refine (follows_checkStmts injective assigns (rfl : place.model = model) body).bind ?_
  rintro body _ rfl
  cases closing with
  | some returned =>
      refine (follows_checkReturn injective assigns (rfl : place.model = model) returned).bind ?_
      rintro returned _ rfl
      exact alike_pure rfl
  | none =>
      exact (follows_reportIf (differs_relabel injective .void head.returnTy) rfl rfl).returns rfl

section Items

variable {tally : List Finding → List Finding → Prop} [Tally tally]
  (includes : ∀ findings others, Relabelled change findings others → tally findings others)
  (injective : Function.Injective change.name) (assigns : model.AssignsAlike change other)

include includes injective assigns

/-- Whether a class keeps its interfaces is all that is left to compare. -/
theorem alike_checkItem {item : Item}
    (conforms : ∀ decl, item = .classDecl decl →
      tally (conformanceFindings model decl) (conformanceFindings other (decl.relabel change))) :
    Alike tally (Trees (Item.relabel change)) (checkItem model item)
      (checkItem other (item.relabel change)) := by
  cases item with
  | inclusion | enumeration | interface => exact alike_pure rfl
  | classDecl decl =>
      have fields := Reported.alike_mapM_map (VarDecl.relabel change) decl.fields fun field _ =>
        (follows_checkDecl injective assigns field).mono includes
      have methods := Reported.alike_mapM_map (FunctionDecl.relabel change) decl.methods fun method _ =>
        (follows_checkFunction injective assigns method).mono includes
      have class? : Alike tally (Trees (ClassDecl.relabel change)) (checkClass model decl)
          (checkClass other (decl.relabel change)) := by
        refine fields.bind ?_
        rintro fields _ rfl
        refine methods.bind ?_
        rintro methods _ rfl
        have kept : Alike tally (fun _ _ => True)
            (Reported.mk () (conformanceFindings model decl))
            (Reported.mk () (conformanceFindings other (decl.relabel change))) :=
          ⟨trivial, conforms decl rfl⟩
        exact kept.returns rfl
      refine class?.bind ?_
      rintro decl _ rfl
      exact alike_pure rfl
  | function decl =>
      refine ((follows_checkFunction injective assigns decl).mono includes).bind ?_
      rintro decl _ rfl
      exact alike_pure rfl
  | globalVariable decl =>
      refine ((follows_checkDecl injective assigns decl).mono includes).bind ?_
      rintro decl _ rfl
      exact alike_pure rfl

end Items

end Typing

/-- Checking a relabelled file comes to the relabelled one. -/
theorem Program.alike_check {tally : List Finding → List Finding → Prop} [Tally tally]
    (includes : ∀ findings others, Relabelled change findings others → tally findings others)
    (injective : Function.Injective change.name) (assigns : model.AssignsAlike change other)
    {program : Program}
    (conforms : ∀ decl, .classDecl decl ∈ program.items →
      tally (Typing.conformanceFindings model decl)
        (Typing.conformanceFindings other (decl.relabel change))) :
    Reported.Alike tally (Typing.Trees (Program.relabel change)) (program.check model)
      ((program.relabel change).check other) := by
  have items := Reported.alike_mapM_map (Item.relabel change) program.items fun item member =>
    Typing.alike_checkItem includes injective assigns fun decl same => conforms decl (same ▸ member)
  refine items.bind ?_
  rintro items _ rfl
  exact Reported.alike_pure rfl

end KnightFront
