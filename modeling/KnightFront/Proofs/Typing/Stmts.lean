import KnightFront.Proofs.Typing.Exprs

namespace KnightFront

/-!
# Checking statements decides whether they are well typed

A linked statement or declaration passes without a typing error exactly when
it is well typed.  What a class owes to the interfaces that it uses is checked
along with it, but such findings are no typing errors.
-/

namespace Typing

open Reported (Lacks)

variable {model : SymbolModel}

/-- A linked expression passes exactly when it has a type. -/
theorem lacks_checkExpr_iff {expr : Expr} (linked : expr.Linked model) :
    (checkExpr model expr).Lacks Problem.isTypingError ↔ ∃ ty, expr.HasTy model ty := by
  constructor
  · exact fun clean => ⟨_, hasTy_of_lacks_checkExpr expr linked clean⟩
  · rintro ⟨ty, typed⟩
    exact (checkExpr_of_hasTy typed).2

/-- A linked expression passes where a type is required exactly when it has
that type. -/
theorem lacks_differs_iff {expr : Expr} {required : Ty} {position : Position} {problem : Problem}
    (linked : expr.Linked model) (grave : problem.isTypingError = true) :
    ((checkExpr model expr).Lacks Problem.isTypingError ∧
      (Reported.reportIf (differs required (checkExpr model expr).value.2) position problem).Lacks
        Problem.isTypingError) ↔ expr.HasTy model required := by
  constructor
  · rintro ⟨clean, same⟩
    have typed := hasTy_of_lacks_checkExpr expr linked clean
    rw [eq_of_lacks_reportIf_differs grave (linked.known typed) same] at typed
    exact typed
  · intro typed
    have checked := checkExpr_of_hasTy typed
    refine ⟨checked.2, ?_⟩
    rw [checked.1, differs_self, Reported.lacks_reportIf]
    exact nofun

/-- A linked expression passes as the value of something of a known type
exactly when it fits there. -/
theorem lacks_requireAssignable_iff {expr : Expr} {name : String} {expected : Ty}
    {position : Position} (linked : expr.Linked model) (known : expected ≠ .error) :
    ((checkExpr model expr).Lacks Problem.isTypingError ∧
      (requireAssignable model name expected (checkExpr model expr).value.2 position).Lacks
        Problem.isTypingError) ↔ expr.Fits model expected := by
  rw [requireAssignable, Reported.lacks_reportIf]
  constructor
  · rintro ⟨clean, accepted⟩
    have typed := hasTy_of_lacks_checkExpr expr linked clean
    refine ⟨_, typed, (SymbolModel.isAssignable_iff known (linked.known typed)).mp ?_⟩
    by_contra refused
    cases accepted (by simpa using refused)
  · rintro ⟨actual, typed, fits⟩
    have checked := checkExpr_of_hasTy typed
    refine ⟨checked.2, ?_⟩
    rw [checked.1, fits.isAssignable]
    exact nofun

theorem lacks_checkCondition_iff {condition : Expr} (linked : condition.Linked model) :
    (checkCondition model condition).Lacks Problem.isTypingError ↔
      condition.HasTy model .bool := by
  simp only [checkCondition, Reported.lacks_bind, Reported.lacks_pure, and_true]
  exact lacks_differs_iff linked rfl

theorem lacks_checkIndex_iff {index : Expr} (linked : index.Linked model) :
    (checkIndex model index).Lacks Problem.isTypingError ↔ index.HasTy model .int := by
  simp only [checkIndex, Reported.lacks_bind, Reported.lacks_pure, and_true]
  exact lacks_differs_iff linked rfl

/-- A bound name passes as a target exactly when it is that of a variable. -/
theorem lacks_targetTy_iff {target : NameUse} {binding : Binding}
    (bound : target.binding = some binding) :
    (targetTy target).Lacks Problem.isTypingError ↔ ∃ entity, target.Assigns entity := by
  rw [targetTy, bound]
  simp only [NameUse.Assigns, bound, Option.bind_some]
  cases binding.entity? with
  | none => simp [Problem.isTypingError, Problem.isError, Problem.severity, Problem.isConformance]
  | some entity => simp

/-- A target has the type of its variable. -/
theorem targetTy_of_assigns {target : NameUse} {entity : Variable}
    (assigns : target.Assigns entity) : targetTy target = pure entity.ty := by
  rcases Option.bind_eq_some_iff.mp assigns with ⟨binding, bound, isVariable⟩
  rw [targetTy, bound]
  simp only [isVariable]

/-- A variable of a bound name is of a declared type. -/
theorem declared_of_bound {target : NameUse} {entity : Variable} (bound : target.Bound model)
    (assigns : target.Assigns entity) : entity.ty.Declared model := by
  rcases bound with ⟨binding, isBound, declared⟩
  rw [NameUse.Assigns, isBound] at assigns
  cases binding <;> cases assigns <;> exact declared

/-- A variable of a valued name is of a declared type. -/
theorem declared_of_valued {target : NameUse} {entity : Variable} (valued : target.Valued model)
    (assigns : target.Assigns entity) : entity.ty.Declared model := by
  rcases valued with ⟨binding, isBound, declared⟩
  rw [NameUse.Assigns, isBound] at assigns
  have sameTy : binding.ty = entity.ty := Binding.ty_of_entity? assigns
  exact sameTy ▸ declared

/-- A declared type is not the error type. -/
theorem known_of_declared {ty : Ty} (declared : ty.Declared model) : ty ≠ .error := by
  rintro rfl
  exact declared

theorem lacks_checkDecl_iff {decl : VarDecl} (linked : decl.Linked model) :
    (checkDecl model decl).Lacks Problem.isTypingError ↔ decl.WellTyped model := by
  have notVoid : (Reported.reportIf (decide (decl.ty = .void)) decl.tySpan.start
      (.voidVariable decl.name)).Lacks Problem.isTypingError ↔ decl.ty ≠ .void := by
    rw [Reported.lacks_reportIf, decide_eq_true_eq]
    exact ⟨fun clean isVoid => (by cases clean isVoid), fun other isVoid => absurd isVoid other⟩
  rw [checkDecl, Reported.lacks_bind, notVoid]
  cases hasInit : decl.init with
  | none =>
      refine ⟨fun clean => ⟨clean.1, by rw [hasInit]; exact nofun⟩, fun wellTyped => ?_⟩
      exact ⟨wellTyped.notVoid, Reported.lacks_pure _⟩
  | some init =>
      simp only [Reported.lacks_bind, Reported.lacks_pure, and_true]
      rw [lacks_requireAssignable_iff (linked.init init hasInit) (known_of_declared linked.ty)]
      constructor
      · rintro ⟨notVoid, fits⟩
        refine ⟨notVoid, fun other isInit => ?_⟩
        rw [hasInit] at isInit
        cases isInit
        exact fits
      · exact fun wellTyped => ⟨wellTyped.notVoid, wellTyped.init init hasInit⟩

theorem lacks_checkAssignment_iff {assignment : Assignment} (linked : assignment.Linked model) :
    (checkAssignment model assignment).Lacks Problem.isTypingError ↔
      assignment.WellTyped model := by
  rcases linked.target with ⟨binding, bound, _⟩
  rw [checkAssignment, Reported.lacks_bind, lacks_targetTy_iff bound, Assignment.WellTyped]
  constructor
  · rintro ⟨⟨entity, assigns⟩, clean⟩
    have known := known_of_declared (declared_of_bound linked.target assigns)
    refine ⟨entity, assigns, ?_⟩
    rw [targetTy_of_assigns assigns] at clean
    cases hasIndex : assignment.index with
    | none =>
        simp only [hasIndex, Reported.lacks_bind, Reported.lacks_pure, and_true] at clean
        exact (lacks_requireAssignable_iff linked.value known).mp clean
    | some index =>
        simp only [hasIndex, Reported.lacks_bind, Reported.lacks_pure, and_true] at clean
        rcases clean with ⟨indexClean, valueClean, elementClean, accepted⟩
        rcases array_of_lacks_elementTy known elementClean with ⟨element, isArray⟩
        rw [Reported.value_pure, isArray, elementTy_array] at accepted
        refine ⟨(lacks_checkIndex_iff (linked.index index hasIndex)).mp indexClean, element, isArray,
          ?_⟩
        exact (lacks_requireAssignable_iff linked.value (ElementTy.ty_ne_error element)).mp
          ⟨valueClean, accepted⟩
  · rintro ⟨entity, assigns, wellTyped⟩
    refine ⟨⟨entity, assigns⟩, ?_⟩
    rw [targetTy_of_assigns assigns]
    cases hasIndex : assignment.index with
    | none =>
        rw [hasIndex] at wellTyped
        simp only [Reported.lacks_bind, Reported.lacks_pure, and_true]
        exact (lacks_requireAssignable_iff linked.value
          (known_of_declared (declared_of_bound linked.target assigns))).mpr wellTyped
    | some index =>
        rw [hasIndex] at wellTyped
        rcases wellTyped with ⟨indexTyped, element, isArray, fits⟩
        simp only [Reported.lacks_bind, Reported.lacks_pure, Reported.value_pure, and_true, isArray,
          elementTy_array]
        refine ⟨(lacks_checkIndex_iff (linked.index index hasIndex)).mpr indexTyped, ?_⟩
        have valueFits := @lacks_requireAssignable_iff model assignment.value
          assignment.target.text element.ty assignment.value.position linked.value
          (ElementTy.ty_ne_error element)
        exact ⟨(valueFits.mpr fits).1, trivial, (valueFits.mpr fits).2⟩

theorem lacks_checkReturn_iff {place : TypingPlace} {returned : Return}
    (linked : returned.Linked place.model) (declared : place.returnTy.Declared place.model) :
    (checkReturn place returned).Lacks Problem.isTypingError ↔
      returned.WellTyped place.model place.returnTy := by
  have known := known_of_declared declared
  rw [checkReturn, Return.WellTyped]
  cases hasValue : returned.value with
  | none =>
      simp only [Reported.lacks_bind, Reported.lacks_pure, and_true, Reported.lacks_reportIf]
      constructor
      · intro clean
        by_contra notVoid
        cases clean (decide_eq_true ⟨known, notVoid⟩)
      · intro isVoid
        rw [isVoid, differs_self]
        exact Bool.false_ne_true.elim
  | some value =>
      have valueLinked := linked value hasValue
      simp only [Reported.lacks_bind]
      split
      next isVoid =>
        simp [isVoid, Problem.isTypingError, Problem.isError, Problem.severity,
          Problem.isConformance]
      next notVoid =>
        have fits := @lacks_requireAssignable_iff place.model value place.functionName
          place.returnTy returned.span.start valueLinked known
        rw [requireAssignable, Reported.lacks_reportIf] at fits
        simp only [Reported.lacks_bind, Reported.lacks_pure, and_true, Reported.lacks_reportIf]
        exact fits.trans (and_iff_right notVoid).symm

/-- A value passes as that of a field exactly when its receiver has a type and
it fits the field. -/
theorem lacks_checkFieldAssign_iff {place : TypingPlace} {info : StmtInfo} {receiver value : Expr}
    {used : NameUse} (linked : (Stmt.fieldAssign info receiver used value).Linked place.model) :
    (checkStmt place (.fieldAssign info receiver used value)).Lacks Problem.isTypingError ↔
      (Stmt.fieldAssign info receiver used value).WellTyped place.model place.returnTy := by
  rcases linked with ⟨receiverLinked, member, valueLinked⟩
  simp only [checkStmt, Reported.lacks_bind, Reported.lacks_pure, and_true, Stmt.WellTyped]
  rw [lacks_checkExpr_iff receiverLinked]
  refine and_congr_right fun hasTy => ?_
  rcases hasTy with ⟨receiverTy, receiverTyped⟩
  -- The receiver has a type, so the name of the field is bound.
  have valued := (member.linked _ (Expr.staticTy?_of_hasTy receiverTyped)).2
  rcases valued with ⟨binding, bound, declared⟩
  rw [lacks_targetTy_iff bound]
  constructor
  · rintro ⟨⟨entity, assigns⟩, clean⟩
    rw [targetTy_of_assigns assigns] at clean
    exact ⟨entity, assigns, (lacks_requireAssignable_iff valueLinked
      (known_of_declared (declared_of_valued ⟨binding, bound, declared⟩ assigns))).mp clean⟩
  · rintro ⟨entity, assigns, fits⟩
    refine ⟨⟨entity, assigns⟩, ?_⟩
    rw [targetTy_of_assigns assigns]
    exact (lacks_requireAssignable_iff valueLinked
      (known_of_declared (declared_of_valued ⟨binding, bound, declared⟩ assigns))).mpr fits

mutual

/-- A linked statement passes exactly when it is well typed. -/
theorem lacks_checkStmt_iff {place : TypingPlace}
    (declared : place.returnTy.Declared place.model) : ∀ (stmt : Stmt), stmt.Linked place.model →
      ((checkStmt place stmt).Lacks Problem.isTypingError ↔
        stmt.WellTyped place.model place.returnTy)
  | .varDecl info decl, linked => by
      simp only [checkStmt, Reported.lacks_bind, Reported.lacks_pure, and_true]
      exact lacks_checkDecl_iff linked
  | .assign assignment, linked => by
      simp only [checkStmt, Reported.lacks_bind, Reported.lacks_pure, and_true]
      exact lacks_checkAssignment_iff linked
  | .fieldAssign info receiver used value, linked => lacks_checkFieldAssign_iff linked
  | .call info expr, linked => by
      simp only [checkStmt, Reported.lacks_bind, Reported.lacks_pure, and_true]
      exact lacks_checkExpr_iff linked.1
  | .ifThen info condition body, linked => by
      simp only [checkStmt, Reported.lacks_bind, Reported.lacks_pure, and_true]
      exact and_congr (lacks_checkCondition_iff linked.1) (lacks_checkStmt_iff declared body linked.2)
  | .ifElse info condition body alternative, linked => by
      simp only [checkStmt, Reported.lacks_bind, Reported.lacks_pure, and_true]
      exact and_congr (lacks_checkCondition_iff linked.1)
        (and_congr (lacks_checkStmt_iff declared body linked.2.1)
          (lacks_checkStmt_iff declared alternative linked.2.2))
  | .whileLoop info condition body, linked => by
      simp only [checkStmt, Reported.lacks_bind, Reported.lacks_pure, and_true]
      exact and_congr (lacks_checkCondition_iff linked.1) (lacks_checkStmt_iff declared body linked.2)
  | .forLoop info init condition update body scope, linked => by
      simp only [checkStmt, Reported.lacks_bind, Reported.lacks_pure, and_true]
      rcases linked with ⟨initLinked, conditionLinked, updateLinked, bodyLinked, _⟩
      exact and_congr (lacks_checkDecl_iff initLinked)
        (and_congr (lacks_checkCondition_iff conditionLinked)
          (and_congr (lacks_checkAssignment_iff updateLinked)
            (lacks_checkStmt_iff declared body bodyLinked)))
  | .ret info returned, linked => by
      simp only [checkStmt, Reported.lacks_bind, Reported.lacks_pure, and_true]
      exact lacks_checkReturn_iff linked declared
  | .block info stmts scope, linked => by
      simp only [checkStmt, Reported.lacks_bind, Reported.lacks_pure, and_true]
      exact lacks_checkStmts_iff declared stmts linked.1

theorem lacks_checkStmts_iff {place : TypingPlace}
    (declared : place.returnTy.Declared place.model) :
    ∀ (stmts : List Stmt), Stmt.LinkedList place.model stmts →
      ((checkStmts place stmts).Lacks Problem.isTypingError ↔
        Stmt.WellTypedList place.model place.returnTy stmts)
  | [], _ => by simp [checkStmts, Stmt.WellTypedList]
  | first :: rest, linked => by
      simp only [checkStmts, Reported.lacks_bind, Reported.lacks_pure, and_true]
      exact and_congr (lacks_checkStmt_iff declared first linked.1)
        (lacks_checkStmts_iff declared rest linked.2)

end

theorem lacks_checkFunction_iff {decl : FunctionDecl} (linked : decl.Linked model) :
    (checkFunction model decl).Lacks Problem.isTypingError ↔ decl.WellTyped model := by
  have declared : decl.head.returnTy.Declared model := linked.tys _ List.mem_cons_self
  have body := @lacks_checkStmts_iff ⟨model, decl.head.name, decl.head.returnTy⟩ declared
    decl.body linked.body
  rw [checkFunction, Reported.lacks_bind, body]
  cases hasClosing : decl.closing with
  | some returned =>
      have closing := @lacks_checkReturn_iff ⟨model, decl.head.name, decl.head.returnTy⟩ returned
        (linked.closing returned hasClosing) declared
      simp only [Reported.lacks_bind, Reported.lacks_pure, and_true, closing]
      constructor
      · rintro ⟨bodyTyped, closingTyped⟩
        refine ⟨bodyTyped, fun other isClosing => ?_, fun missing => ?_⟩
        · rw [hasClosing] at isClosing
          cases isClosing
          exact closingTyped
        · rw [hasClosing] at missing
          cases missing
      · exact fun wellTyped => ⟨wellTyped.body, wellTyped.closing returned hasClosing⟩
  | none =>
      simp only [Reported.lacks_bind, Reported.lacks_pure, and_true, Reported.lacks_reportIf]
      constructor
      · rintro ⟨bodyTyped, clean⟩
        refine ⟨bodyTyped, fun returned isClosing => ?_, fun _ => ?_⟩
        · rw [hasClosing] at isClosing
          cases isClosing
        · by_contra notVoid
          cases clean (decide_eq_true ⟨known_of_declared declared, notVoid⟩)
      · intro wellTyped
        refine ⟨wellTyped.body, ?_⟩
        rw [wellTyped.closes hasClosing, differs_self]
        exact Bool.false_ne_true.elim

/-- What a class owes to its interfaces is no typing error. -/
theorem isTypingError_conformanceFindings (model : SymbolModel) (decl : ClassDecl) :
    ∀ finding ∈ conformanceFindings model decl, finding.problem.isTypingError = false := by
  intro finding member
  unfold conformanceFindings at member
  split at member
  next => cases member
  next =>
    split at member
    next => cases member
    next =>
      rcases List.mem_flatMap.mp member with ⟨used, _, inUsed⟩
      rcases List.mem_flatMap.mp inUsed with ⟨interface, _, inInterface⟩
      rcases List.mem_flatMap.mp inInterface with ⟨required, _, inMethod⟩
      split at inMethod
      next => cases List.mem_singleton.mp inMethod; rfl
      next =>
        split at inMethod
        next => cases inMethod
        next => cases List.mem_singleton.mp inMethod; rfl

theorem lacks_checkClass_iff {decl : ClassDecl} (linked : decl.Linked model) :
    (checkClass model decl).Lacks Problem.isTypingError ↔ decl.WellTyped model := by
  simp only [checkClass, Reported.lacks_bind, Reported.lacks_mapM, Reported.lacks_pure, and_true,
    Reported.lacks_mk]
  constructor
  · rintro ⟨fieldsClean, methodsClean, _⟩
    refine ⟨fun field member => ?_, fun method member => ?_⟩
    · exact (lacks_checkDecl_iff (linked.fields field member)).mp (fieldsClean field member)
    · exact (lacks_checkFunction_iff (linked.methods method member)).mp (methodsClean method member)
  · intro wellTyped
    refine ⟨fun field member => ?_, fun method member => ?_,
      isTypingError_conformanceFindings model decl⟩
    · exact (lacks_checkDecl_iff (linked.fields field member)).mpr (wellTyped.fields field member)
    · exact (lacks_checkFunction_iff (linked.methods method member)).mpr
        (wellTyped.methods method member)

theorem lacks_checkItem_iff {item : Item} (linked : item.Linked model) :
    (checkItem model item).Lacks Problem.isTypingError ↔ item.WellTyped model := by
  cases item with
  | inclusion => simp [checkItem, Item.WellTyped]
  | enumeration => simp [checkItem, Item.WellTyped]
  | interface => simp [checkItem, Item.WellTyped]
  | classDecl decl =>
      simp only [checkItem, Reported.lacks_bind, Reported.lacks_pure, and_true]
      exact lacks_checkClass_iff linked
  | function decl =>
      simp only [checkItem, Reported.lacks_bind, Reported.lacks_pure, and_true]
      exact lacks_checkFunction_iff linked
  | globalVariable decl =>
      simp only [checkItem, Reported.lacks_bind, Reported.lacks_pure, and_true]
      exact lacks_checkDecl_iff linked

end Typing

/-- A linked file passes exactly when it is well typed. -/
theorem Program.lacks_check_iff {model : SymbolModel} {program : Program}
    (linked : program.Linked model) :
    (program.check model).Lacks Problem.isTypingError ↔ program.WellTyped model := by
  simp only [Program.check, Reported.lacks_bind, Reported.lacks_mapM, Reported.lacks_pure, and_true]
  exact forall₂_congr fun item member => Typing.lacks_checkItem_iff (linked item member)

end KnightFront
