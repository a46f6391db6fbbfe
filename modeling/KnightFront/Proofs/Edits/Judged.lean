import KnightFront.Analysis.Resolution
import KnightFront.Analysis.Typing
import KnightFront.Proofs.Diagnostics.Counts

namespace KnightFront

/-!
# Expressions through two passes

Resolving an expression and then checking it gives it a type and reports
errors.  The two passes go through all files one after the other, but for the
number of findings of a kind it makes no difference if both are done with one
expression before the next.  The findings about an expression are those about its
parts and those of binding its own name and of combining the types of its parts.
-/

namespace Analysis

open Resolution Typing

/-- Resolve an expression and check it. -/
def judge (place : NamePlace) (scopes : List Scope) (expr : Expr) : Reported Ty := do
  let resolved ← resolveExpr place scopes expr
  let (_, ty) ← checkExpr place.model resolved
  return ty

/-- The type that names and literals decide for an expression once it is
resolved. -/
def memberTy? (place : NamePlace) (scopes : List Scope) (expr : Expr) : Option Ty :=
  (resolveExpr place scopes expr).value.staticTy?

variable {place : NamePlace} {scopes : List Scope}

theorem resolveExprs_eq_mapM (exprs : List Expr) :
    resolveExprs place scopes exprs = exprs.mapM (resolveExpr place scopes) := by
  induction exprs with
  | nil => rfl
  | cons first rest inductionHypothesis =>
      rw [resolveExprs, inductionHypothesis, List.mapM_cons]

theorem tally_checkExprs (kind : Finding → Bool) (model : SymbolModel) (exprs : List Expr) :
    (checkExprs model exprs).tally kind =
      (exprs.map fun expr => (checkExpr model expr).tally kind).sum := by
  induction exprs with
  | nil => rfl
  | cons first rest inductionHypothesis => simp [checkExprs, inductionHypothesis]

theorem tys_checkExprs (model : SymbolModel) (exprs : List Expr) :
    (checkExprs model exprs).value.2 = exprs.map fun expr => (checkExpr model expr).value.2 := by
  induction exprs with
  | nil => rfl
  | cons first rest inductionHypothesis => simp [checkExprs, inductionHypothesis]

/-- The errors of several expressions in both passes. -/
def judgeAll (place : NamePlace) (scopes : List Scope) (exprs : List Expr) : Reported (List Ty) :=
  exprs.mapM (judge place scopes)

theorem tally_judgeAll_cons (kind : Finding → Bool) {first : Expr} {rest : List Expr} :
    (judgeAll place scopes (first :: rest)).tally kind =
      (judge place scopes first).tally kind + (judgeAll place scopes rest).tally kind := by
  simp [judgeAll, List.mapM_cons]

theorem value_judgeAll_cons {first : Expr} {rest : List Expr} :
    (judgeAll place scopes (first :: rest)).value =
      (judge place scopes first).value :: (judgeAll place scopes rest).value := by
  simp [judgeAll, List.mapM_cons]

theorem tally_resolveExprs_add_checkExprs (kind : Finding → Bool) (exprs : List Expr) :
    (resolveExprs place scopes exprs).tally kind +
        (checkExprs place.model (resolveExprs place scopes exprs).value).tally kind =
      (judgeAll place scopes exprs).tally kind := by
  calc
    (resolveExprs place scopes exprs).tally kind +
          (checkExprs place.model (resolveExprs place scopes exprs).value).tally kind =
        (exprs.mapM (resolveExpr place scopes)).tally kind +
          ((exprs.mapM (resolveExpr place scopes)).value.mapM (checkExpr place.model)).tally
            kind := by
      rw [resolveExprs_eq_mapM, tally_checkExprs, ← Reported.tally_mapM]
    _ = (exprs.map fun expr => (resolveExpr place scopes expr).tally kind +
          (checkExpr place.model (resolveExpr place scopes expr).value).tally kind).sum :=
      Reported.tally_mapM_add_mapM kind _ _ exprs
    _ = (exprs.map fun expr => (judge place scopes expr).tally kind).sum := by
      simp [judge]
    _ = (judgeAll place scopes exprs).tally kind := (Reported.tally_mapM kind _ exprs).symm

theorem tys_checkExprs_resolveExprs (exprs : List Expr) :
    (checkExprs place.model (resolveExprs place scopes exprs).value).value.2 =
      (judgeAll place scopes exprs).value := by
  calc
    (checkExprs place.model (resolveExprs place scopes exprs).value).value.2 =
        (exprs.mapM (resolveExpr place scopes)).value.map
          fun expr => (checkExpr place.model expr).value.2 := by
      rw [resolveExprs_eq_mapM, tys_checkExprs]
    _ = exprs.map fun expr => (judge place scopes expr).value := by
      rw [Reported.value_mapM, List.map_map]
      rfl
    _ = (judgeAll place scopes exprs).value := by
      rw [judgeAll, Reported.value_mapM]

section Nodes

variable {info : ExprInfo} {used : NameUse} {left right : Expr} {exprs : List Expr}

attribute [local simp] judge resolveExpr checkExpr

section Tally

variable (kind : Finding → Bool)

theorem tally_judge (expr : Expr) :
    (judge place scopes expr).tally kind =
      (resolveExpr place scopes expr).tally kind +
        (checkExpr place.model (resolveExpr place scopes expr).value).tally kind := by
  simp

theorem tally_judge_name :
    (judge place scopes (.name info used)).tally kind =
      (bindValue place scopes used).tally kind := by
  simp

theorem tally_judge_binary {op : BinaryOp} :
    (judge place scopes (.binary info op left right)).tally kind =
      (judge place scopes left).tally kind + (judge place scopes right).tally kind +
        (binaryTy place.model op (judge place scopes left).value (judge place scopes right).value
          info.span.start).tally kind := by
  simp
  omega

theorem tally_judge_call :
    (judge place scopes (.call info used exprs)).tally kind =
      (judgeAll place scopes exprs).tally kind + (bindCallee place used).tally kind +
        (callTy place.model (bindCallee place used).value
          (judgeAll place scopes exprs).value).tally kind := by
  rw [← tally_resolveExprs_add_checkExprs, ← tys_checkExprs_resolveExprs]
  simp
  omega

theorem tally_judge_methodCall :
    (judge place scopes (.methodCall info left used exprs)).tally kind =
      (judge place scopes left).tally kind + (judgeAll place scopes exprs).tally kind +
        (bindMethod place (memberTy? place scopes left) used).tally kind +
          (callTy place.model (bindMethod place (memberTy? place scopes left) used).value
            (judgeAll place scopes exprs).value).tally kind := by
  rw [← tally_resolveExprs_add_checkExprs, ← tys_checkExprs_resolveExprs]
  simp [memberTy?]
  omega

theorem tally_judge_field :
    (judge place scopes (.field info left used)).tally kind =
      (judge place scopes left).tally kind +
        (bindField place (memberTy? place scopes left) used).tally kind := by
  simp [memberTy?]
  omega

theorem tally_judge_newInstance :
    (judge place scopes (.newInstance info used)).tally kind =
      (bindInstance place used).tally kind := by
  simp

theorem tally_judge_newArray {element : ElementTy} :
    (judge place scopes (.newArray info element left)).tally kind =
      (judge place scopes left).tally kind +
        (Reported.reportIf (differs .int (judge place scopes left).value)
          (resolveExpr place scopes left).value.position
          (.lengthNotInt (judge place scopes left).value)).tally kind := by
  simp
  omega

theorem tally_judge_index :
    (judge place scopes (.index info left right)).tally kind =
      (judge place scopes left).tally kind + (judge place scopes right).tally kind +
        (Reported.reportIf (differs .int (judge place scopes right).value)
            (resolveExpr place scopes right).value.position
            (.indexNotInt (judge place scopes right).value)).tally kind +
          (elementTy (judge place scopes left).value info.span.start).tally kind := by
  simp
  omega

theorem tally_judge_array :
    (judge place scopes (.array info exprs)).tally kind =
      (judgeAll place scopes exprs).tally kind +
        (arrayTy (judgeAll place scopes exprs).value info.span.start).tally kind := by
  rw [← tally_resolveExprs_add_checkExprs, ← tys_checkExprs_resolveExprs]
  simp
  omega

end Tally

theorem value_judge (expr : Expr) :
    (judge place scopes expr).value =
      (checkExpr place.model (resolveExpr place scopes expr).value).value.2 := rfl

theorem value_judge_name :
    (judge place scopes (.name info used)).value = (bindValue place scopes used).value.boundTy := rfl

theorem value_judge_binary {op : BinaryOp} :
    (judge place scopes (.binary info op left right)).value =
      (binaryTy place.model op (judge place scopes left).value (judge place scopes right).value
        info.span.start).value := rfl

theorem value_judge_call :
    (judge place scopes (.call info used exprs)).value =
      (callTy place.model (bindCallee place used).value
        (judgeAll place scopes exprs).value).value := by
  rw [← tys_checkExprs_resolveExprs]
  rfl

theorem value_judge_methodCall :
    (judge place scopes (.methodCall info left used exprs)).value =
      (callTy place.model (bindMethod place (memberTy? place scopes left) used).value
        (judgeAll place scopes exprs).value).value := by
  rw [← tys_checkExprs_resolveExprs]
  rfl

theorem value_judge_field :
    (judge place scopes (.field info left used)).value =
      (bindField place (memberTy? place scopes left) used).value.boundTy := rfl

theorem value_judge_newInstance :
    (judge place scopes (.newInstance info used)).value =
      (bindInstance place used).value.boundTy := rfl

theorem errors_judge_newArray {element : ElementTy} :
    (judge place scopes (.newArray info element left)).tally Finding.isError =
      (judge place scopes left).tally Finding.isError +
        if differs .int (judge place scopes left).value then 1 else 0 := by
  rw [tally_judge_newArray, Reported.tally_reportIf]
  simp [Problem.isError, Problem.severity]

theorem value_judge_newArray {element : ElementTy} :
    (judge place scopes (.newArray info element left)).value = .array element := rfl

theorem errors_judge_index :
    (judge place scopes (.index info left right)).tally Finding.isError =
      (judge place scopes left).tally Finding.isError +
      (judge place scopes right).tally Finding.isError +
        (if differs .int (judge place scopes right).value then 1 else 0) +
          (elementTy (judge place scopes left).value info.span.start).tally Finding.isError := by
  rw [tally_judge_index, Reported.tally_reportIf]
  simp [Problem.isError, Problem.severity]

theorem value_judge_index :
    (judge place scopes (.index info left right)).value =
      (elementTy (judge place scopes left).value info.span.start).value := rfl

theorem value_judge_array :
    (judge place scopes (.array info exprs)).value =
      (arrayTy (judgeAll place scopes exprs).value info.span.start).value := by
  rw [← tys_checkExprs_resolveExprs]
  rfl

end Nodes

end Analysis

end KnightFront
