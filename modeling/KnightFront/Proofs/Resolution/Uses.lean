import KnightFront.Proofs.Diagnostics.Absence
import KnightFront.Proofs.Resolution.Arena
import KnightFront.Proofs.Tree.Written
import Mathlib.Data.List.Forall2

namespace KnightFront

/-!
# Variables in expressions

An expression is resolved in one place, among scopes that stay as they are.
If these scopes represent the frames around the expression, each variable in
it is bound as its site asks.  For each use that stays unbound one finding is
made, and no other finding speaks of an undefined variable.
-/

/-- Whether a problem is that a variable is not defined. -/
def Problem.isUndefinedVariable : Problem → Bool
  | undefinedVariable _ => true
  | _ => false

/-- Sites come out of resolution bound as they ask, and the findings speak of
an undefined variable once for each site that stays unbound, in order. -/
structure ResolvedSites (model : SymbolModel) (before after : List UseSite)
    (findings : List Finding) : Prop where
  bound : List.Forall₂ (UseSite.Resolves model) before after
  findings : findings.filter (fun finding => finding.problem.isUndefinedVariable) =
    after.filterMap UseSite.undefined?

namespace ResolvedSites

variable {model : SymbolModel} {before after moreBefore moreAfter : List UseSite}
variable {findings moreFindings : List Finding} {α : Type}

/-- Sites behind one another are resolved one after another. -/
theorem append (first : ResolvedSites model before after findings)
    (second : ResolvedSites model moreBefore moreAfter moreFindings) :
    ResolvedSites model (before ++ moreBefore) (after ++ moreAfter) (findings ++ moreFindings) :=
  ⟨List.rel_append first.bound second.bound, by
    rw [List.filter_append, List.filterMap_append, first.findings, second.findings]⟩

/-- A pass that speaks of no undefined variable resolves no site. -/
theorem of_lacks {pass : Reported α} (lacks : pass.Lacks Problem.isUndefinedVariable) :
    ResolvedSites model [] [] pass.findings := by
  refine ⟨.nil, ?_⟩
  rw [List.filterMap_nil, List.filter_eq_nil_iff]
  exact fun finding member => Bool.eq_false_iff.mp (lacks finding member)

/-- Findings of other kinds in front do not count. -/
theorem after_lacks {pass : Reported α} (lacks : pass.Lacks Problem.isUndefinedVariable)
    (resolved : ResolvedSites model before after findings) :
    ResolvedSites model before after (pass.findings ++ findings) :=
  (of_lacks lacks).append resolved

/-- Findings of other kinds behind do not count. -/
theorem before_lacks {pass : Reported α} (resolved : ResolvedSites model before after findings)
    (lacks : pass.Lacks Problem.isUndefinedVariable) :
    ResolvedSites model before after (findings ++ pass.findings) := by
  have both := resolved.append (of_lacks lacks)
  rwa [List.append_nil, List.append_nil] at both

end ResolvedSites

@[simp]
theorem sitesAt_append (className : Option String) (frames : List Frame)
    (first second : List NameUse) :
    sitesAt className frames (first ++ second) =
      sitesAt className frames first ++ sitesAt className frames second :=
  List.map_append

namespace Expr

/-- The uses in several expressions are those of each. -/
theorem filterMap_nodesOfList (exprs : List Expr) :
    (nodesOfList exprs).filterMap variableUse? = exprs.flatMap variableUses := by
  rw [nodesOfList_eq_flatMap, List.filterMap_flatMap]
  rfl

section Uses

variable {info : ExprInfo} {used : NameUse} {left right : Expr} {exprs : List Expr}

@[simp]
theorem variableUses_name : (name info used).variableUses = [used] := rfl

@[simp]
theorem variableUses_binary {op : BinaryOp} :
    (binary info op left right).variableUses = left.variableUses ++ right.variableUses := by
  calc
    (binary info op left right).variableUses =
        (left.nodes ++ right.nodes).filterMap variableUse? :=
      List.filterMap_cons_none rfl
    _ = left.variableUses ++ right.variableUses := List.filterMap_append

@[simp]
theorem variableUses_call :
    (call info used exprs).variableUses = exprs.flatMap variableUses := by
  rw [variableUses, nodes, List.filterMap_cons_none rfl, filterMap_nodesOfList]

@[simp]
theorem variableUses_methodCall :
    (methodCall info left used exprs).variableUses =
      left.variableUses ++ exprs.flatMap variableUses := by
  calc
    (methodCall info left used exprs).variableUses =
        (left.nodes ++ nodesOfList exprs).filterMap variableUse? :=
      List.filterMap_cons_none rfl
    _ = left.variableUses ++ (nodesOfList exprs).filterMap variableUse? := List.filterMap_append
    _ = left.variableUses ++ exprs.flatMap variableUses := by rw [filterMap_nodesOfList]

@[simp]
theorem variableUses_field : (field info left used).variableUses = left.variableUses := by
  rw [variableUses, nodes, List.filterMap_cons_none rfl]
  rfl

@[simp]
theorem variableUses_newInstance : (newInstance info used).variableUses = [] := rfl

@[simp]
theorem variableUses_newArray {element : ElementTy} :
    (newArray info element left).variableUses = left.variableUses := by
  rw [variableUses, nodes, List.filterMap_cons_none rfl]
  rfl

@[simp]
theorem variableUses_index :
    (index info left right).variableUses = left.variableUses ++ right.variableUses := by
  calc
    (index info left right).variableUses = (left.nodes ++ right.nodes).filterMap variableUse? :=
      List.filterMap_cons_none rfl
    _ = left.variableUses ++ right.variableUses := List.filterMap_append

@[simp]
theorem variableUses_array : (array info exprs).variableUses = exprs.flatMap variableUses := by
  rw [variableUses, nodes, List.filterMap_cons_none rfl, filterMap_nodesOfList]

end Uses

end Expr

namespace Resolution

open Reported (Lacks)

variable {place : NamePlace} {scopes : List Scope} {used : NameUse} {frames : List Frame}

/-- A variable that is found counts as the local or parameter that its frames
give. -/
theorem refersTo_scopedBinding {found : Variable × ScopeKind}
    (given : Frames.find? frames used.text = some (found.1.declaration, found.2)) :
    UseSite.RefersTo place.model ⟨used, place.className, frames⟩ (some (scopedBinding found)) := by
  rcases found with ⟨entity, _ | _⟩
  · rw [UseSite.RefersTo, given]
    exact ⟨entity.slot, rfl⟩
  · rw [UseSite.RefersTo, given]
    exact ⟨entity.slot, rfl⟩

/-- Past the scopes, a name refers to what nothing around it declares. -/
theorem findOuter_eq_outerBinding? (place : NamePlace) (name : String) :
    ((findOwnField? place name).or <|
      (findOwnMethod? place name).or <| (findGlobal? place name).or (findFunction? place name)) =
        place.model.outerBinding? place.className name := by
  unfold findOwnField? findOwnMethod? findGlobal? findFunction? SymbolModel.outerBinding?
  cases place.className.bind fun owner => place.model.findField? owner name with
  | some found => rfl
  | none =>
      cases place.className.bind fun owner => place.model.findMethod? owner name with
      | some found => rfl
      | none => cases place.model.global? name <;> rfl

/-- Where a value is wanted, a name refers to what its site asks for. -/
theorem refersTo_findValue? (represent : Scopes.Represent scopes place.scope frames) :
    UseSite.RefersTo place.model ⟨used, place.className, frames⟩
      (findValue? place scopes used.text) := by
  rw [findValue?, findOuter_eq_outerBinding?]
  cases hasScope : place.scope with
  | none =>
      rw [hasScope] at represent
      cases frames with
      | nil =>
          rw [findScoped?, hasScope]
          rfl
      | cons => cases represent
  | some identity =>
      rw [hasScope] at represent
      have looked : _ = Frames.find? frames used.text := represent.lookup
      rw [findScoped?, hasScope, Option.bind_some]
      cases found : Scopes.lookup scopes identity used.text with
      | none =>
          rw [found] at looked
          rw [UseSite.RefersTo, ← looked]
          rfl
      | some pair =>
          rw [found] at looked
          exact refersTo_scopedBinding looked.symm

/-- Binding a name as it asks resolves its one site. -/
theorem resolvedSites_bindValue (represent : Scopes.Represent scopes place.scope frames)
    (unbound : used.binding = none) :
    ResolvedSites place.model (sitesAt place.className frames [used])
      (sitesAt place.className frames [(bindValue place scopes used).value])
      (bindValue place scopes used).findings := by
  have refers := @refersTo_findValue? place scopes used frames represent
  rw [bindValue]
  cases found : findValue? place scopes used.text with
  | none =>
      rw [found] at refers
      refine ⟨.cons ⟨none, refers, ?_⟩ .nil, ?_⟩
      · cases used
        cases unbound
        rfl
      · rcases used with ⟨text, span, binding⟩
        cases unbound
        rfl
  | some binding =>
      rw [found] at refers
      exact ⟨.cons ⟨some binding, refers, rfl⟩ .nil, rfl⟩

/-! ## Names of other kinds -/

/-- Binding a name speaks of no undefined variable if its problem does not. -/
theorem lacks_bindName {binding : Option Binding} {problem : Problem}
    (other : problem.isUndefinedVariable = false) :
    (bindName used binding problem).Lacks Problem.isUndefinedVariable := by
  cases binding with
  | none => simp [bindName, other]
  | some found => simp [bindName]

theorem lacks_bindCallee (place : NamePlace) (used : NameUse) :
    (bindCallee place used).Lacks Problem.isUndefinedVariable :=
  lacks_bindName rfl

theorem lacks_bindMethod (place : NamePlace) (receiver : Option Ty) (used : NameUse) :
    (bindMethod place receiver used).Lacks Problem.isUndefinedVariable := by
  unfold bindMethod
  split
  · exact Reported.lacks_pure used
  · exact Reported.lacks_pure used
  · split_ifs
    · exact lacks_bindName rfl
    · exact lacks_bindName rfl
    · exact Reported.lacks_pure used
  · exact lacks_bindName rfl

theorem lacks_bindField (place : NamePlace) (receiver : Option Ty) (used : NameUse) :
    (bindField place receiver used).Lacks Problem.isUndefinedVariable := by
  unfold bindField
  split
  · exact Reported.lacks_pure used
  · exact Reported.lacks_pure used
  · split_ifs
    · exact lacks_bindName rfl
    · exact lacks_bindName rfl
    · exact Reported.lacks_pure used
  · exact lacks_bindName rfl

theorem lacks_bindInstance (place : NamePlace) (used : NameUse) :
    (bindInstance place used).Lacks Problem.isUndefinedVariable := by
  unfold bindInstance
  split
  · exact Reported.lacks_pure _
  · apply lacks_bindName
    split <;> rfl

theorem lacks_bindParent (place : NamePlace) (used : NameUse) :
    (bindParent place used).Lacks Problem.isUndefinedVariable := lacks_bindName rfl

theorem lacks_bindInterface (place : NamePlace) (used : NameUse) :
    (bindInterface place used).Lacks Problem.isUndefinedVariable := lacks_bindName rfl

theorem lacks_checkTy (place : NamePlace) (ty : Ty) (position : Position) :
    (checkTy place ty position).Lacks Problem.isUndefinedVariable := by
  unfold checkTy
  split
  · exact (Reported.lacks_reportIf _ _ _).mpr fun _ => rfl
  · exact Reported.lacks_pure ()

theorem lacks_checkHead (place : NamePlace) (head : FunctionHead) :
    (checkHead place head).Lacks Problem.isUndefinedVariable := by
  rw [checkHead, Reported.lacks_bind]
  exact ⟨(Reported.lacks_forM _ _).mpr fun _ _ => lacks_checkTy place _ _, lacks_checkTy place _ _⟩

mutual

/-- The variables in an expression are bound as their sites ask. -/
theorem resolvedSites_resolveExpr (represent : Scopes.Represent scopes place.scope frames) :
    ∀ (expr : Expr), expr.Written →
      ResolvedSites place.model (sitesAt place.className frames expr.variableUses)
        (sitesAt place.className frames (resolveExpr place scopes expr).value.variableUses)
        (resolveExpr place scopes expr).findings
  | .int info value, _ => ResolvedSites.of_lacks (Reported.lacks_pure (Expr.int info value))
  | .string info value, _ => ResolvedSites.of_lacks (Reported.lacks_pure (Expr.string info value))
  | .bool info value, _ => ResolvedSites.of_lacks (Reported.lacks_pure (Expr.bool info value))
  | .name info used, written => by
      rw [Expr.written_name] at written
      simp only [resolveExpr, Reported.value_bind, Reported.findings_bind, Reported.value_pure,
        Reported.findings_pure, List.append_nil, Expr.variableUses_name]
      exact resolvedSites_bindValue represent written.unbound
  | .binary info op left right, written => by
      rw [Expr.written_binary] at written
      have first := resolvedSites_resolveExpr represent left written.1
      have second := resolvedSites_resolveExpr represent right written.2
      simpa [resolveExpr] using first.append second
  | .call info callee args, written => by
      rw [Expr.written_call] at written
      have inside := resolvedSites_resolveExprs represent args written.2
      have behind := inside.before_lacks (lacks_bindCallee place callee)
      simpa [resolveExpr] using behind
  | .methodCall info receiver callee args, written => by
      rw [Expr.written_methodCall] at written
      have first := resolvedSites_resolveExpr represent receiver written.2.1
      have second := resolvedSites_resolveExprs represent args written.2.2
      have behind := second.before_lacks
        (lacks_bindMethod place (resolveExpr place scopes receiver).value.staticTy? callee)
      simpa [resolveExpr] using first.append behind
  | .field info receiver used, written => by
      rw [Expr.written_field] at written
      have inside := resolvedSites_resolveExpr represent receiver written.2
      have behind := inside.before_lacks
        (lacks_bindField place (resolveExpr place scopes receiver).value.staticTy? used)
      simpa [resolveExpr] using behind
  | .newInstance info className, _ => by
      have only := lacks_bindInstance place className
      simpa [resolveExpr, sitesAt] using ResolvedSites.of_lacks only
  | .newArray info element length, written => by
      rw [Expr.written_newArray] at written
      simpa [resolveExpr] using resolvedSites_resolveExpr represent length written
  | .index info base position, written => by
      rw [Expr.written_index] at written
      have first := resolvedSites_resolveExpr represent base written.1
      have second := resolvedSites_resolveExpr represent position written.2
      simpa [resolveExpr] using first.append second
  | .array info items, written => by
      rw [Expr.written_array] at written
      simpa [resolveExpr] using resolvedSites_resolveExprs represent items written

/-- The variables in several expressions are bound as their sites ask. -/
theorem resolvedSites_resolveExprs (represent : Scopes.Represent scopes place.scope frames) :
    ∀ (exprs : List Expr), Expr.WrittenList exprs →
      ResolvedSites place.model (sitesAt place.className frames (exprs.flatMap Expr.variableUses))
        (sitesAt place.className frames
          ((resolveExprs place scopes exprs).value.flatMap Expr.variableUses))
        (resolveExprs place scopes exprs).findings
  | [], _ => ResolvedSites.of_lacks (Reported.lacks_pure ([] : List Expr))
  | first :: rest, written => by
      rw [Expr.writtenList_cons] at written
      have front := resolvedSites_resolveExpr represent first written.1
      have behind := resolvedSites_resolveExprs represent rest written.2
      simpa [resolveExprs] using front.append behind

end

/-- The variables in an expression that may be missing are bound as their
sites ask. -/
theorem resolvedSites_resolveOptional (represent : Scopes.Represent scopes place.scope frames)
    {optional : Option Expr} (written : ∀ expr ∈ optional, expr.Written) :
    ResolvedSites place.model
      (sitesAt place.className frames (optional.toList.flatMap Expr.variableUses))
      (sitesAt place.className frames
        ((resolveOptional place scopes optional).value.toList.flatMap Expr.variableUses))
      (resolveOptional place scopes optional).findings := by
  cases optional with
  | none => exact ResolvedSites.of_lacks (Reported.lacks_pure (none : Option Expr))
  | some expr =>
      simpa [resolveOptional] using resolvedSites_resolveExpr represent expr (written expr rfl)

/-- The variables in an initial value are bound as their sites ask. -/
theorem resolvedSites_resolveDecl (represent : Scopes.Represent scopes place.scope frames)
    {decl : VarDecl} (written : decl.Written) :
    ResolvedSites place.model (sitesAt place.className frames decl.variableUses)
      (sitesAt place.className frames (resolveDecl place scopes decl).value.variableUses)
      (resolveDecl place scopes decl).findings := by
  have inside := resolvedSites_resolveOptional represent fun expr member =>
    written.exprs expr (Option.mem_toList.mpr member)
  have behind := inside.after_lacks (lacks_checkTy place decl.ty decl.tySpan.start)
  simpa [resolveDecl, VarDecl.variableUses, VarDecl.exprs] using behind

/-- The variables in an assignment are bound as their sites ask. -/
theorem resolvedSites_resolveAssignment (represent : Scopes.Represent scopes place.scope frames)
    {assignment : Assignment} (written : assignment.Written) :
    ResolvedSites place.model (sitesAt place.className frames assignment.variableUses)
      (sitesAt place.className frames
        (resolveAssignment place scopes assignment).value.variableUses)
      (resolveAssignment place scopes assignment).findings := by
  have target := resolvedSites_bindValue represent written.target.unbound
  have index : ResolvedSites _ _ _ (resolveOptional place scopes assignment.index).findings :=
    resolvedSites_resolveOptional represent fun expr member =>
      written.exprs expr (List.mem_append_left _ (Option.mem_toList.mpr member))
  have value := resolvedSites_resolveExpr represent assignment.value
    (written.exprs _ (List.mem_append_right _ (List.mem_singleton_self _)))
  have all := target.append (index.append value)
  rw [← sitesAt_append, ← sitesAt_append, ← sitesAt_append, ← sitesAt_append] at all
  simpa [resolveAssignment, Assignment.variableUses, Assignment.exprs] using all

/-- The variables in a returned value are bound as their sites ask. -/
theorem resolvedSites_resolveReturn (represent : Scopes.Represent scopes place.scope frames)
    {returned : Return} (written : returned.Written) :
    ResolvedSites place.model (sitesAt place.className frames returned.variableUses)
      (sitesAt place.className frames (resolveReturn place scopes returned).value.variableUses)
      (resolveReturn place scopes returned).findings := by
  have inside := resolvedSites_resolveOptional represent fun expr member =>
    written expr (Option.mem_toList.mpr member)
  simpa [resolveReturn, Return.variableUses, Return.exprs] using inside

/-- The variables in a return that may be missing are bound as their sites
ask. -/
theorem resolvedSites_mapM_resolveReturn
    (represent : Scopes.Represent scopes place.scope frames) {closing : Option Return}
    (written : ∀ returned ∈ closing, returned.Written) :
    ResolvedSites place.model
      (sitesAt place.className frames (closing.toList.flatMap Return.variableUses))
      (sitesAt place.className frames
        ((closing.mapM (resolveReturn place scopes)).value.toList.flatMap Return.variableUses))
      (closing.mapM (resolveReturn place scopes)).findings := by
  cases closing with
  | none => exact ResolvedSites.of_lacks (Reported.lacks_pure (none : Option Return))
  | some returned =>
      have inside := resolvedSites_resolveReturn represent (written returned rfl)
      simpa using inside

/-- The variables in several initial values are bound as their sites ask. -/
theorem resolvedSites_mapM_resolveDecl
    (represent : Scopes.Represent scopes place.scope frames) {decls : List VarDecl}
    (written : ∀ decl ∈ decls, decl.Written) :
    ResolvedSites place.model
      (sitesAt place.className frames (decls.flatMap VarDecl.variableUses))
      (sitesAt place.className frames
        ((decls.mapM (resolveDecl place scopes)).value.flatMap VarDecl.variableUses))
      (decls.mapM (resolveDecl place scopes)).findings := by
  induction decls with
  | nil => exact ResolvedSites.of_lacks (Reported.lacks_pure ([] : List VarDecl))
  | cons first rest inductionHypothesis =>
      rw [List.forall_mem_cons] at written
      have front := resolvedSites_resolveDecl represent written.1
      have behind := inductionHypothesis written.2
      simpa [List.mapM_cons] using front.append behind

end Resolution

end KnightFront
