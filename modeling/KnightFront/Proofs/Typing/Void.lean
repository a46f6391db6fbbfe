import KnightFront.Proofs.Analysis.CheckedPlaces
import KnightFront.Proofs.Resolution.Bindings

namespace KnightFront

/-!
# Where nothing is handed on

In a well typed file, an expression of type `void` is a call that stands alone,
unless void variables are around.  No operator takes it, no condition, index or
length is one, no declaration, element or return has this type, and no member is
sought behind it.  What is left are the places whose type a name decides: an
argument has the type of a parameter, and an assigned value that of a variable.
-/

variable {model : SymbolModel} {declared : Prop}

/-- Void variables and parameters exist only under a condition. -/
def voidOnlyIf (declared : Prop) : BindingRule where
  ofTy ty := ty = .void → declared
  ofSignature signature := .void ∈ signature.parameterTys → declared

/-- A place at which an expression may be void: that of a call which stands
alone and, under a condition, that of an argument or an assigned value. -/
def TakesVoid (declared : Prop) (place : ExprRole × Expr) : Prop :=
  place.1 = .standing ∧ place.2.isCall = true ∨
    (place.1 = .argument ∨ place.1 = .assigned) ∧ declared

/-- Void expressions stand only where they may. -/
def VoidStands (model : SymbolModel) (declared : Prop) (places : List (ExprRole × Expr)) : Prop :=
  ∀ place ∈ places, place.2.HasTy model .void → TakesVoid declared place

/-- What is void fits only where void is required. -/
theorem Expr.Fits.eq_void {expr : Expr} {expected : Ty} (fits : expr.Fits model expected)
    (isVoid : expr.HasTy model .void) : expected = .void := by
  rcases fits with ⟨actual, typed, assignable⟩
  cases typed.unique isVoid
  cases assignable
  rfl

/-- What has another type is not void. -/
theorem Expr.HasTy.not_void {expr : Expr} {ty : Ty} (typed : expr.HasTy model ty)
    (plain : ty ≠ .void) : ¬ expr.HasTy model .void :=
  fun isVoid => plain (typed.unique isVoid)

theorem ElementTy.ty_ne_void (element : ElementTy) : element.ty ≠ .void := by
  cases element <;> exact nofun

/-- No operator takes nothing. -/
theorem BinaryOp.HasTy.ne_void {op : BinaryOp} {left right ty : Ty}
    (applies : op.HasTy model left right ty) : left ≠ .void ∧ right ≠ .void := by
  cases applies with
  | equality _ fits => cases fits <;> exact ⟨Ty.noConfusion, Ty.noConfusion⟩
  | _ => exact ⟨Ty.noConfusion, Ty.noConfusion⟩

/-- A receiver behind which a member is bound is not void. -/
theorem NameUse.MeetsBehind.receiver_ne_void {rule : BindingRule} {receiver : Expr}
    {used : NameUse} (meets : used.MeetsBehind rule receiver) {binding : Binding}
    (bound : used.binding = some binding) : ¬ receiver.HasTy model .void := by
  intro isVoid
  rcases (meets binding bound).2 with ⟨owner, known⟩
  cases known.symm.trans (Expr.staticTy?_of_hasTy isVoid)

namespace VoidStands

/-- Where the types of the expressions exclude void, none of them is void. -/
theorem each_of_not_void {role : ExprRole} {exprs : List Expr}
    (plain : ∀ expr ∈ exprs, ¬ expr.HasTy model .void) :
    VoidStands model declared (role.each exprs) := by
  intro place member isVoid
  rcases List.mem_map.mp member with ⟨expr, inside, rfl⟩
  exact absurd isVoid (plain expr inside)

theorem append {front back : List (ExprRole × Expr)} (early : VoidStands model declared front)
    (late : VoidStands model declared back) : VoidStands model declared (front ++ back) :=
  List.forall_mem_append.mpr ⟨early, late⟩

theorem cons {first : ExprRole × Expr} {rest : List (ExprRole × Expr)}
    (front : first.2.HasTy model .void → TakesVoid declared first)
    (behind : VoidStands model declared rest) : VoidStands model declared (first :: rest) :=
  List.forall_mem_cons.mpr ⟨front, behind⟩

theorem nil : VoidStands model declared [] := List.forall_mem_nil _

/-- A single expression that is not void. -/
theorem single {role : ExprRole} {expr : Expr} (plain : ¬ expr.HasTy model .void) :
    VoidStands model declared [(role, expr)] :=
  cons (fun isVoid => absurd isVoid plain) nil

/-- An argument is void only if a parameter is. -/
theorem arguments {callee : NameUse} {signature : Signature} {args : List Expr} {argTys : List Ty}
    (meets : ∀ binding ∈ callee.binding, binding.Meets (voidOnlyIf declared))
    (calls : callee.Calls signature) (typed : Expr.HaveTys model args argTys)
    (accepts : signature.Accepts model argTys) :
    VoidStands model declared (ExprRole.argument.each args) := by
  rcases Option.bind_eq_some_iff.mp calls with ⟨binding, bound, isSignature⟩
  have onlyIf : .void ∈ signature.parameterTys → declared := by
    have held := meets binding bound
    cases binding with
    | function => cases isSignature; exact held
    | _ => cases isSignature
  have behind : ∀ {tys : List Ty}, (∀ ty ∈ tys, ty ∈ signature.parameterTys) →
      ∀ {args : List Expr} {argTys : List Ty}, Expr.HaveTys model args argTys →
        List.Forall₂ (Assignable model) tys argTys →
          VoidStands model declared (ExprRole.argument.each args) := by
    intro tys inside args argTys typed accepts
    induction accepts generalizing args with
    | nil => cases typed; exact nil
    | cons fits _ inductionHypothesis =>
        rw [List.forall_mem_cons] at inside
        cases typed with
        | cons firstTyped restTyped =>
            refine cons (fun isVoid => Or.inr ⟨Or.inl rfl, onlyIf ?_⟩)
              (inductionHypothesis inside.2 restTyped)
            exact Expr.Fits.eq_void ⟨_, firstTyped, fits⟩ isVoid ▸ inside.1
  exact behind (fun _ => id) typed accepts

/-- Items of the type of an element are not void. -/
theorem elements {element : ElementTy} : ∀ {items : List Expr} {count : Nat},
    Expr.HaveTys model items (List.replicate count element.ty) →
      VoidStands model declared (ExprRole.element.each items)
  | [], _, _ => nil
  | _ :: _, 0, typed => nomatch typed
  | _ :: _, _ + 1, .cons firstTyped restTyped =>
      cons (fun isVoid => absurd isVoid (firstTyped.not_void element.ty_ne_void))
        (elements restTyped)

end VoidStands

/-- In a node that has a type, void expressions stand only where they may. -/
theorem Expr.voidStands_parts {node : Expr} {ty : Ty} (typed : node.HasTy model ty)
    (meets : node.NodeMeets (voidOnlyIf declared)) : VoidStands model declared node.parts := by
  cases typed with
  | int | string | bool | name | newInstance | emptyArray => exact .nil
  | binary leftTyped rightTyped applies =>
      have plain := applies.ne_void
      exact .append (.single (leftTyped.not_void plain.1)) (.single (rightTyped.not_void plain.2))
  | call calls argsTyped accepts => exact .arguments meets calls argsTyped accepts
  | methodCall receiverTyped calls argsTyped accepts =>
      rcases Option.bind_eq_some_iff.mp calls with ⟨binding, bound, _⟩
      exact .append (.single (meets.receiver_ne_void bound))
        (.arguments (fun binding found => (meets binding found).1) calls argsTyped accepts)
  | field receiverTyped bound => exact .single (meets.receiver_ne_void bound)
  | newArray lengthTyped => exact .single (lengthTyped.not_void nofun)
  | index baseTyped positionTyped =>
      exact .append (.single (baseTyped.not_void nofun)) (.single (positionTyped.not_void nofun))
  | @array _ _ _ element firstTyped restTyped =>
      exact .append (.single (firstTyped.not_void element.ty_ne_void)) (.elements restTyped)

/-- The initial value of a declaration is not void. -/
theorem VarDecl.WellTyped.voidStands {decl : VarDecl} (typed : decl.WellTyped model) :
    VoidStands model declared decl.held :=
  .each_of_not_void fun expr member isVoid =>
    typed.notVoid ((typed.init expr (Option.mem_toList.mp member)).eq_void isVoid)

/-- A value is assigned that is void only if the variable is. -/
theorem voidStands_assigned {used : NameUse} {entity : Variable} {value : Expr}
    (meets : ∀ binding ∈ used.binding, binding.Meets (voidOnlyIf declared))
    (assigns : used.Assigns entity) (fits : value.Fits model entity.ty) :
    VoidStands model declared [(.assigned, value)] := by
  refine .cons (fun isVoid => Or.inr ⟨Or.inr rfl, ?_⟩) .nil
  rcases Option.bind_eq_some_iff.mp assigns with ⟨binding, bound, isEntity⟩
  have held := meets binding bound
  have isVoidVariable := fits.eq_void isVoid
  cases binding <;> cases isEntity <;> exact held isVoidVariable

theorem Assignment.WellTyped.voidStands {assignment : Assignment}
    (typed : assignment.WellTyped model)
    (meets : assignment.target.Meets (voidOnlyIf declared)) :
    VoidStands model declared assignment.held := by
  rcases typed with ⟨entity, assigns, parts⟩
  unfold Assignment.held
  cases hasIndex : assignment.index with
  | none =>
      rw [hasIndex] at parts
      exact voidStands_assigned meets assigns parts
  | some index =>
      rw [hasIndex] at parts
      rcases parts with ⟨indexTyped, element, _, fits⟩
      exact .append (.single (indexTyped.not_void nofun))
        (.single fun isVoid => element.ty_ne_void (fits.eq_void isVoid))

/-- A returned value is not void. -/
theorem Return.WellTyped.voidStands {returned : Return} {returnTy : Ty}
    (typed : returned.WellTyped model returnTy) : VoidStands model declared returned.held := by
  refine .each_of_not_void fun expr member isVoid => ?_
  have isValue : returned.value = some expr := Option.mem_toList.mp member
  rw [Return.WellTyped, isValue] at typed
  exact typed.1 (typed.2.eq_void isVoid)

/-- A well typed statement itself holds void expressions only where they may
stand. -/
theorem Stmt.WellTyped.voidStands {stmt : Stmt} {returnTy : Ty}
    (typed : stmt.WellTyped model returnTy) (linked : stmt.Linked model)
    (meets : stmt.TargetMeets (voidOnlyIf declared)) : VoidStands model declared stmt.held := by
  cases stmt with
  | varDecl info decl => exact VarDecl.WellTyped.voidStands typed
  | assign assignment => exact Assignment.WellTyped.voidStands typed meets
  | fieldAssign info receiver used value =>
      rcases typed with ⟨_, entity, assigns, fits⟩
      rcases Option.bind_eq_some_iff.mp assigns with ⟨binding, bound, _⟩
      exact .append (.single (meets.receiver_ne_void bound))
        (voidStands_assigned (fun binding found => (meets binding found).1) assigns fits)
  | call info expr => exact .cons (fun _ => Or.inl ⟨rfl, linked.2⟩) .nil
  | ifThen info condition body => exact .single (typed.1.not_void nofun)
  | ifElse info condition body alternative => exact .single (typed.1.not_void nofun)
  | whileLoop info condition body => exact .single (typed.1.not_void nofun)
  | forLoop info init condition update body scope =>
      exact .append typed.1.voidStands (.append (.single (typed.2.1.not_void nofun))
        (typed.2.2.1.voidStands meets))
  | ret info returned => exact Return.WellTyped.voidStands typed
  | block => exact .nil

/-- What holds of the lists of members holds of the whole list. -/
theorem VoidStands.flatMap {α : Type} {members : List α} {parts : α → List (ExprRole × Expr)}
    (stand : ∀ member ∈ members, VoidStands model declared (parts member)) :
    VoidStands model declared (members.flatMap parts) := by
  intro place inside
  rcases List.mem_flatMap.mp inside with ⟨member, isMember, isPart⟩
  exact stand member isMember place isPart

theorem FunctionDecl.WellTyped.voidStands {decl : FunctionDecl} (typed : decl.WellTyped model)
    (linked : decl.Linked model) (meets : decl.Meets (voidOnlyIf declared)) :
    VoidStands model declared decl.held := by
  refine .append (.flatMap fun stmt inside => ?_) (.flatMap fun returned member => ?_)
  · exact (Stmt.WellTypedList.nodes decl.body typed.body stmt inside).voidStands
      (Stmt.LinkedList.nodes decl.body linked.body stmt inside) (meets.body.targets stmt inside)
  · exact (typed.closing returned (Option.mem_toList.mp member)).voidStands

/-- The variables and functions of a well typed declaration are well typed. -/
theorem Item.WellTyped.members {item : Item} (typed : item.WellTyped model) :
    ∀ decl ∈ item.members, decl.WellTyped model := by
  cases item with
  | classDecl decl => exact typed.fields
  | globalVariable decl => exact List.forall_mem_singleton.mpr typed
  | _ => exact List.forall_mem_nil _

theorem Item.WellTyped.bodies {item : Item} (typed : item.WellTyped model) :
    ∀ decl ∈ item.bodies, decl.WellTyped model := by
  cases item with
  | classDecl decl => exact typed.methods
  | function decl => exact List.forall_mem_singleton.mpr typed
  | _ => exact List.forall_mem_nil _

theorem Item.Linked.bodies {item : Item} (linked : item.Linked model) :
    ∀ decl ∈ item.bodies, decl.Linked model := by
  cases item with
  | classDecl decl => exact linked.methods
  | function decl => exact List.forall_mem_singleton.mpr linked
  | _ => exact List.forall_mem_nil _

/-- Every expression in a declaration whose names are bound to what meets
conditions is such an expression. -/
theorem Item.Meets.exprs {rule : BindingRule} {item : Item} (meets : item.Meets rule) :
    ∀ expr ∈ item.exprs, expr.Meets rule := by
  rw [Item.exprs_eq, List.forall_mem_append]
  constructor
  · intro expr member
    rcases List.mem_flatMap.mp member with ⟨decl, inside, isInit⟩
    exact meets.inits decl inside expr isInit
  · intro expr member
    rcases List.mem_flatMap.mp member with ⟨decl, inside, inBody⟩
    rcases List.mem_append.mp inBody with inStmts | inClosing
    · exact (meets.bodies decl inside).body.exprs expr inStmts
    · rcases List.mem_flatMap.mp inClosing with ⟨returned, isClosing, isValue⟩
      exact (meets.bodies decl inside).closing returned (Option.mem_toList.mp isClosing) expr isValue

namespace Program

variable {program : Program}

/-- A well typed file holds void expressions only where they may stand. -/
theorem WellTyped.voidStands (typed : program.WellTyped model) (linked : program.Linked model)
    (meets : ∀ item ∈ program.items, item.Meets (voidOnlyIf declared)) :
    VoidStands model declared program.places := by
  refine .append (.flatMap fun item inside => ?_) (.flatMap fun node inside => ?_)
  · refine .append (.flatMap fun decl member => ?_) (.flatMap fun decl member => ?_)
    · exact ((typed item inside).members decl member).voidStands
    · exact ((typed item inside).bodies decl member).voidStands
        ((linked item inside).bodies decl member) ((meets item inside).bodies decl member)
  · rcases List.mem_flatMap.mp inside with ⟨expr, inExprs, inExpr⟩
    rcases (Expr.Valued.nodes expr (typed.valued linked expr inExprs) node inExpr).typed with
      ⟨ty, nodeTyped, _⟩
    rcases List.mem_flatMap.mp inExprs with ⟨item, inItems, inItem⟩
    exact Expr.voidStands_parts nodeTyped ((meets item inItems).exprs expr inItem node inExpr)

/-- No variable of a well typed file is void. -/
theorem WellTyped.varDecls_ne_void (typed : program.WellTyped model) :
    ∀ decl ∈ program.varDecls, decl.ty ≠ .void := by
  rw [varDecls, List.forall_mem_append]
  constructor
  · intro decl member
    rcases List.mem_flatMap.mp member with ⟨item, inside, isMember⟩
    exact ((typed item inside).members decl isMember).notVoid
  · intro decl member
    rcases List.mem_flatMap.mp member with ⟨owner, inBodies, isLocal⟩
    rcases List.mem_flatMap.mp inBodies with ⟨item, inside, isBody⟩
    rcases List.mem_flatMap.mp isLocal with ⟨stmt, inBody, declares⟩
    have stmtTyped := Stmt.WellTypedList.nodes owner.body
      ((typed item inside).bodies owner isBody).body stmt inBody
    cases stmt with
    | varDecl info own => exact List.mem_singleton.mp declares ▸ stmtTyped.notVoid
    | forLoop info init condition update body scope =>
        exact List.mem_singleton.mp declares ▸ stmtTyped.1.notVoid
    | _ => cases declares

end Program

end KnightFront
