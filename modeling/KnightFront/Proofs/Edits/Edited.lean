import KnightFront.Analysis.Compilation

namespace KnightFront

/-!
# Programs that differ in one place

Two programs are alike but for one place, which is described from the root of
the tree down to it.  What may stand there instead is left open.  It can depend
on where the place is: on the declarations in reach and on the scopes that are
open, as name resolution of everything before has left them.
-/

/-- Whether a member stands behind an expression. -/
inductive Role where
  | value
  | receiver
deriving DecidableEq, Repr, Inhabited

/-- What may stand in one place instead of what stands there. -/
structure Edit where
  /-- An expression. -/
  expr : NamePlace → List Scope → Role → Expr → Expr → Prop
  /-- The name of a variable that is assigned. -/
  target : NameUse → NameUse → Prop
  /-- The name of a field that is assigned. -/
  member : NameUse → NameUse → Prop

/-- Expressions that differ in one part, or as a whole. -/
inductive Expr.Edited (change : Role → Expr → Expr → Prop) : Role → Expr → Expr → Prop where
  | here {role : Role} {expr expr' : Expr} (changed : change role expr expr') :
      Edited change role expr expr'
  | left {role : Role} {info : ExprInfo} {op : BinaryOp} {left left' right : Expr}
      (edited : Edited change .value left left') :
      Edited change role (.binary info op left right) (.binary info op left' right)
  | right {role : Role} {info : ExprInfo} {op : BinaryOp} {left right right' : Expr}
      (edited : Edited change .value right right') :
      Edited change role (.binary info op left right) (.binary info op left right')
  | argument {role : Role} {info : ExprInfo} {callee : NameUse} {front back : List Expr}
      {arg arg' : Expr} (edited : Edited change .value arg arg') :
      Edited change role (.call info callee (front ++ arg :: back))
        (.call info callee (front ++ arg' :: back))
  | receiver {role : Role} {info : ExprInfo} {receiver receiver' : Expr} {callee : NameUse}
      {args : List Expr} (edited : Edited change .receiver receiver receiver') :
      Edited change role (.methodCall info receiver callee args)
        (.methodCall info receiver' callee args)
  | methodArgument {role : Role} {info : ExprInfo} {receiver : Expr} {callee : NameUse}
      {front back : List Expr} {arg arg' : Expr} (edited : Edited change .value arg arg') :
      Edited change role (.methodCall info receiver callee (front ++ arg :: back))
        (.methodCall info receiver callee (front ++ arg' :: back))
  | fieldReceiver {role : Role} {info : ExprInfo} {receiver receiver' : Expr} {used : NameUse}
      (edited : Edited change .receiver receiver receiver') :
      Edited change role (.field info receiver used) (.field info receiver' used)
  | length {role : Role} {info : ExprInfo} {element : ElementTy} {length length' : Expr}
      (edited : Edited change .value length length') :
      Edited change role (.newArray info element length) (.newArray info element length')
  | base {role : Role} {info : ExprInfo} {base base' position : Expr}
      (edited : Edited change .value base base') :
      Edited change role (.index info base position) (.index info base' position)
  | position {role : Role} {info : ExprInfo} {base position position' : Expr}
      (edited : Edited change .value position position') :
      Edited change role (.index info base position) (.index info base position')
  | item {role : Role} {info : ExprInfo} {front back : List Expr} {item item' : Expr}
      (edited : Edited change .value item item') :
      Edited change role (.array info (front ++ item :: back)) (.array info (front ++ item' :: back))

namespace Edit

variable (edit : Edit) (place : NamePlace) (scopes : List Scope)

/-- Expressions that differ in one place where a value is wanted. -/
def Value : Expr → Expr → Prop := Expr.Edited (edit.expr place scopes) .value

/-- Expressions that differ in one place in front of a member. -/
def Receiver : Expr → Expr → Prop := Expr.Edited (edit.expr place scopes) .receiver

end Edit

section Parts

variable (edit : Edit) (place : NamePlace) (scopes : List Scope)

/-- Declarations that differ in the initial value. -/
inductive VarDecl.Edited : VarDecl → VarDecl → Prop where
  | init {decl : VarDecl} {init init' : Expr} (isInit : decl.init = some init)
      (edited : edit.Value place scopes init init') :
      Edited decl { decl with init := some init' }

/-- Assignments that differ in one place. -/
inductive Assignment.Edited : Assignment → Assignment → Prop where
  | target {assignment : Assignment} {target' : NameUse}
      (changed : edit.target assignment.target target') :
      Edited assignment { assignment with target := target' }
  | index {assignment : Assignment} {index index' : Expr}
      (isIndex : assignment.index = some index) (edited : edit.Value place scopes index index') :
      Edited assignment { assignment with index := some index' }
  | value {assignment : Assignment} {value' : Expr}
      (edited : edit.Value place scopes assignment.value value') :
      Edited assignment { assignment with value := value' }

/-- Returns that differ in the value. -/
inductive Return.Edited : Return → Return → Prop where
  | value {returned : Return} {value value' : Expr} (isValue : returned.value = some value)
      (edited : edit.Value place scopes value value') :
      Edited returned { returned with value := some value' }

end Parts

namespace Resolution

/-- The place inside a block or loop that is opened in a state. -/
def innerPlace (place : NamePlace) (state : ScopeState) : NamePlace :=
  { place with scope := some (state.openScope place.scope .block).1 }

/-- The state inside a block or loop that is opened in a state. -/
def innerState (place : NamePlace) (state : ScopeState) : ScopeState :=
  (state.openScope place.scope .block).2

end Resolution

open Resolution in
/-- Statements that differ in one place.  Each part is resolved in the state
that the parts before it leave. -/
inductive Stmt.Edited (edit : Edit) : NamePlace → ScopeState → Stmt → Stmt → Prop where
  | varDecl {place : NamePlace} {state : ScopeState} {info : StmtInfo} {decl decl' : VarDecl}
      (edited : decl.Edited edit place state.scopes decl') :
      Edited edit place state (.varDecl info decl) (.varDecl info decl')
  | assign {place : NamePlace} {state : ScopeState} {assignment assignment' : Assignment}
      (edited : assignment.Edited edit place state.scopes assignment') :
      Edited edit place state (.assign assignment) (.assign assignment')
  | fieldReceiver {place : NamePlace} {state : ScopeState} {info : StmtInfo}
      {receiver receiver' : Expr} {used : NameUse} {value : Expr}
      (edited : edit.Receiver place state.scopes receiver receiver') :
      Edited edit place state (.fieldAssign info receiver used value)
        (.fieldAssign info receiver' used value)
  | fieldName {place : NamePlace} {state : ScopeState} {info : StmtInfo} {receiver : Expr}
      {used used' : NameUse} {value : Expr} (changed : edit.member used used') :
      Edited edit place state (.fieldAssign info receiver used value)
        (.fieldAssign info receiver used' value)
  | fieldValue {place : NamePlace} {state : ScopeState} {info : StmtInfo} {receiver : Expr}
      {used : NameUse} {value value' : Expr} (edited : edit.Value place state.scopes value value') :
      Edited edit place state (.fieldAssign info receiver used value)
        (.fieldAssign info receiver used value')
  | call {place : NamePlace} {state : ScopeState} {info : StmtInfo} {expr expr' : Expr}
      (edited : edit.Value place state.scopes expr expr') :
      Edited edit place state (.call info expr) (.call info expr')
  | ifCondition {place : NamePlace} {state : ScopeState} {info : StmtInfo}
      {condition condition' : Expr} {body : Stmt}
      (edited : edit.Value place state.scopes condition condition') :
      Edited edit place state (.ifThen info condition body) (.ifThen info condition' body)
  | ifBody {place : NamePlace} {state : ScopeState} {info : StmtInfo} {condition : Expr}
      {body body' : Stmt} (edited : Edited edit place state body body') :
      Edited edit place state (.ifThen info condition body) (.ifThen info condition body')
  | elseCondition {place : NamePlace} {state : ScopeState} {info : StmtInfo}
      {condition condition' : Expr} {body alternative : Stmt}
      (edited : edit.Value place state.scopes condition condition') :
      Edited edit place state (.ifElse info condition body alternative)
        (.ifElse info condition' body alternative)
  | elseBody {place : NamePlace} {state : ScopeState} {info : StmtInfo} {condition : Expr}
      {body body' alternative : Stmt} (edited : Edited edit place state body body') :
      Edited edit place state (.ifElse info condition body alternative)
        (.ifElse info condition body' alternative)
  | alternative {place : NamePlace} {state : ScopeState} {info : StmtInfo} {condition : Expr}
      {body alternative alternative' : Stmt}
      (edited : Edited edit place (resolveStmt place state body).value.2 alternative alternative') :
      Edited edit place state (.ifElse info condition body alternative)
        (.ifElse info condition body alternative')
  | whileCondition {place : NamePlace} {state : ScopeState} {info : StmtInfo}
      {condition condition' : Expr} {body : Stmt}
      (edited : edit.Value place state.scopes condition condition') :
      Edited edit place state (.whileLoop info condition body)
        (.whileLoop info condition' body)
  | whileBody {place : NamePlace} {state : ScopeState} {info : StmtInfo} {condition : Expr}
      {body body' : Stmt} (edited : Edited edit place state body body') :
      Edited edit place state (.whileLoop info condition body) (.whileLoop info condition body')
  | forInit {place : NamePlace} {state : ScopeState} {info : StmtInfo} {init init' : VarDecl}
      {condition : Expr} {update : Assignment} {body : Stmt} {scope : Option ScopeId}
      (edited : init.Edited edit (innerPlace place state) (innerState place state).scopes init') :
      Edited edit place state (.forLoop info init condition update body scope)
        (.forLoop info init' condition update body scope)
  | forCondition {place : NamePlace} {state : ScopeState} {info : StmtInfo} {init : VarDecl}
      {condition condition' : Expr} {update : Assignment} {body : Stmt} {scope : Option ScopeId}
      (edited : edit.Value (innerPlace place state)
        (resolveLocal (innerPlace place state) (innerState place state) init).value.2.scopes
        condition condition') :
      Edited edit place state (.forLoop info init condition update body scope)
        (.forLoop info init condition' update body scope)
  | forUpdate {place : NamePlace} {state : ScopeState} {info : StmtInfo} {init : VarDecl}
      {condition : Expr} {update update' : Assignment} {body : Stmt} {scope : Option ScopeId}
      (edited : update.Edited edit (innerPlace place state)
        (resolveLocal (innerPlace place state) (innerState place state) init).value.2.scopes
        update') :
      Edited edit place state (.forLoop info init condition update body scope)
        (.forLoop info init condition update' body scope)
  | forBody {place : NamePlace} {state : ScopeState} {info : StmtInfo} {init : VarDecl}
      {condition : Expr} {update : Assignment} {body body' : Stmt} {scope : Option ScopeId}
      (edited : Edited edit (innerPlace place state)
        (resolveLocal (innerPlace place state) (innerState place state) init).value.2
        body body') :
      Edited edit place state (.forLoop info init condition update body scope)
        (.forLoop info init condition update body' scope)
  | ret {place : NamePlace} {state : ScopeState} {info : StmtInfo} {returned returned' : Return}
      (edited : returned.Edited edit place state.scopes returned') :
      Edited edit place state (.ret info returned) (.ret info returned')
  | block {place : NamePlace} {state : ScopeState} {info : StmtInfo} {front back : List Stmt}
      {stmt stmt' : Stmt} {scope : Option ScopeId}
      (edited : Edited edit (innerPlace place state)
        (resolveStmts (innerPlace place state) (innerState place state) front).value.2 stmt stmt') :
      Edited edit place state (.block info (front ++ stmt :: back) scope)
        (.block info (front ++ stmt' :: back) scope)

/-! ## Declarations -/

open Resolution

section Declarations

variable (edit : Edit)

/-- Functions that differ in one place of the body or in the return that closes
it. -/
inductive FunctionDecl.Edited (place : NamePlace) (scopes : List Scope) :
    FunctionDecl → FunctionDecl → Prop where
  | body {decl : FunctionDecl} {front back : List Stmt} {stmt stmt' : Stmt}
      (isBody : decl.body = front ++ stmt :: back)
      (edited : stmt.Edited edit (bodyPlace place (enterFunction scopes decl.head.params))
        (resolveStmts (bodyPlace place (enterFunction scopes decl.head.params))
          (enterFunction scopes decl.head.params).state front).value.2 stmt') :
      Edited place scopes decl { decl with body := front ++ stmt' :: back }
  | closing {decl : FunctionDecl} {returned returned' : Return}
      (isClosing : decl.closing = some returned)
      (edited : returned.Edited edit (bodyPlace place (enterFunction scopes decl.head.params))
        (resolveStmts (bodyPlace place (enterFunction scopes decl.head.params))
          (enterFunction scopes decl.head.params).state decl.body).value.2.scopes returned') :
      Edited place scopes decl { decl with closing := some returned' }

variable (model : SymbolModel)

/-- Classes that differ in one place of a field or method. -/
inductive ClassDecl.Edited (scopes : List Scope) : ClassDecl → ClassDecl → Prop where
  | field {decl : ClassDecl} {front back : List VarDecl} {field field' : VarDecl}
      (isFields : decl.fields = front ++ field :: back)
      (edited : field.Edited edit { model, className := some decl.name } scopes field') :
      Edited scopes decl { decl with fields := front ++ field' :: back }
  | method {decl : ClassDecl} {front back : List FunctionDecl} {method method' : FunctionDecl}
      (isMethods : decl.methods = front ++ method :: back)
      (edited : method.Edited edit { model, className := some decl.name }
        (resolveMethods { model, className := some decl.name } scopes front).value.2 method') :
      Edited scopes decl { decl with methods := front ++ method' :: back }

/-- Declarations at the top level that differ in one place. -/
inductive Item.Edited (scopes : List Scope) : Item → Item → Prop where
  | classDecl {decl decl' : ClassDecl} (edited : decl.Edited edit model scopes decl') :
      Edited scopes (.classDecl decl) (.classDecl decl')
  | function {decl decl' : FunctionDecl} (edited : decl.Edited edit { model } scopes decl') :
      Edited scopes (.function decl) (.function decl')
  | globalVariable {decl decl' : VarDecl} (edited : decl.Edited edit { model } scopes decl') :
      Edited scopes (.globalVariable decl) (.globalVariable decl')

/-- Files that differ in one place. -/
inductive Program.Edited : Program → Program → Prop where
  | item {program : Program} {front back : List Item} {item item' : Item}
      (isItems : program.items = front ++ item :: back)
      (edited : item.Edited edit model (resolveItems model program.scopes front).value.2 item') :
      Edited program { program with items := front ++ item' :: back }

/-- Lists of files that differ in one place. -/
inductive ProgramsEdited : List Program → List Program → Prop where
  | program {front back : List Program} {program program' : Program}
      (edited : program.Edited edit model program') :
      ProgramsEdited (front ++ program :: back) (front ++ program' :: back)

end Declarations

/-!
## A change that declares the same

The first pass does not look into expressions, nor at the names that are
assigned.  Programs that differ in one such place make the same symbol model
and the same findings.
-/

open Declarations

variable {edit : Edit} {place : NamePlace} {scopes : List Scope} {model : SymbolModel}

/-- A fold in which one member is exchanged for one that makes the same step. -/
theorem foldlM_append_cons_congr {α β : Type} {step : α → β → Reported α} {front back : List β}
    {member member' : β} (same : ∀ state, step state member' = step state member) (start : α) :
    (front ++ member' :: back).foldlM step start = (front ++ member :: back).foldlM step start := by
  rw [List.foldlM_append, List.foldlM_append]
  exact bind_congr fun state => by rw [List.foldlM_cons, List.foldlM_cons, same]

theorem VarDecl.Edited.declareLocal_eq {decl decl' : VarDecl}
    (edited : decl.Edited edit place scopes decl') (display : String) (declared : List String)
    (state : LocalState) :
    declareLocal display declared state decl' = declareLocal display declared state decl := by
  cases edited with
  | init => rfl

theorem collectLocalsOfList_congr {front back : List Stmt} {stmt stmt' : Stmt} {display : String}
    (same : ∀ declared state, collectLocals display declared state stmt' =
      collectLocals display declared state stmt) (declared : List String) (state : LocalState) :
    collectLocalsOfList display declared state (front ++ stmt' :: back) =
      collectLocalsOfList display declared state (front ++ stmt :: back) := by
  induction front generalizing declared state with
  | nil => rw [List.nil_append, List.nil_append, collectLocalsOfList, collectLocalsOfList, same]
  | cons first rest inductionHypothesis =>
      rw [List.cons_append, List.cons_append, collectLocalsOfList, collectLocalsOfList]
      exact bind_congr fun found => inductionHypothesis found.1 found.2

/-- The locals of a statement do not depend on its expressions. -/
theorem Stmt.Edited.collectLocals_eq {state : ScopeState} {stmt stmt' : Stmt}
    (edited : Stmt.Edited edit place state stmt stmt') (display : String) (declared : List String)
    (found : LocalState) :
    collectLocals display declared found stmt' = collectLocals display declared found stmt := by
  induction edited generalizing declared found with
  | varDecl edited => exact edited.declareLocal_eq display declared found
  | assign | fieldReceiver | fieldName | fieldValue | call | ret => rfl
  | ifCondition | elseCondition | whileCondition | forCondition | forUpdate => rfl
  | ifBody _ inductionHypothesis | whileBody _ inductionHypothesis =>
      rw [collectLocals, collectLocals, inductionHypothesis]
  | elseBody _ inductionHypothesis | alternative _ inductionHypothesis =>
      simp only [collectLocals, inductionHypothesis]
  | forInit edited => rw [collectLocals, collectLocals, edited.declareLocal_eq]
  | forBody _ inductionHypothesis => simp only [collectLocals, inductionHypothesis]
  | block _ inductionHypothesis =>
      rw [collectLocals, collectLocals, collectLocalsOfList_congr inductionHypothesis]

theorem FunctionDecl.Edited.head_eq {decl decl' : FunctionDecl}
    (edited : decl.Edited edit place scopes decl') : decl'.head = decl.head := by
  cases edited <;> rfl

/-- The record of a function depends on its head and its locals. -/
theorem FunctionDecl.Edited.functionRecord_eq {decl decl' : FunctionDecl}
    (edited : decl.Edited edit place scopes decl') (display : String) :
    functionRecord display decl' = functionRecord display decl := by
  cases edited with
  | body isBody edited =>
      rw [functionRecord, functionRecord, isBody]
      dsimp only
      rw [collectLocalsOfList_congr (edited.collectLocals_eq display)]
  | closing => rfl

theorem VarDecl.Edited.unslotted_eq {decl decl' : VarDecl}
    (edited : decl.Edited edit place scopes decl') : unslotted decl' = unslotted decl := by
  cases edited with
  | init => rfl

theorem VarDecl.Edited.nameSpan_eq {decl decl' : VarDecl}
    (edited : decl.Edited edit place scopes decl') :
    decl'.name = decl.name ∧ decl'.nameSpan = decl.nameSpan := by
  cases edited with
  | init => exact ⟨rfl, rfl⟩

theorem ClassDecl.Edited.addClass_eq {decl decl' : ClassDecl}
    (edited : decl.Edited edit model scopes decl') (collected : SymbolModel) :
    addClass collected decl' = addClass collected decl := by
  cases edited with
  | @field front back field field' isFields edited =>
      have fields : fieldTable { decl with fields := front ++ field' :: back } = fieldTable decl := by
        rw [fieldTable, fieldTable, isFields]
        refine foldlM_append_cons_congr (fun table => ?_) _
        rw [edited.unslotted_eq, edited.nameSpan_eq.1, edited.nameSpan_eq.2]
      unfold addClass
      rw [fields]
      rfl
  | @method front back method method' isMethods edited =>
      have methods : methodTable { decl with methods := front ++ method' :: back } =
          methodTable decl := by
        rw [methodTable, methodTable, isMethods]
        refine foldlM_append_cons_congr (fun table => ?_) _
        dsimp only
        rw [edited.functionRecord_eq, edited.head_eq]
      unfold addClass
      rw [methods]
      rfl

theorem Item.Edited.addItem_eq {item item' : Item} (edited : item.Edited edit model scopes item')
    (collected : SymbolModel) : addItem collected item' = addItem collected item := by
  cases edited with
  | classDecl edited => exact edited.addClass_eq collected
  | function edited => rw [addItem, addItem, edited.functionRecord_eq, edited.head_eq]
  | globalVariable edited =>
      have spans := edited.nameSpan_eq
      rw [addItem, edited.unslotted_eq, spans.1, spans.2, addItem]

theorem Program.Edited.addProgram_eq {program program' : Program}
    (edited : program.Edited edit model program') (collected : SymbolModel) :
    addProgram collected program' = addProgram collected program := by
  cases edited with
  | item isItems edited =>
      rw [addProgram, addProgram, isItems]
      exact foldlM_append_cons_congr edited.addItem_eq collected

/-- Files that differ in one place make the same model, with the same findings. -/
theorem ProgramsEdited.ofPrograms_eq {programs programs' : List Program}
    (edited : ProgramsEdited edit model programs programs') :
    SymbolModel.ofPrograms programs' = SymbolModel.ofPrograms programs := by
  cases edited with
  | @program front back program program' edited =>
      have read (pass : DeclarationPass) : pass.read program' = pass.read program := by
        rw [DeclarationPass.read, DeclarationPass.read, edited.addProgram_eq]
      have reads : (front ++ program' :: back).foldl DeclarationPass.read .start =
          (front ++ program :: back).foldl DeclarationPass.read .start := by
        simp only [List.foldl_append, List.foldl_cons, read]
      exact congrArg DeclarationPass.result reads

end KnightFront
