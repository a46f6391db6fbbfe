import KnightFront.Proofs.Tree.Traversal

namespace KnightFront

/-!
# Which tokens a tree speaks of

Analysis reports at the places of tokens: where a name is declared, and where a
name, a literal, a type or an opening word is mentioned.  The lists here collect
these places.  An expression begins where its first token stands, so the place
of a node above others is that of the leftmost leaf below it; trees that are
read from a text are anchored in this way.
-/

namespace Expr

mutual

/-- Where the names, literals and opening tokens in an expression stand. -/
def leaves : Expr → List Position
  | int info _ => [info.span.start]
  | string info _ => [info.span.start]
  | bool info _ => [info.span.start]
  | name _ used => [used.span.start]
  | binary _ _ left right => leaves left ++ leaves right
  | call _ callee args => callee.span.start :: leavesOfList args
  | methodCall _ receiver callee args =>
      leaves receiver ++ callee.span.start :: leavesOfList args
  | field _ receiver used => leaves receiver ++ [used.span.start]
  | newInstance info className => [info.span.start, className.span.start]
  | newArray info _ length => info.span.start :: leaves length
  | index _ base position => leaves base ++ leaves position
  | array info items => info.span.start :: leavesOfList items

/-- Where the names, literals and opening tokens in several expressions stand. -/
def leavesOfList : List Expr → List Position
  | [] => []
  | first :: rest => leaves first ++ leavesOfList rest

end

theorem leavesOfList_eq_flatMap (exprs : List Expr) :
    leavesOfList exprs = exprs.flatMap leaves := by
  induction exprs with
  | nil => rfl
  | cons first rest inductionHypothesis => simp [leavesOfList, inductionHypothesis]

/-- Whether a node itself begins where its first part does. -/
def AnchoredNode : Expr → Prop
  | name info used => info.span.start = used.span.start
  | binary info _ left _ => info.span.start = left.position
  | call info callee _ => info.span.start = callee.span.start
  | methodCall info receiver _ _ => info.span.start = receiver.position
  | field info receiver _ => info.span.start = receiver.position
  | index info base _ => info.span.start = base.position
  | _ => True

/-- Every node of an expression begins where its first part does. -/
def Anchored (expr : Expr) : Prop := ∀ node ∈ expr.nodes, node.AnchoredNode

/-- Every node of several expressions begins where its first part does. -/
def AnchoredList (exprs : List Expr) : Prop := ∀ node ∈ nodesOfList exprs, node.AnchoredNode

@[simp]
theorem anchoredList_nil : AnchoredList [] := by simp [AnchoredList, nodesOfList]

@[simp]
theorem anchoredList_cons {first : Expr} {rest : List Expr} :
    AnchoredList (first :: rest) ↔ first.Anchored ∧ AnchoredList rest := by
  simp [AnchoredList, Anchored, nodesOfList, or_imp, forall_and]

theorem anchoredList_iff {exprs : List Expr} :
    AnchoredList exprs ↔ ∀ expr ∈ exprs, expr.Anchored := by
  induction exprs with
  | nil => simp
  | cons first rest inductionHypothesis => simp [inductionHypothesis]

section Nodes

attribute [local simp] Anchored AnchoredList nodes AnchoredNode

variable {info : ExprInfo} {used : NameUse} {left right : Expr} {exprs : List Expr}

@[simp]
theorem anchored_int {value : Int} : (int info value).Anchored := by
  simp

@[simp]
theorem anchored_string {value : String} : (string info value).Anchored := by
  simp

@[simp]
theorem anchored_bool {value : Bool} : (bool info value).Anchored := by
  simp

@[simp]
theorem anchored_name : (name info used).Anchored ↔ info.span.start = used.span.start := by
  simp

@[simp]
theorem anchored_binary {op : BinaryOp} :
    (binary info op left right).Anchored ↔
      info.span.start = left.position ∧ left.Anchored ∧ right.Anchored := by
  simp [or_imp, forall_and]

@[simp]
theorem anchored_call :
    (call info used exprs).Anchored ↔
      info.span.start = used.span.start ∧ AnchoredList exprs := by
  simp

@[simp]
theorem anchored_methodCall :
    (methodCall info left used exprs).Anchored ↔
      info.span.start = left.position ∧ left.Anchored ∧ AnchoredList exprs := by
  simp [or_imp, forall_and]

@[simp]
theorem anchored_field :
    (field info left used).Anchored ↔ info.span.start = left.position ∧ left.Anchored := by
  simp

@[simp]
theorem anchored_newInstance : (newInstance info used).Anchored := by
  simp

@[simp]
theorem anchored_newArray {element : ElementTy} :
    (newArray info element left).Anchored ↔ left.Anchored := by
  simp

@[simp]
theorem anchored_index :
    (index info left right).Anchored ↔
      info.span.start = left.position ∧ left.Anchored ∧ right.Anchored := by
  simp [or_imp, forall_and]

@[simp]
theorem anchored_array : (array info exprs).Anchored ↔ AnchoredList exprs := by
  simp

end Nodes

end Expr

/-- Where a declaration mentions its type, and what its initial value
mentions. -/
def VarDecl.mentions (decl : VarDecl) : List Position :=
  decl.tySpan.start :: decl.exprs.flatMap Expr.leaves

/-- Where an assignment names its target, and what its index and its value
mention. -/
def Assignment.mentions (assignment : Assignment) : List Position :=
  assignment.target.span.start :: assignment.exprs.flatMap Expr.leaves

/-- Where a return begins, and what its value mentions. -/
def Return.mentions (returned : Return) : List Position :=
  returned.span.start :: returned.exprs.flatMap Expr.leaves

namespace Stmt

mutual

/-- What a statement and those inside it mention. -/
def mentions : Stmt → List Position
  | varDecl _ decl => decl.mentions
  | assign assignment => assignment.mentions
  | fieldAssign _ receiver used value => receiver.leaves ++ used.span.start :: value.leaves
  | call _ expr => expr.leaves
  | ifThen _ condition body => condition.leaves ++ mentions body
  | ifElse _ condition body alternative =>
      condition.leaves ++ (mentions body ++ mentions alternative)
  | whileLoop _ condition body => condition.leaves ++ mentions body
  | forLoop _ init condition update body _ =>
      init.mentions ++ (condition.leaves ++ (update.mentions ++ mentions body))
  | ret _ returned => returned.mentions
  | block _ stmts _ => mentionsOfList stmts

/-- What several statements mention. -/
def mentionsOfList : List Stmt → List Position
  | [] => []
  | first :: rest => mentions first ++ mentionsOfList rest

end

end Stmt

/-- Where the head of a function mentions types. -/
def FunctionHead.mentions (head : FunctionHead) : List Position :=
  head.params.map (fun param => param.tySpan.start) ++ [head.returnTySpan.start]

/-- What a function mentions. -/
def FunctionDecl.mentions (decl : FunctionDecl) : List Position :=
  decl.head.mentions ++
    (Stmt.mentionsOfList decl.body ++ decl.closing.toList.flatMap Return.mentions)

/-- What a declaration at the top level mentions. -/
def Item.mentions : Item → List Position
  | .inclusion _ => []
  | .enumeration _ => []
  | .interface decl =>
      decl.bases.map (fun base => base.span.start) ++ decl.methods.flatMap FunctionHead.mentions
  | .classDecl decl =>
      decl.parent.toList.map (fun parent => parent.span.start) ++
        (decl.uses.map (fun used => used.span.start) ++
          (decl.fields.flatMap VarDecl.mentions ++ decl.methods.flatMap FunctionDecl.mentions))
  | .function decl => decl.mentions
  | .globalVariable decl => decl.mentions

/-- Where the head of a function declares its name and its parameters. -/
def FunctionHead.declares (head : FunctionHead) : List Position :=
  head.span.start :: head.params.map fun param => param.span.start

/-- Where a function declares its name, its parameters and its locals. -/
def FunctionDecl.declares (decl : FunctionDecl) : List Position :=
  decl.head.span.start :: decl.localPlaces

/-- Where a declaration at the top level declares names. -/
def Item.declares : Item → List Position
  | .inclusion _ => []
  | .enumeration decl => decl.members.map fun member => member.2.start
  | .interface decl => decl.span.start :: decl.methods.flatMap FunctionHead.declares
  | .classDecl decl =>
      decl.span.start ::
        (decl.fields.map (fun field => field.nameSpan.start) ++
          decl.methods.flatMap FunctionDecl.declares)
  | .function decl => decl.declares
  | .globalVariable decl => [decl.nameSpan.start]

/-- What a file declares and mentions. -/
def Program.marks (program : Program) : List Position :=
  program.items.flatMap fun item => item.declares ++ item.mentions

end KnightFront
