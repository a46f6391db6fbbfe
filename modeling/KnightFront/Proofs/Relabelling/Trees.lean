import KnightFront.Tree.Program

namespace KnightFront

/-!
# Relabelled trees

A relabelling gives the identifiers of a program other spellings and moves
what it says of places.  It acts on all that a tree holds, bindings and types
included, and leaves the form of the tree alone.

A binding holds more than later passes read: the class or interface that owns a
function, and the names of its parameters.  A relabelling treats these names
apart, so that trees can be compared that differ in them.
-/

/-- What becomes of the names and places in a program. -/
structure Relabelling where
  name : String → String
  /-- For the owner of a bound function and the names of its parameters. -/
  hidden : String → String
  /-- For the places where something begins. -/
  start : Position → Position
  /-- For the places where something ends. -/
  finish : Position → Position

namespace Relabelling

/-- The relabelling that changes nothing. -/
def identity : Relabelling := ⟨id, id, id, id⟩

/-- The relabelling that treats hidden names like another one and changes
nothing else. -/
def mask (change : Relabelling) : Relabelling := ⟨id, change.hidden, id, id⟩

/-- Different names stay different, and hidden names do not show whether they
have been changed before. -/
structure Lawful (change : Relabelling) : Prop where
  injective : Function.Injective change.name
  hidden_hidden : ∀ name, change.hidden (change.hidden name) = change.hidden name

theorem Lawful.mask {change : Relabelling} (lawful : change.Lawful) : change.mask.Lawful :=
  ⟨Function.injective_id, lawful.hidden_hidden⟩

end Relabelling

/-- A span with its ends moved. -/
def Span.relabel (change : Relabelling) (span : Span) : Span :=
  ⟨change.start span.start, change.finish span.finish⟩

/-- A type with its name relabelled. -/
def Ty.relabel (change : Relabelling) : Ty → Ty
  | named name => .named (change.name name)
  | int => .int
  | string => .string
  | bool => .bool
  | void => .void
  | array element => .array element
  | function => .function
  | error => .error

/-- A variable with its name and type relabelled. -/
def Variable.relabel (change : Relabelling) (entity : Variable) : Variable where
  name := change.name entity.name
  ty := entity.ty.relabel change
  slot := entity.slot
  position := change.start entity.position

/-- A signature with its types relabelled.  The names of parameters are
hidden. -/
def Signature.relabel (change : Relabelling) (signature : Signature) : Signature where
  parameters := signature.parameters.map fun parameter =>
    (change.hidden parameter.1, parameter.2.relabel change)
  returnTy := signature.returnTy.relabel change

/-- A binding with its names and types relabelled.  The owner of a function is
hidden. -/
def Binding.relabel (change : Relabelling) : Binding → Binding
  | localVariable entity => .localVariable (entity.relabel change)
  | parameter entity => .parameter (entity.relabel change)
  | field owner entity => .field (change.name owner) (entity.relabel change)
  | globalVariable entity => .globalVariable (entity.relabel change)
  | function owner name signature =>
      .function (owner.map change.hidden) (change.name name) (signature.relabel change)
  | classType name => .classType (change.name name)
  | interfaceType name => .interfaceType (change.name name)

/-- A used name relabelled. -/
def NameUse.relabel (change : Relabelling) (used : NameUse) : NameUse where
  text := change.name used.text
  span := used.span.relabel change
  binding := used.binding.map (Binding.relabel change)

/-- The information of an expression node with its place moved. -/
def ExprInfo.relabel (change : Relabelling) (info : ExprInfo) : ExprInfo where
  id := info.id
  span := info.span.relabel change
  ty := info.ty.map (Ty.relabel change)

/-- The information of a statement with its place moved. -/
def StmtInfo.relabel (change : Relabelling) (info : StmtInfo) : StmtInfo :=
  ⟨info.id, info.span.relabel change⟩

namespace Expr

mutual

/-- An expression relabelled. -/
def relabel (change : Relabelling) : Expr → Expr
  | int info value => .int (info.relabel change) value
  | string info value => .string (info.relabel change) value
  | bool info value => .bool (info.relabel change) value
  | name info used => .name (info.relabel change) (used.relabel change)
  | binary info op left right =>
      .binary (info.relabel change) op (relabel change left) (relabel change right)
  | call info callee args =>
      .call (info.relabel change) (callee.relabel change) (relabelList change args)
  | methodCall info receiver callee args =>
      .methodCall (info.relabel change) (relabel change receiver) (callee.relabel change)
        (relabelList change args)
  | field info receiver used =>
      .field (info.relabel change) (relabel change receiver) (used.relabel change)
  | newInstance info className => .newInstance (info.relabel change) (className.relabel change)
  | newArray info element length =>
      .newArray (info.relabel change) element (relabel change length)
  | index info base position =>
      .index (info.relabel change) (relabel change base) (relabel change position)
  | array info items => .array (info.relabel change) (relabelList change items)

/-- Expressions relabelled. -/
def relabelList (change : Relabelling) : List Expr → List Expr
  | [] => []
  | first :: rest => relabel change first :: relabelList change rest

end

theorem relabelList_eq_map (change : Relabelling) (exprs : List Expr) :
    relabelList change exprs = exprs.map (relabel change) := by
  induction exprs with
  | nil => rfl
  | cons first rest inductionHypothesis => rw [relabelList, inductionHypothesis, List.map_cons]

end Expr

/-- A declaration of a variable relabelled. -/
def VarDecl.relabel (change : Relabelling) (decl : VarDecl) : VarDecl where
  ty := decl.ty.relabel change
  tySpan := decl.tySpan.relabel change
  name := change.name decl.name
  nameSpan := decl.nameSpan.relabel change
  init := decl.init.map (Expr.relabel change)

/-- An assignment relabelled. -/
def Assignment.relabel (change : Relabelling) (assignment : Assignment) : Assignment where
  info := assignment.info.relabel change
  target := assignment.target.relabel change
  index := assignment.index.map (Expr.relabel change)
  value := assignment.value.relabel change

/-- A return relabelled. -/
def Return.relabel (change : Relabelling) (returned : Return) : Return where
  value := returned.value.map (Expr.relabel change)
  span := returned.span.relabel change

namespace Stmt

mutual

/-- A statement relabelled. -/
def relabel (change : Relabelling) : Stmt → Stmt
  | varDecl info decl => .varDecl (info.relabel change) (decl.relabel change)
  | assign assignment => .assign (assignment.relabel change)
  | fieldAssign info receiver used value =>
      .fieldAssign (info.relabel change) (receiver.relabel change) (used.relabel change)
        (value.relabel change)
  | call info expr => .call (info.relabel change) (expr.relabel change)
  | ifThen info condition body =>
      .ifThen (info.relabel change) (condition.relabel change) (relabel change body)
  | ifElse info condition body alternative =>
      .ifElse (info.relabel change) (condition.relabel change) (relabel change body)
        (relabel change alternative)
  | whileLoop info condition body =>
      .whileLoop (info.relabel change) (condition.relabel change) (relabel change body)
  | forLoop info init condition update body scope =>
      .forLoop (info.relabel change) (init.relabel change) (condition.relabel change)
        (update.relabel change) (relabel change body) scope
  | ret info returned => .ret (info.relabel change) (returned.relabel change)
  | block info stmts scope => .block (info.relabel change) (relabelList change stmts) scope

/-- Statements relabelled. -/
def relabelList (change : Relabelling) : List Stmt → List Stmt
  | [] => []
  | first :: rest => relabel change first :: relabelList change rest

end

theorem relabelList_eq_map (change : Relabelling) (stmts : List Stmt) :
    relabelList change stmts = stmts.map (relabel change) := by
  induction stmts with
  | nil => rfl
  | cons first rest inductionHypothesis => rw [relabelList, inductionHypothesis, List.map_cons]

end Stmt

/-- A parameter relabelled. -/
def Param.relabel (change : Relabelling) (param : Param) : Param where
  ty := param.ty.relabel change
  tySpan := param.tySpan.relabel change
  name := change.name param.name
  span := param.span.relabel change

/-- The head of a function relabelled. -/
def FunctionHead.relabel (change : Relabelling) (head : FunctionHead) : FunctionHead where
  name := change.name head.name
  params := head.params.map (Param.relabel change)
  returnTy := head.returnTy.relabel change
  returnTySpan := head.returnTySpan.relabel change
  span := head.span.relabel change

/-- A function relabelled. -/
def FunctionDecl.relabel (change : Relabelling) (decl : FunctionDecl) : FunctionDecl where
  id := decl.id
  head := decl.head.relabel change
  body := Stmt.relabelList change decl.body
  closing := decl.closing.map (Return.relabel change)
  paramScope := decl.paramScope
  bodyScope := decl.bodyScope

/-- An inclusion relabelled. -/
def IncludeDecl.relabel (change : Relabelling) (decl : IncludeDecl) : IncludeDecl :=
  ⟨change.name decl.name, decl.span.relabel change⟩

/-- An enumeration relabelled. -/
def EnumDecl.relabel (change : Relabelling) (decl : EnumDecl) : EnumDecl where
  name := change.name decl.name
  members := decl.members.map fun member => (change.name member.1, member.2.relabel change)
  span := decl.span.relabel change

/-- An interface relabelled. -/
def InterfaceDecl.relabel (change : Relabelling) (decl : InterfaceDecl) : InterfaceDecl where
  name := change.name decl.name
  bases := decl.bases.map (NameUse.relabel change)
  methods := decl.methods.map (FunctionHead.relabel change)
  span := decl.span.relabel change

/-- A class relabelled. -/
def ClassDecl.relabel (change : Relabelling) (decl : ClassDecl) : ClassDecl where
  name := change.name decl.name
  parent := decl.parent.map (NameUse.relabel change)
  uses := decl.uses.map (NameUse.relabel change)
  fields := decl.fields.map (VarDecl.relabel change)
  methods := decl.methods.map (FunctionDecl.relabel change)
  span := decl.span.relabel change

/-- A declaration relabelled. -/
def Item.relabel (change : Relabelling) : Item → Item
  | inclusion decl => .inclusion (decl.relabel change)
  | enumeration decl => .enumeration (decl.relabel change)
  | interface decl => .interface (decl.relabel change)
  | classDecl decl => .classDecl (decl.relabel change)
  | function decl => .function (decl.relabel change)
  | globalVariable decl => .globalVariable (decl.relabel change)

/-- A file relabelled.  The scopes opened in it stay. -/
def Program.relabel (change : Relabelling) (program : Program) : Program :=
  { program with items := program.items.map (Item.relabel change) }

/-! ## Types under a relabelling -/

namespace Ty

variable {change : Relabelling}

theorem relabel_injective (injective : Function.Injective change.name) :
    Function.Injective (Ty.relabel change) := by
  intro first second same
  cases first <;> cases second <;> simp_all [relabel, injective.eq_iff]

/-- A relabelling that leaves names alone leaves types alone. -/
theorem relabel_of_name (unchanged : change.name = id) (ty : Ty) : ty.relabel change = ty := by
  cases ty <;> simp [relabel, unchanged]

@[simp]
theorem relabel_mask : Ty.relabel change.mask = id :=
  funext (relabel_of_name rfl)

section

variable {ty : Ty}

@[simp]
theorem relabel_eq_int_iff : ty.relabel change = .int ↔ ty = .int := by
  cases ty <;> simp [relabel]

@[simp]
theorem relabel_eq_string_iff : ty.relabel change = .string ↔ ty = .string := by
  cases ty <;> simp [relabel]

@[simp]
theorem relabel_eq_bool_iff : ty.relabel change = .bool ↔ ty = .bool := by
  cases ty <;> simp [relabel]

@[simp]
theorem relabel_eq_void_iff : ty.relabel change = .void ↔ ty = .void := by
  cases ty <;> simp [relabel]

@[simp]
theorem relabel_eq_error_iff : ty.relabel change = .error ↔ ty = .error := by
  cases ty <;> simp [relabel]

end

@[simp]
theorem element?_relabel (ty : Ty) :
    (ty.relabel change).element? = ty.element?.map (Ty.relabel change) := by
  cases ty with
  | array element => cases element <;> rfl
  | _ => rfl

@[simp]
theorem arrayOf?_relabel (ty : Ty) :
    (ty.relabel change).arrayOf? = ty.arrayOf?.map (Ty.relabel change) := by
  cases ty <;> rfl

end Ty

section Mask

variable {change : Relabelling}

@[simp]
theorem Relabelling.name_mask : change.mask.name = id := rfl

@[simp]
theorem Relabelling.hidden_mask : change.mask.hidden = change.hidden := rfl

@[simp]
theorem Relabelling.start_mask : change.mask.start = id := rfl

@[simp]
theorem Span.relabel_mask : Span.relabel change.mask = id := rfl

@[simp]
theorem Variable.relabel_mask : Variable.relabel change.mask = id := by
  funext entity
  simp [relabel]

@[simp]
theorem ExprInfo.relabel_mask : ExprInfo.relabel change.mask = fun info => info := by
  funext info
  simp [relabel]

@[simp]
theorem StmtInfo.relabel_mask : StmtInfo.relabel change.mask = fun info => info := rfl

@[simp]
theorem Param.relabel_mask : Param.relabel change.mask = id := by
  funext param
  simp [relabel]

@[simp]
theorem FunctionHead.relabel_mask : FunctionHead.relabel change.mask = id := by
  funext head
  simp [relabel]

namespace Relabelling.Lawful

variable (lawful : change.Lawful)

include lawful

/-- What has been relabelled stays as it is behind the mask. -/
theorem mask_signature (signature : Signature) :
    (signature.relabel change).relabel change.mask = signature.relabel change := by
  simp [Signature.relabel, lawful.hidden_hidden]

theorem mask_binding (binding : Binding) :
    (binding.relabel change).relabel change.mask = binding.relabel change := by
  cases binding with
  | function owner name signature =>
      simp [Binding.relabel, lawful.mask_signature, lawful.hidden_hidden, Function.comp_def]
  | _ => simp [Binding.relabel]

theorem mask_nameUse (used : NameUse) :
    (used.relabel change).relabel change.mask = used.relabel change := by
  simp [NameUse.relabel, lawful.mask_binding, Function.comp_def]

end Relabelling.Lawful

end Mask

section Identity

open Relabelling (identity)

@[simp]
theorem Relabelling.name_identity : identity.name = id := rfl

@[simp]
theorem Relabelling.hidden_identity : identity.hidden = id := rfl

@[simp]
theorem Relabelling.start_identity : identity.start = id := rfl

@[simp]
theorem Span.relabel_identity : Span.relabel identity = id := rfl

@[simp]
theorem Ty.relabel_identity : Ty.relabel identity = id :=
  funext (Ty.relabel_of_name rfl)

@[simp]
theorem Variable.relabel_identity : Variable.relabel identity = id := by
  funext entity
  simp [relabel]

@[simp]
theorem Signature.relabel_identity : Signature.relabel identity = id := by
  funext signature
  simp [relabel]

@[simp]
theorem Binding.relabel_identity : Binding.relabel identity = id := by
  funext binding
  cases binding <;> simp [relabel]

@[simp]
theorem NameUse.relabel_identity : NameUse.relabel identity = id := by
  funext used
  simp [relabel]

@[simp]
theorem ExprInfo.relabel_identity : ExprInfo.relabel identity = fun info => info := by
  funext info
  simp [relabel]

@[simp]
theorem StmtInfo.relabel_identity : StmtInfo.relabel identity = fun info => info := by
  funext info
  simp [relabel]

mutual

theorem Expr.relabel_identity_apply : ∀ (expr : Expr), expr.relabel identity = expr
  | .int .. | .string .. | .bool .. | .name .. | .newInstance .. => by simp [relabel]
  | .binary _ _ left right => by
      simp [relabel, relabel_identity_apply left, relabel_identity_apply right]
  | .call _ _ args => by simp [relabel, relabelList_identity_apply args]
  | .methodCall _ receiver _ args => by
      simp [relabel, relabel_identity_apply receiver, relabelList_identity_apply args]
  | .field _ receiver _ => by simp [relabel, relabel_identity_apply receiver]
  | .newArray _ _ length => by simp [relabel, relabel_identity_apply length]
  | .index _ base position => by
      simp [relabel, relabel_identity_apply base, relabel_identity_apply position]
  | .array _ items => by simp [relabel, relabelList_identity_apply items]

theorem Expr.relabelList_identity_apply : ∀ (exprs : List Expr), relabelList identity exprs = exprs
  | [] => rfl
  | first :: rest => by
      rw [relabelList, relabel_identity_apply first, relabelList_identity_apply rest]

end

@[simp]
theorem Expr.relabel_identity : Expr.relabel identity = fun expr => expr :=
  funext relabel_identity_apply

@[simp]
theorem VarDecl.relabel_identity : VarDecl.relabel identity = id := by
  funext decl
  simp [relabel]

@[simp]
theorem Assignment.relabel_identity : Assignment.relabel identity = id := by
  funext assignment
  simp [relabel]

@[simp]
theorem Return.relabel_identity : Return.relabel identity = id := by
  funext returned
  simp [relabel]

mutual

theorem Stmt.relabel_identity_apply : ∀ (stmt : Stmt), stmt.relabel identity = stmt
  | .varDecl .. | .assign _ | .fieldAssign .. | .call .. | .ret .. => by simp [relabel]
  | .ifThen _ _ body | .whileLoop _ _ body | .forLoop _ _ _ _ body _ => by
      simp [relabel, relabel_identity_apply body]
  | .ifElse _ _ body alternative => by
      simp [relabel, relabel_identity_apply body, relabel_identity_apply alternative]
  | .block _ stmts _ => by simp [relabel, relabelList_identity_apply stmts]

theorem Stmt.relabelList_identity_apply : ∀ (stmts : List Stmt), relabelList identity stmts = stmts
  | [] => rfl
  | first :: rest => by
      rw [relabelList, relabel_identity_apply first, relabelList_identity_apply rest]

end

@[simp]
theorem Param.relabel_identity : Param.relabel identity = id := by
  funext param
  simp [relabel]

@[simp]
theorem FunctionHead.relabel_identity : FunctionHead.relabel identity = id := by
  funext head
  simp [relabel]

@[simp]
theorem FunctionDecl.relabel_identity : FunctionDecl.relabel identity = fun decl => decl := by
  funext decl
  simp [relabel, Stmt.relabelList_identity_apply]

@[simp]
theorem Item.relabel_identity : Item.relabel identity = id := by
  funext item
  cases item <;> simp [relabel, IncludeDecl.relabel, EnumDecl.relabel, InterfaceDecl.relabel,
    ClassDecl.relabel, VarDecl.relabel]

@[simp]
theorem Program.relabel_identity : Program.relabel identity = id := by
  funext program
  simp [relabel]

end Identity

end KnightFront
