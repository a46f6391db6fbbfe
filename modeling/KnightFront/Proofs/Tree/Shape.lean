import KnightFront.Proofs.Tree.Traversal

namespace KnightFront

/-!
# The shape of a tree

Two trees have the same shape when they differ in spans, identities, types,
bindings and scopes at most.  The shape is itself a tree, with that room left
empty, so equality of shapes is equality.

Statements and declarations treat the expressions in them alike.  Their shape
is therefore defined over a function on expressions; other rewritings of the
expressions of a program use the same definitions.
-/

/-- The use of a name without its place and binding. -/
def NameUse.bare (used : NameUse) : NameUse := { text := used.text, span := .nowhere }

theorem NameUse.bare_eq_iff {first second : NameUse} :
    first.bare = second.bare ↔ first.text = second.text := by
  simp [bare]

/-- The information of an expression node without identity, place and type. -/
def ExprInfo.bare : ExprInfo := { id := 0, span := .nowhere }

/-- The information of a statement without identity and place. -/
def StmtInfo.bare : StmtInfo := { id := 0, span := .nowhere }

namespace Expr

mutual

/-- The shape of an expression. -/
def bare : Expr → Expr
  | int _ value => .int .bare value
  | string _ value => .string .bare value
  | bool _ value => .bool .bare value
  | name _ used => .name .bare used.bare
  | binary _ op left right => .binary .bare op (bare left) (bare right)
  | call _ callee args => .call .bare callee.bare (bareList args)
  | methodCall _ receiver callee args =>
      .methodCall .bare (bare receiver) callee.bare (bareList args)
  | field _ receiver used => .field .bare (bare receiver) used.bare
  | newInstance _ className => .newInstance .bare className.bare
  | newArray _ element length => .newArray .bare element (bare length)
  | index _ base position => .index .bare (bare base) (bare position)
  | array _ items => .array .bare (bareList items)

/-- The shapes of several expressions. -/
def bareList : List Expr → List Expr
  | [] => []
  | first :: rest => bare first :: bareList rest

end

theorem bareList_eq_map (exprs : List Expr) : bareList exprs = exprs.map bare := by
  induction exprs with
  | nil => rfl
  | cons first rest inductionHypothesis => simp [bareList, inductionHypothesis]

end Expr

/-- A declaration without places, with its initial value rewritten. -/
def VarDecl.bareWith (rewrite : Expr → Expr) (decl : VarDecl) : VarDecl :=
  { decl with tySpan := .nowhere, nameSpan := .nowhere, init := decl.init.map rewrite }

/-- An assignment without places, with its expressions rewritten. -/
def Assignment.bareWith (rewrite : Expr → Expr) (assignment : Assignment) : Assignment where
  info := .bare
  target := assignment.target.bare
  index := assignment.index.map rewrite
  value := rewrite assignment.value

/-- A return without its place, with its value rewritten. -/
def Return.bareWith (rewrite : Expr → Expr) (returned : Return) : Return where
  value := returned.value.map rewrite
  span := .nowhere

namespace Stmt

mutual

/-- A statement without places and scopes, with its expressions rewritten. -/
def bareWith (rewrite : Expr → Expr) : Stmt → Stmt
  | varDecl _ decl => .varDecl .bare (decl.bareWith rewrite)
  | assign assignment => .assign (assignment.bareWith rewrite)
  | fieldAssign _ receiver used value =>
      .fieldAssign .bare (rewrite receiver) used.bare (rewrite value)
  | call _ expr => .call .bare (rewrite expr)
  | ifThen _ condition body => .ifThen .bare (rewrite condition) (bareWith rewrite body)
  | ifElse _ condition body alternative =>
      .ifElse .bare (rewrite condition) (bareWith rewrite body) (bareWith rewrite alternative)
  | whileLoop _ condition body => .whileLoop .bare (rewrite condition) (bareWith rewrite body)
  | forLoop _ init condition update body _ =>
      .forLoop .bare (init.bareWith rewrite) (rewrite condition) (update.bareWith rewrite)
        (bareWith rewrite body) none
  | ret _ returned => .ret .bare (returned.bareWith rewrite)
  | block _ stmts _ => .block .bare (bareListWith rewrite stmts) none

/-- Statements without places and scopes, with their expressions rewritten. -/
def bareListWith (rewrite : Expr → Expr) : List Stmt → List Stmt
  | [] => []
  | first :: rest => bareWith rewrite first :: bareListWith rewrite rest

end

theorem bareListWith_append (rewrite : Expr → Expr) (first second : List Stmt) :
    bareListWith rewrite (first ++ second) =
      bareListWith rewrite first ++ bareListWith rewrite second := by
  induction first with
  | nil => rfl
  | cons head tail inductionHypothesis => simp [bareListWith, inductionHypothesis]

end Stmt

/-- A parameter without places. -/
def Param.bare (param : Param) : Param :=
  { param with tySpan := .nowhere, span := .nowhere }

/-- A head without places. -/
def FunctionHead.bare (head : FunctionHead) : FunctionHead :=
  { head with params := head.params.map Param.bare, returnTySpan := .nowhere, span := .nowhere }

/-- A function without places and scopes, with its expressions rewritten. -/
def FunctionDecl.bareWith (rewrite : Expr → Expr) (decl : FunctionDecl) : FunctionDecl where
  id := 0
  head := decl.head.bare
  body := Stmt.bareListWith rewrite decl.body
  closing := decl.closing.map (Return.bareWith rewrite)

/-- A class without places, with its expressions rewritten. -/
def ClassDecl.bareWith (rewrite : Expr → Expr) (decl : ClassDecl) : ClassDecl where
  name := decl.name
  parent := decl.parent.map NameUse.bare
  uses := decl.uses.map NameUse.bare
  fields := decl.fields.map (VarDecl.bareWith rewrite)
  methods := decl.methods.map (FunctionDecl.bareWith rewrite)
  span := .nowhere

namespace Item

/-- A declaration without places, with its expressions rewritten. -/
def bareWith (rewrite : Expr → Expr) : Item → Item
  | inclusion decl => .inclusion { decl with span := .nowhere }
  | enumeration decl =>
      .enumeration
        { decl with
          members := decl.members.map fun member => (member.1, .nowhere)
          span := .nowhere }
  | interface decl =>
      .interface
        { decl with
          bases := decl.bases.map NameUse.bare
          methods := decl.methods.map FunctionHead.bare
          span := .nowhere }
  | classDecl decl => .classDecl (decl.bareWith rewrite)
  | function decl => .function (decl.bareWith rewrite)
  | globalVariable decl => .globalVariable (decl.bareWith rewrite)

/-- The shape of a declaration. -/
def bare (item : Item) : Item := item.bareWith Expr.bare

end Item

/-- Whether two files declare the same in the same order, up to the spans, identities
and annotations of their trees. -/
def Program.SameShape (first second : Program) : Prop :=
  first.items.map Item.bare = second.items.map Item.bare

section Congruence

variable {first second : Expr → Expr}

theorem VarDecl.bareWith_eq_iff (decl : VarDecl) :
    decl.bareWith first = decl.bareWith second ↔ ∀ expr ∈ decl.exprs, first expr = second expr := by
  cases held : decl.init <;> simp [bareWith, exprs, held]

theorem Assignment.bareWith_eq_iff (assignment : Assignment) :
    assignment.bareWith first = assignment.bareWith second ↔
      ∀ expr ∈ assignment.exprs, first expr = second expr := by
  cases held : assignment.index <;> simp [bareWith, exprs, held]

theorem Return.bareWith_eq_iff (returned : Return) :
    returned.bareWith first = returned.bareWith second ↔
      ∀ expr ∈ returned.exprs, first expr = second expr := by
  cases held : returned.value <;> simp [bareWith, exprs, held]

namespace Stmt

mutual

/-- Rewriting a statement in two ways gives the same exactly when its
expressions are rewritten to the same. -/
theorem bareWith_eq_iff : (stmt : Stmt) →
    (stmt.bareWith first = stmt.bareWith second ↔ ∀ expr ∈ stmt.exprs, first expr = second expr)
  | varDecl _ decl => by simp [bareWith, exprs, decl.bareWith_eq_iff]
  | assign assignment => by simp [bareWith, exprs, assignment.bareWith_eq_iff]
  | fieldAssign .. => by simp [bareWith, exprs]
  | call .. => by simp [bareWith, exprs]
  | ifThen _ _ body => by simp [bareWith, exprs, bareWith_eq_iff body]
  | ifElse _ _ body alternative => by
      simp [bareWith, exprs, bareWith_eq_iff body, bareWith_eq_iff alternative, or_imp, forall_and]
  | whileLoop _ _ body => by simp [bareWith, exprs, bareWith_eq_iff body]
  | forLoop _ init _ update body _ => by
      simp [bareWith, exprs, bareWith_eq_iff body, init.bareWith_eq_iff, update.bareWith_eq_iff,
        or_imp, forall_and]
  | ret _ returned => by simp [bareWith, exprs, returned.bareWith_eq_iff]
  | block _ stmts _ => by simp [bareWith, exprs, bareListWith_eq_iff stmts]

theorem bareListWith_eq_iff : (stmts : List Stmt) →
    (bareListWith first stmts = bareListWith second stmts ↔
      ∀ expr ∈ exprsOfList stmts, first expr = second expr)
  | [] => by simp [bareListWith, exprsOfList]
  | head :: tail => by
      simp [bareListWith, exprsOfList, bareWith_eq_iff head, bareListWith_eq_iff tail, or_imp,
        forall_and]

end

end Stmt

theorem FunctionDecl.bareWith_eq_iff (decl : FunctionDecl) :
    decl.bareWith first = decl.bareWith second ↔
      ∀ expr ∈ decl.exprs, first expr = second expr := by
  cases held : decl.closing with
  | none => simp [bareWith, exprs, held, Stmt.bareListWith_eq_iff]
  | some returned =>
      simp [bareWith, exprs, held, Stmt.bareListWith_eq_iff, returned.bareWith_eq_iff, or_imp,
        forall_and]

theorem ClassDecl.bareWith_eq_iff (decl : ClassDecl) :
    decl.bareWith first = decl.bareWith second ↔
      ∀ expr ∈ decl.exprs, first expr = second expr := by
  simp only [bareWith, exprs, ClassDecl.mk.injEq, List.map_inj_left, List.mem_append,
    List.mem_flatMap, VarDecl.bareWith_eq_iff, FunctionDecl.bareWith_eq_iff, true_and, and_true]
  constructor
  · rintro ⟨fields, methods⟩ expr (⟨field, member, held⟩ | ⟨method, member, held⟩)
    · exact fields field member expr held
    · exact methods method member expr held
  · intro agree
    exact ⟨fun field member expr held => agree expr (.inl ⟨field, member, held⟩),
      fun method member expr held => agree expr (.inr ⟨method, member, held⟩)⟩

theorem Item.bareWith_eq_iff (item : Item) :
    item.bareWith first = item.bareWith second ↔
      ∀ expr ∈ item.exprs, first expr = second expr := by
  cases item with
  | classDecl decl => simp [bareWith, exprs, decl.bareWith_eq_iff]
  | function decl => simp [bareWith, exprs, decl.bareWith_eq_iff]
  | globalVariable decl => simp [bareWith, exprs, decl.bareWith_eq_iff]
  | _ => simp [bareWith, exprs]

/-- Rewriting a file in two ways gives the same exactly when its expressions
are rewritten to the same. -/
theorem Program.map_bareWith_eq_iff (first second : Expr → Expr) (program : Program) :
    program.items.map (Item.bareWith first) = program.items.map (Item.bareWith second) ↔
      ∀ expr ∈ program.exprs, first expr = second expr := by
  simp only [List.map_inj_left, exprs, List.mem_flatMap, Item.bareWith_eq_iff]
  constructor
  · rintro agree expr ⟨item, member, held⟩
    exact agree item member expr held
  · intro agree item member expr held
    exact agree expr ⟨item, member, held⟩

end Congruence

end KnightFront
