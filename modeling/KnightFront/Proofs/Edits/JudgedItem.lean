import KnightFront.Proofs.Edits.JudgedStmt

namespace KnightFront

/-!
# Declarations through two passes

The findings of both passes about a function, a class or a file are those about
their parts, each in the scopes that the parts before it leave.
-/

open Analysis Resolution Typing

variable {place : NamePlace} {scopes : List Scope} {model : SymbolModel} (kind : Finding → Bool)

namespace Analysis

/-- The findings of a kind about a function in the second and third pass. -/
def functionTally (place : NamePlace) (scopes : List Scope) (decl : FunctionDecl) : Nat :=
  (resolveFunction place scopes decl).tally kind +
    (checkFunction place.model (resolveFunction place scopes decl).value.1).tally kind

/-- The findings of a kind about the return that closes a function, or about its
absence. -/
def closingTally (place : NamePlace) (scopes : List Scope) (head : FunctionHead) :
    Option Return → Nat
  | none => (Reported.reportIf (differs .void head.returnTy) head.span.start
      (.missingReturn head.name head.returnTy)).tally kind
  | some returned => returnTally kind place scopes head returned

theorem functionTally_eq {decl : FunctionDecl} :
    functionTally kind place scopes decl =
      let entry := enterFunction scopes decl.head.params
      let inner := bodyPlace place entry
      (checkHead place decl.head).tally kind +
        stmtsTally kind inner decl.head entry.state decl.body +
          closingTally kind inner (resolveStmts inner entry.state decl.body).value.2.scopes
            decl.head decl.closing := by
  cases closing : decl.closing with
  | none =>
      simp [functionTally, resolveFunction, checkFunction, stmtsTally, closingTally, closing,
        typingPlace, bodyPlace]
      omega
  | some returned =>
      simp [functionTally, resolveFunction, checkFunction, stmtsTally, closingTally, closing,
        returnTally, typingPlace, bodyPlace]
      omega

/-- The findings of a kind about methods. -/
def methodsTally (place : NamePlace) (scopes : List Scope) (methods : List FunctionDecl) : Nat :=
  (resolveMethods place scopes methods).tally kind +
    ((resolveMethods place scopes methods).value.1.mapM (checkFunction place.model)).tally kind

/-- Methods behind another one are met in the scopes that it leaves. -/
theorem methodsTally_cons {first : FunctionDecl} {rest : List FunctionDecl} :
    methodsTally kind place scopes (first :: rest) =
      functionTally kind place scopes first +
        methodsTally kind place (resolveFunction place scopes first).value.2 rest := by
  simp [methodsTally, functionTally, resolveMethods, List.mapM_cons]
  omega

theorem resolveMethods_eq_handOn {methods : List FunctionDecl} :
    resolveMethods place scopes methods =
      Reported.handOn (resolveFunction place) scopes methods := by
  induction methods generalizing scopes with
  | nil => rfl
  | cons first rest inductionHypothesis =>
      simp only [resolveMethods, Reported.handOn, inductionHypothesis]

/-- A method is resolved with the scopes that those in front of it leave. -/
theorem methodsTally_append_cons {front back : List FunctionDecl} {method : FunctionDecl} :
    methodsTally kind place scopes (front ++ method :: back) =
      let before := (resolveMethods place scopes front).value.2
      methodsTally kind place scopes front + functionTally kind place before method +
        methodsTally kind place (resolveFunction place before method).value.2 back := by
  simp only [methodsTally, resolveMethods_eq_handOn]
  exact Reported.handOnTally_append_cons

/-- The findings of a kind about a class. -/
def classTally (model : SymbolModel) (scopes : List Scope) (decl : ClassDecl) : Nat :=
  (resolveClass model scopes decl).tally kind +
    (checkClass model (resolveClass model scopes decl).value.1).tally kind

/-- The findings of a kind about what a class inherits, and about how it keeps its
interfaces. -/
def heritageTally (model : SymbolModel) (decl : ClassDecl) : Nat :=
  let uses := decl.uses.mapM (bindInterface { model, className := some decl.name })
  (decl.parent.mapM (bindParent { model, className := some decl.name })).tally kind +
    uses.tally kind +
      (Reported.mk () (conformanceFindings model { decl with uses := uses.value })).tally kind

theorem classTally_eq {decl : ClassDecl} :
    classTally kind model scopes decl =
      heritageTally kind model decl +
        (decl.fields.map (declTally kind { model, className := some decl.name } scopes)).sum +
          methodsTally kind { model, className := some decl.name } scopes decl.methods := by
  have fields := Reported.tally_mapM_add_mapM kind
    (resolveDecl { model, className := some decl.name } scopes) (checkDecl model) decl.fields
  have parts : declTally kind { model, className := some decl.name } scopes = fun field =>
      (resolveDecl { model, className := some decl.name } scopes field).tally kind +
        (checkDecl model
          (resolveDecl { model, className := some decl.name } scopes field).value).tally kind := rfl
  have conformance : conformanceFindings model (resolveClass model scopes decl).value.1 =
      conformanceFindings model { decl with
        uses := (decl.uses.mapM (bindInterface { model, className := some decl.name })).value } :=
    rfl
  simp only [classTally, checkClass, Reported.tally_bind, Reported.tally_pure]
  rw [conformance, parts, ← fields]
  simp only [resolveClass, Reported.tally_bind, Reported.value_bind, Reported.value_pure,
    Reported.tally_pure, heritageTally, methodsTally]
  omega

/-- The findings of a kind about a declaration at the top level. -/
def itemTally (model : SymbolModel) (scopes : List Scope) (item : Item) : Nat :=
  (resolveItem model scopes item).tally kind +
    (checkItem model (resolveItem model scopes item).value.1).tally kind

theorem itemTally_interface {decl : InterfaceDecl} :
    itemTally kind model scopes (.interface decl) =
      (resolveInterface { model } decl).tally kind := by
  simp [itemTally, resolveItem, checkItem]

theorem itemTally_classDecl {decl : ClassDecl} :
    itemTally kind model scopes (.classDecl decl) = classTally kind model scopes decl := by
  simp [itemTally, classTally, resolveItem, checkItem]

theorem itemTally_function {decl : FunctionDecl} :
    itemTally kind model scopes (.function decl) = functionTally kind { model } scopes decl := by
  simp [itemTally, functionTally, resolveItem, checkItem]

theorem itemTally_globalVariable {decl : VarDecl} :
    itemTally kind model scopes (.globalVariable decl) = declTally kind { model } scopes decl := by
  simp [itemTally, declTally, resolveItem, checkItem]

/-- The findings of a kind about declarations at the top level. -/
def itemsTally (model : SymbolModel) (scopes : List Scope) (items : List Item) : Nat :=
  (resolveItems model scopes items).tally kind +
    ((resolveItems model scopes items).value.1.mapM (checkItem model)).tally kind

/-- Declarations behind another one are met in the scopes that it leaves. -/
theorem itemsTally_cons {first : Item} {rest : List Item} :
    itemsTally kind model scopes (first :: rest) =
      itemTally kind model scopes first +
        itemsTally kind model (resolveItem model scopes first).value.2 rest := by
  simp [itemsTally, itemTally, resolveItems, List.mapM_cons]
  omega

theorem resolveItems_eq_handOn {items : List Item} :
    resolveItems model scopes items = Reported.handOn (resolveItem model) scopes items := by
  induction items generalizing scopes with
  | nil => rfl
  | cons first rest inductionHypothesis =>
      simp only [resolveItems, Reported.handOn, inductionHypothesis]

/-- A declaration is resolved with the scopes that those in front of it
leave. -/
theorem itemsTally_append_cons {front back : List Item} {item : Item} :
    itemsTally kind model scopes (front ++ item :: back) =
      let before := (resolveItems model scopes front).value.2
      itemsTally kind model scopes front + itemTally kind model before item +
        itemsTally kind model (resolveItem model before item).value.2 back := by
  simp only [itemsTally, resolveItems_eq_handOn]
  exact Reported.handOnTally_append_cons

/-- The findings of a kind about a file. -/
def programTally (model : SymbolModel) (program : Program) : Nat :=
  (program.resolve model).tally kind + ((program.resolve model).value.check model).tally kind

theorem programTally_eq {program : Program} :
    programTally kind model program = itemsTally kind model program.scopes program.items := by
  simp [programTally, itemsTally, Program.resolve, Program.check]

end Analysis

end KnightFront
