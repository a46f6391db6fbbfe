import KnightFront.Parse.Item
import KnightFront.Proofs.Relabelling.Expressions

namespace KnightFront

/-!
# Programs of relabelled tokens

Every phrase of the grammar, read from relabelled tokens, is the relabelled
phrase.  So the program of relabelled tokens is the relabelled program, and
tokens that are no program fail with the relabelled fault.
-/

variable {change : Relabelling}

@[simp]
theorem ElementTy.relabel_ty (element : ElementTy) : element.ty.relabel change = element.ty := by
  cases element <;> rfl

namespace Parser

/-- A type that was read, with its span, relabelled. -/
def relabelTyped (change : Relabelling) (found : Ty × Span) : Ty × Span :=
  (found.1.relabel change, found.2.relabel change)

theorem follows_arraySuffix (element : ElementTy) (cursor : Cursor) :
    Follows change (Ty.relabel change) (arraySuffix element) (arraySuffix element) cursor := by
  simp only [arraySuffix, follows_currentKind, follows_ite]
  split
  · simp [Ty.relabel, -bind_pure_comp]
  · simp

theorem follows_typeName (cursor : Cursor) :
    Follows change (relabelTyped change) typeName typeName cursor := by
  simp only [typeName, follows_position, follows_currentKind]
  cases kind : headKind cursor.contents with
  | intWord | stringWord =>
      simp only [follows_take]
      refine (follows_arraySuffix _ _).bind fun ty behind => ?_
      simp [relabelTyped, Span.relabel, -bind_pure_comp]
  | boolWord | voidWord | identifier =>
      simp [relabelTyped, Ty.relabel, Span.relabel, Token.relabel, kind, -bind_pure_comp]
  | _ => exact follows_misplaced_bind

/-- Looking for a declaration reads nothing and finds the same. -/
theorem follows_startsDeclaration_bind {γ δ : Type} {result : γ → δ} {next : Bool → Parser γ}
    {nextOther : Bool → Parser δ} {cursor : Cursor}
    (rest : ∀ starts, Follows change result (next starts) (nextOther starts) cursor) :
    Follows change result (startsDeclaration >>= next) (startsDeclaration >>= nextOther)
      cursor := by
  simp only [startsDeclaration, bind_assoc, follows_currentKind]
  cases headKind cursor.contents <;> simpa using rest _

theorem follows_varDecl (cursor : Cursor) :
    Follows change (VarDecl.relabel change) varDecl varDecl cursor := by
  refine (follows_typeName cursor).bind fun found behind => ?_
  simp only [relabelTyped, follows_expect, follows_currentKind, follows_ite]
  intro name
  split
  · simp only [follows_take]
    refine (follows_expr _).bind fun init further => ?_
    simp [VarDecl.relabel, Token.relabel, name, -bind_pure_comp]
  · simp [VarDecl.relabel, Token.relabel, name, -bind_pure_comp]

theorem follows_assignment (cursor : Cursor) :
    Follows change (Assignment.relabel change) assignment assignment cursor := by
  simp only [assignment, follows_position, follows_freshId, follows_expect, follows_currentKind,
    follows_ite, Cursor.contents_withNextId]
  intro name
  split
  · simp only [follows_take]
    refine (follows_expr _).bind fun index behind => ?_
    simp only [follows_expect, pure_bind]
    intro _ _
    refine (follows_expr _).bind fun value further => ?_
    simp [Assignment.relabel, StmtInfo.relabel, NameUse.relabel, Token.relabel, name, Span.relabel,
      -bind_pure_comp]
  · simp only [follows_expect, pure_bind]
    intro _
    refine (follows_expr _).bind fun value further => ?_
    simp [Assignment.relabel, StmtInfo.relabel, NameUse.relabel, Token.relabel, name, Span.relabel,
      -bind_pure_comp]

theorem follows_returnClause (cursor : Cursor) :
    Follows change (Return.relabel change) returnClause returnClause cursor := by
  simp only [returnClause, follows_expect, follows_currentKind, follows_ite]
  intro _
  split
  · simp [Return.relabel, Span.relabel, Token.relabel, -bind_pure_comp]
  · refine (follows_expr _).bind fun value behind => ?_
    simp [Return.relabel, Span.relabel, Token.relabel, -bind_pure_comp]

theorem follows_returnStmt (cursor : Cursor) :
    Follows change (Stmt.relabel change) returnStmt returnStmt cursor := by
  simp only [returnStmt, follows_freshId]
  refine (follows_returnClause _).bind fun returned behind => ?_
  simp [Stmt.relabel, StmtInfo.relabel, Return.relabel]

theorem follows_condition (cursor : Cursor) :
    Follows change (Expr.relabel change) condition condition cursor := by
  simp only [condition, follows_expect]
  intro _
  refine (follows_expr _).bind fun tested behind => ?_
  simp [-bind_pure_comp]

section Statements

variable {nested : Parser Stmt}
  (inner : ∀ cursor, Follows change (Stmt.relabel change) nested nested cursor)

include inner

theorem follows_ifStmt (cursor : Cursor) :
    Follows change (Stmt.relabel change) (ifStmt nested) (ifStmt nested) cursor := by
  simp only [ifStmt, follows_position, follows_freshId, follows_expect]
  intro _
  refine (follows_condition _).bind fun tested behind => ?_
  refine (inner behind).bind fun body further => ?_
  simp only [follows_currentKind, follows_ite]
  split
  · simp only [follows_take]
    refine (inner _).bind fun alternative last => ?_
    simp [Stmt.relabel, StmtInfo.relabel, Span.relabel, -bind_pure_comp]
  · simp [Stmt.relabel, StmtInfo.relabel, Span.relabel, -bind_pure_comp]

theorem follows_whileStmt (cursor : Cursor) :
    Follows change (Stmt.relabel change) (whileStmt nested) (whileStmt nested) cursor := by
  simp only [whileStmt, follows_position, follows_freshId, follows_expect]
  intro _
  refine (follows_condition _).bind fun tested behind => ?_
  refine (inner behind).bind fun body further => ?_
  simp [Stmt.relabel, StmtInfo.relabel, Span.relabel, -bind_pure_comp]

theorem follows_forStmt (cursor : Cursor) :
    Follows change (Stmt.relabel change) (forStmt nested) (forStmt nested) cursor := by
  simp only [forStmt, follows_position, follows_freshId, follows_expect]
  intro _ _
  refine follows_startsDeclaration_bind fun starts => ?_
  cases starts with
  | false => simp
  | true =>
      simp only [Bool.not_true, Bool.false_eq_true, if_false]
      refine (follows_varDecl _).bind fun init behind => ?_
      refine (follows_expr _).bind fun tested further => ?_
      simp only [follows_expect, follows_currentKind, follows_ite]
      intro _
      split
      · simp
      · refine (follows_assignment _).bind fun update last => ?_
        simp only [follows_expect]
        intro _
        refine (inner _).bind fun body final => ?_
        simp [Stmt.relabel, StmtInfo.relabel, Span.relabel, -bind_pure_comp]

theorem follows_bodyItem (cursor : Cursor) :
    Follows change (Stmt.relabel change) (bodyItem nested) (bodyItem nested) cursor := by
  refine follows_startsDeclaration_bind fun starts => ?_
  cases starts with
  | false => exact inner cursor
  | true =>
      simp only [if_true, follows_position, follows_freshId]
      refine (follows_varDecl _).bind fun decl behind => ?_
      simp [Stmt.relabel, StmtInfo.relabel, Span.relabel, -bind_pure_comp]

theorem follows_blockStmt (cursor : Cursor) :
    Follows change (Stmt.relabel change) (blockStmt nested) (blockStmt nested) cursor := by
  simp only [blockStmt, follows_position, follows_freshId, follows_expect]
  intro _
  refine (follows_rounds (List.map (Stmt.relabel change)) (List.map (Stmt.relabel change))
    (fun collected cursor => ?_) [] _).bind fun stmts behind => ?_
  · simp only [follows_currentKind]
    cases headKind cursor.contents with
    | closeCurly => simp [Round.relabel]
    | eof => exact follows_misplaced
    | _ =>
        refine (follows_bodyItem inner cursor).bind fun found behind => ?_
        simp [Round.relabel]
  · simp [Stmt.relabel, Stmt.relabelList_eq_map, StmtInfo.relabel, Span.relabel, -bind_pure_comp]

end Statements

theorem follows_nameStmt (cursor : Cursor) :
    Follows change (Stmt.relabel change) nameStmt nameStmt cursor := by
  simp only [nameStmt, follows_nextKind, follows_ite]
  split
  · refine (follows_assignment cursor).bind fun assigned behind => ?_
    simp [Stmt.relabel, Assignment.relabel, StmtInfo.relabel, Span.relabel, -bind_pure_comp]
  · simp only [follows_position, follows_freshId]
    refine (follows_expr _).bind fun first behind => ?_
    simp only [follows_currentKind, follows_ite, Expr.isCall_relabel]
    split
    · cases first with
      | field info receiver used =>
          simp only [Expr.relabel, follows_take]
          refine (follows_expr _).bind fun value further => ?_
          simp [Stmt.relabel, StmtInfo.relabel, Span.relabel, -bind_pure_comp]
      | _ => exact follows_misplaced
    split
    · simp [Stmt.relabel, StmtInfo.relabel, Span.relabel, -bind_pure_comp]
    · exact follows_misplaced

theorem follows_stmtLevel {nested : Parser Stmt}
    (inner : ∀ cursor, Follows change (Stmt.relabel change) nested nested cursor)
    (cursor : Cursor) :
    Follows change (Stmt.relabel change) (stmtLevel nested) (stmtLevel nested) cursor := by
  simp only [stmtLevel, follows_currentKind]
  cases headKind cursor.contents with
  | ifWord => exact follows_ifStmt inner cursor
  | whileWord => exact follows_whileStmt inner cursor
  | forWord => exact follows_forStmt inner cursor
  | retWord => exact follows_returnStmt cursor
  | openCurly => exact follows_blockStmt inner cursor
  | identifier => exact follows_nameStmt cursor
  | _ => exact follows_misplaced

theorem follows_stmt (cursor : Cursor) : Follows change (Stmt.relabel change) stmt stmt cursor :=
  follows_nesting (fun _ inner => follows_stmtLevel inner) cursor

/-! ## Functions -/

theorem follows_param (cursor : Cursor) :
    Follows change (Param.relabel change) param param cursor := by
  refine (follows_typeName cursor).bind fun found behind => ?_
  simp only [relabelTyped, follows_expect]
  intro name
  simp [Param.relabel, Token.relabel, name]

theorem follows_params (cursor : Cursor) :
    Follows change (List.map (Param.relabel change)) params params cursor := by
  simp only [params, follows_expect]
  intro _
  refine (follows_listUpTo follows_param _).bind fun found behind => ?_
  simp [-bind_pure_comp]

theorem follows_functionHead (cursor : Cursor) :
    Follows change (FunctionHead.relabel change) functionHead functionHead cursor := by
  simp only [functionHead, follows_expect]
  intro _ name
  refine (follows_params _).bind fun params behind => ?_
  simp only [follows_expect]
  intro _
  refine (follows_typeName _).bind fun found further => ?_
  simp_all [FunctionHead.relabel, relabelTyped, Token.relabel]

theorem follows_functionBody (cursor : Cursor) :
    Follows change (Prod.map (Stmt.relabelList change) (Option.map (Return.relabel change)))
      functionBody functionBody cursor := by
  refine follows_rounds (Stmt.relabelList change) _ (fun collected cursor => ?_) [] cursor
  simp only [Stmt.relabelList_eq_map, follows_currentKind]
  cases headKind cursor.contents with
  | closeCurly => simp [Round.relabel, Stmt.relabelList_eq_map]
  | eof => exact follows_misplaced
  | retWord =>
      simp only [follows_freshId]
      refine (follows_returnClause _).bind fun returned behind => ?_
      simp only [follows_currentKind, follows_ite]
      split
      · simp [Round.relabel, Stmt.relabelList_eq_map]
      · simp [Round.relabel, Stmt.relabelList_eq_map, Stmt.relabel, StmtInfo.relabel,
          Return.relabel]
  | _ =>
      refine (follows_bodyItem follows_stmt cursor).bind fun found behind => ?_
      simp [Round.relabel, Stmt.relabelList_eq_map]

theorem follows_function (cursor : Cursor) :
    Follows change (FunctionDecl.relabel change) function function cursor := by
  simp only [function, follows_freshId]
  refine (follows_functionHead _).bind fun head behind => ?_
  simp only [follows_expect]
  intro _
  refine (follows_functionBody _).bind fun found further => ?_
  simp [FunctionDecl.relabel, -bind_pure_comp]

theorem follows_inclusion (cursor : Cursor) :
    Follows change (IncludeDecl.relabel change) inclusion inclusion cursor := by
  simp only [inclusion, follows_expect]
  intro _ _ name _
  simp_all [IncludeDecl.relabel, Token.relabel, Span.relabel, -bind_pure_comp]

/-- A member of an enumeration relabelled. -/
def relabelMember (change : Relabelling) (member : String × Span) : String × Span :=
  (change.name member.1, member.2.relabel change)

theorem follows_enumMembers (cursor : Cursor) :
    Follows change (List.map (relabelMember change)) enumMembers enumMembers cursor := by
  refine follows_rounds (List.map (relabelMember change)) _ (fun collected cursor => ?_) [] cursor
  simp only [follows_currentKind, follows_ite]
  split
  · next kind =>
      simp [Round.relabel, relabelMember, Token.relabel, kind, -bind_pure_comp]
  · simp [Round.relabel]

theorem follows_enumeration (cursor : Cursor) :
    Follows change (EnumDecl.relabel change) enumeration enumeration cursor := by
  simp only [enumeration, follows_expect]
  intro _ name _
  refine (follows_enumMembers _).bind fun members behind => ?_
  simp_all [EnumDecl.relabel, relabelMember, Token.relabel, -bind_pure_comp]

theorem follows_nameUse (cursor : Cursor) :
    Follows change (NameUse.relabel change) nameUse nameUse cursor := by
  simp only [nameUse, follows_expect]
  intro name
  simp [NameUse.relabel, Token.relabel, name]

theorem follows_nameClause (keyword : TokenKind) (cursor : Cursor) :
    Follows change (List.map (NameUse.relabel change)) (nameClause keyword) (nameClause keyword)
      cursor := by
  simp only [nameClause, follows_currentKind, follows_ite]
  split
  · simp only [follows_take]
    exact follows_commaSeparated follows_nameUse _
  · simp

theorem follows_interfaceMethods (cursor : Cursor) :
    Follows change (List.map (FunctionHead.relabel change)) interfaceMethods interfaceMethods
      cursor := by
  refine follows_rounds (List.map (FunctionHead.relabel change)) _ (fun collected cursor => ?_) []
    cursor
  simp only [follows_currentKind, follows_ite]
  split
  · refine (follows_functionHead cursor).bind fun head behind => ?_
    simp [Round.relabel, -bind_pure_comp]
  · simp [Round.relabel]

theorem follows_interface (cursor : Cursor) :
    Follows change (InterfaceDecl.relabel change) interface interface cursor := by
  simp only [interface, follows_expect]
  intro _ name
  refine (follows_nameClause .extWord _).bind fun bases behind => ?_
  simp only [follows_expect]
  intro _
  refine (follows_interfaceMethods _).bind fun methods further => ?_
  simp_all [InterfaceDecl.relabel, Token.relabel, -bind_pure_comp]

theorem follows_parentClause (cursor : Cursor) :
    Follows change (Option.map (NameUse.relabel change)) parentClause parentClause cursor := by
  simp only [parentClause, follows_currentKind, follows_ite]
  split
  · simp only [follows_take]
    refine (follows_nameUse _).bind fun found behind => ?_
    simp
  · simp

/-- The members of a class relabelled. -/
def relabelMembers (change : Relabelling) :
    List VarDecl × List FunctionDecl → List VarDecl × List FunctionDecl :=
  Prod.map (List.map (VarDecl.relabel change)) (List.map (FunctionDecl.relabel change))

theorem follows_classMembers (cursor : Cursor) :
    Follows change (relabelMembers change) classMembers classMembers cursor := by
  refine follows_rounds (relabelMembers change) _ (fun collected cursor => ?_) ([], []) cursor
  obtain ⟨fields, methods⟩ := collected
  simp only [relabelMembers, Prod.map_apply, follows_currentKind]
  have decided : Follows change (Round.relabel (relabelMembers change) (relabelMembers change))
      (do
        if ← startsDeclaration then return .again ((← varDecl) :: fields, methods)
        else misplaced "expected a field or method declaration")
      (do
        if ← startsDeclaration then
          return .again ((← varDecl) :: fields.map (VarDecl.relabel change),
            methods.map (FunctionDecl.relabel change))
        else misplaced "expected a field or method declaration") cursor := by
    refine follows_startsDeclaration_bind fun starts => ?_
    cases starts with
    | false => exact follows_misplaced
    | true =>
        refine (follows_varDecl cursor).bind fun found behind => ?_
        simp [Round.relabel, relabelMembers]
  cases headKind cursor.contents with
  | closeCurly => simp [Round.relabel]
  | fnWord =>
      refine (follows_function cursor).bind fun found behind => ?_
      simp [Round.relabel]
  | _ => exact decided

theorem follows_classDecl (cursor : Cursor) :
    Follows change (ClassDecl.relabel change) classDecl classDecl cursor := by
  simp only [classDecl, follows_expect]
  intro _ name
  refine (follows_parentClause _).bind fun parent behind => ?_
  refine (follows_nameClause .useWord _).bind fun uses further => ?_
  simp only [follows_expect]
  intro _
  refine (follows_classMembers _).bind fun found last => ?_
  simp_all [ClassDecl.relabel, relabelMembers, Token.relabel, -bind_pure_comp]

theorem follows_item (cursor : Cursor) :
    Follows change (Item.relabel change) item item cursor := by
  have wrapped {α : Type} {parser : Parser α} {relabel : α → α} {wrap : α → Item}
      (read : Follows change relabel parser parser cursor)
      (same : ∀ value, wrap (relabel value) = (wrap value).relabel change) :
      Follows change (Item.relabel change) (do return wrap (← parser)) (do return wrap (← parser))
        cursor :=
    read.bind fun value _ => follows_pure.mpr (same value)
  have decided : Follows change (Item.relabel change)
      (do
        if ← startsDeclaration then return .globalVariable (← varDecl)
        else misplaced "expected a declaration")
      (do
        if ← startsDeclaration then return .globalVariable (← varDecl)
        else misplaced "expected a declaration") cursor := by
    refine follows_startsDeclaration_bind fun starts => ?_
    cases starts with
    | false => exact follows_misplaced
    | true => exact wrapped (follows_varDecl cursor) fun _ => rfl
  simp only [item, follows_currentKind]
  cases headKind cursor.contents with
  | includeWord => exact wrapped (follows_inclusion cursor) fun _ => rfl
  | enumWord => exact wrapped (follows_enumeration cursor) fun _ => rfl
  | interfaceWord => exact wrapped (follows_interface cursor) fun _ => rfl
  | classWord => exact wrapped (follows_classDecl cursor) fun _ => rfl
  | fnWord => exact wrapped (follows_function cursor) fun _ => rfl
  | _ => exact decided

theorem follows_items (cursor : Cursor) :
    Follows change (List.map (Item.relabel change)) items items cursor := by
  refine follows_rounds (List.map (Item.relabel change)) _ (fun collected cursor => ?_) [] cursor
  simp only [follows_currentKind, follows_ite]
  split
  · simp [Round.relabel]
  · refine (follows_item cursor).bind fun found behind => ?_
    simp [Round.relabel]

end Parser

/-- The program of relabelled tokens is the relabelled program, and where there
is none the failure is relabelled. -/
theorem Program.ofTokens_relabel (file : String) {tokens : List Token} {final : Token}
    (last : tokens.getLast? = some final) (closed : final.kind = .eof)
    (agrees : ∀ first ∈ tokens.head?,
      change.finish first.span.start = change.start first.span.start) :
    ofTokens file (tokens.map (Token.relabel change)) =
      ((ofTokens file tokens).map (Program.relabel change)).mapError
        (ParseFailure.relabel change) := by
  have read : Parser.Follows change _ _ _ _ := Parser.follows_items (.ofTokens tokens)
  rw [Parser.Follows, ← Cursor.ofTokens_relabel last closed agrees] at read
  simp only [ofTokens, read]
  cases Parser.items (.ofTokens tokens) <;> rfl

end KnightFront
