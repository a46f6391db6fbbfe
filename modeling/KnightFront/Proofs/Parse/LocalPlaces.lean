import KnightFront.Proofs.Parse.Compositional
import KnightFront.Proofs.Parse.Rules
import KnightFront.Proofs.Token.Places
import KnightFront.Proofs.Tree.Traversal

namespace KnightFront

/-!
# Where locals are declared

The names of parameters and locals in a function that has been read stand one
behind the other in the text, so no two of them stand at the same place.  A
reader is said to gather places: from the places of names that have been read it
makes those of what it returns, in front of those that lie ahead.  As it reads
from front to back, the order of the places stays.
-/

/-- The places of the tokens ahead of a cursor. -/
def Cursor.places (cursor : Cursor) : List Position :=
  cursor.stream.ahead.map fun token => token.span.start

namespace Cursor

theorem places_advance (cursor : Cursor) : cursor.advance.places = cursor.places.tail := by
  simp [places, advance, TokenStream.tail]

/-- A token other than the end of input lies ahead. -/
theorem places_eq (cursor : Cursor) (more : headKind cursor.contents ≠ .eof) :
    cursor.places = cursor.current.span.start :: cursor.advance.places := by
  cases ahead : cursor.stream.ahead with
  | nil => simp [contents, ahead] at more
  | cons first rest => simp [places, advance, current, TokenStream.current, TokenStream.tail, ahead]

end Cursor

namespace Parser

variable {α β : Type} {front : List Position}

/-- From places in front of those ahead, a parser leaves the places of its value
in front of those that are still ahead. -/
def Gathers (front : List Position) (parser : Parser α) (places : α → List Position) : Prop :=
  ∀ cursor, Ensures parser cursor fun value behind =>
    (places value ++ behind.places).Sublist (front ++ cursor.places)

/-- A parser whose value has no places of its own. -/
def Passes (parser : Parser α) : Prop := ∀ front, Gathers front parser fun _ => front

namespace Gathers

variable {places : α → List Position}

theorem bind {middle : α → List Position} {parser : Parser α} {next : α → Parser β}
    {places : β → List Position} (first : Gathers front parser middle)
    (second : ∀ value, Gathers (middle value) (next value) places) :
    Gathers front (parser >>= next) places := by
  intro start
  rw [ensures_bind]
  refine (first start).mono fun value between early => ?_
  exact (second value between).mono fun result behind late => late.trans early

/-- Places in front of all stay in front. -/
theorem frame {parser : Parser α} (gathers : Gathers [] parser places) (front : List Position) :
    Gathers front parser fun value => front ++ places value := by
  intro cursor
  refine (gathers cursor).mono fun value behind order => ?_
  rw [List.append_assoc]
  exact order.append_left front

theorem pure {value : α} (among : (places value).Sublist front) :
    Gathers front (Pure.pure value) places :=
  fun _ => ensures_pure.mpr (among.append_right _)

theorem misplaced (requirement : String) :
    Gathers front (misplaced requirement : Parser α) places :=
  fun _ => ensures_misplaced.mpr trivial

theorem misplaced_bind (requirement : String) (next : α → Parser β) {places : β → List Position} :
    Gathers front (Parser.misplaced requirement >>= next) places :=
  fun _ => ensures_bind.mpr (ensures_misplaced.mpr trivial)

theorem faulty (cause : SyntaxFault.Cause) (position : Position) :
    Gathers front (faulty cause position : Parser α) places :=
  fun _ => ensures_faulty.mpr trivial

theorem defective (defect : ParserDefect) : Gathers front (defective defect : Parser α) places :=
  fun _ => ensures_defective.mpr trivial

/-- The place of a token that has been read can be kept. -/
theorem expect_place {kind : TokenKind} (more : kind ≠ .eof) :
    Gathers front (expect kind) fun token => front ++ [token.span.start] := by
  intro cursor
  rw [ensures_expect]
  intro found
  rw [cursor.places_eq (found ▸ more), List.append_assoc]
  exact List.Sublist.refl _

/-- A repetition gathers what each of its rounds gathers. -/
theorem rounds {σ : Type} {round : σ → Parser (Round σ α)} (held : σ → List Position)
    (step : ∀ state, Gathers (held state) (round state) fun
      | .done result => places result
      | .again next => held next)
    (state : σ) : Gathers (held state) (rounds round state) places := by
  intro cursor
  refine ensures_rounds (fun next inner =>
      (held next ++ inner.places).Sublist (held state ++ cursor.places))
    (fun next inner order => ?_) (List.Sublist.refl _)
  refine (step next inner).mono fun outcome behind late => ?_
  cases outcome with
  | done result => exact late.trans order
  | again further => exact late.trans order

/-- A nested phrase gathers what its level does with such a reader for the
phrases inside it. -/
theorem nesting {level : Parser α → Parser α}
    (step : ∀ nested, Gathers [] nested places → Gathers [] (level nested) places) :
    Gathers [] (nesting level) places := by
  intro cursor
  exact ensures_nesting (fun _ => True)
    (fun start value behind => (places value ++ behind.places).Sublist ([] ++ start.places))
    (fun nested inside inner _ => step nested (fun start => inside start trivial) inner) cursor
    trivial

end Gathers

namespace Passes

/-- A parser that drops what it has read. -/
theorem of_gathers {parser : Parser α} {places : α → List Position}
    (gathers : Gathers [] parser places) : Passes parser := by
  intro front cursor
  refine (gathers.frame front cursor).mono fun value behind order => ?_
  exact ((List.sublist_append_left front _).append_right _).trans order

theorem bind {parser : Parser α} {next : α → Parser β} (first : Passes parser)
    (second : ∀ value, Passes (next value)) : Passes (parser >>= next) :=
  fun front => (first front).bind fun value => second value front

theorem pure (value : α) : Passes (Pure.pure value) := fun _ => .pure (List.Sublist.refl _)

theorem misplaced (requirement : String) : Passes (misplaced requirement : Parser α) :=
  fun _ => .misplaced requirement

theorem faulty (cause : SyntaxFault.Cause) (position : Position) :
    Passes (faulty cause position : Parser α) :=
  fun _ => .faulty cause position

theorem defective (defect : ParserDefect) : Passes (defective defect : Parser α) :=
  fun _ => .defective defect

theorem currentKind : Passes currentKind :=
  fun _ _ => ensures_currentKind.mpr (List.Sublist.refl _)

theorem nextKind : Passes Parser.nextKind :=
  fun _ _ => ensures_nextKind.mpr (List.Sublist.refl _)

theorem position : Passes position :=
  fun _ _ => ensures_position.mpr (List.Sublist.refl _)

theorem spanFrom (start : Position) : Passes (spanFrom start) :=
  fun _ _ => ensures_spanFrom.mpr (List.Sublist.refl _)

theorem freshId : Passes freshId :=
  fun _ _ => ensures_freshId.mpr (List.Sublist.refl _)

theorem take : Passes take := by
  intro front cursor
  rw [ensures_take, Cursor.places_advance]
  exact (List.tail_sublist _).append_left front

theorem expect (kind : TokenKind) : Passes (expect kind) := by
  intro front cursor
  rw [ensures_expect, Cursor.places_advance]
  exact fun _ => (List.tail_sublist _).append_left front

theorem expectOr (kind : TokenKind) (requirement : String) :
    Passes (expectOr kind requirement) := by
  intro front cursor
  rw [ensures_expectOr, Cursor.places_advance]
  exact fun _ => (List.tail_sublist _).append_left front

theorem rounds {σ : Type} {round : σ → Parser (Round σ α)} (step : ∀ state, Passes (round state))
    (state : σ) : Passes (rounds round state) := by
  intro front
  refine Gathers.rounds (fun _ => front) (fun state cursor => ?_) state
  refine (step state front cursor).mono fun outcome behind order => ?_
  cases outcome <;> exact order

theorem nesting {level : Parser α → Parser α}
    (step : ∀ nested, Passes nested → Passes (level nested)) : Passes (nesting level) :=
  of_gathers (Gathers.nesting fun nested inside => step nested (of_gathers inside) [])

end Passes

/-- A reader that passes places on is made of steps that do. -/
theorem compositional_passes : Compositional Passes where
  pure := Passes.pure
  bind := Passes.bind
  rounds := Passes.rounds
  currentKind := Passes.currentKind
  nextKind := Passes.nextKind
  position := Passes.position
  take := Passes.take
  expect := Passes.expect
  spanFrom := Passes.spanFrom
  misplaced := Passes.misplaced

end Parser

/-! ## Stacks -/

namespace ExprStacks

open KnightFront.Parser (Passes)

theorem passes_apply (top : StackedOperator) (operands : List Expr) :
    Passes (apply top operands) := by
  unfold apply
  split
  · exact Passes.freshId.bind fun id => .pure _
  · split
    · exact .pure _
    · exact .pure _
    · exact .defective _
  · exact Passes.freshId.bind fun id => .pure _
  · split
    · exact .pure _
    · exact .defective _
  · exact .defective _

theorem passes_reduce (state : ExprStacks) (least : Priority) : Passes (state.reduce least) := by
  rcases state with ⟨operators, operands⟩
  induction operators generalizing operands with
  | nil => exact .pure _
  | cons top below inductionHypothesis =>
      simp only [reduce, reduceList]
      split
      · exact (passes_apply top operands).bind inductionHypothesis
      · exact .pure _

theorem passes_pushOperator (state : ExprStacks) (operator : StackedOperator) :
    Passes (state.pushOperator operator) := by
  refine (passes_reduce state operator.priority).bind fun reduced => ?_
  exact .pure _

theorem passes_result (state : ExprStacks) : Passes state.result := by
  refine (passes_reduce state _).bind fun reduced => ?_
  split
  · exact .pure _
  · exact .defective _

end ExprStacks

namespace Parser

section Expressions

variable {nested : Parser Expr}

theorem Passes.arguments (passes : Passes nested) : Passes (arguments nested) := by
  refine (Passes.expect .openParen).bind fun opening => ?_
  refine (compositional_passes.listUpTo .closeParen passes).bind fun args => ?_
  exact (Passes.expect .closeParen).bind fun closing => .pure _

theorem Passes.nameOrCall (passes : Passes nested) (id : NodeId) (token : Token) :
    Passes (nameOrCall nested id token) := by
  refine currentKind.bind fun kind => ?_
  split
  · refine passes.arguments.bind fun args => ?_
    exact (Passes.spanFrom token.span.start).bind fun span => .pure _
  · exact .pure _

theorem Passes.member (passes : Passes nested) : Passes (member nested) := by
  refine freshId.bind fun id => ?_
  refine (Passes.expectOr .identifier _).bind fun token => ?_
  exact passes.nameOrCall id token

theorem passes_numberLiteral (id : NodeId) : Passes (numberLiteral id) := by
  refine Passes.take.bind fun token => ?_
  split
  · exact .pure _
  · exact .faulty _ _

theorem Passes.arrayLiteral (passes : Passes nested) (id : NodeId) :
    Passes (arrayLiteral nested id) := by
  refine position.bind fun start => ?_
  refine take.bind fun bracket => ?_
  refine (compositional_passes.listUpTo .closeBracket passes).bind fun items => ?_
  refine (Passes.expect .closeBracket).bind fun close => ?_
  exact (Passes.spanFrom start).bind fun span => .pure _

theorem Passes.arrayInstance (passes : Passes nested) (id : NodeId) (start : Position)
    (element : ElementTy) : Passes (arrayInstance nested id start element) := by
  refine take.bind fun word => ?_
  refine (Passes.expect .openBracket).bind fun bracket => ?_
  refine passes.bind fun length => ?_
  refine (Passes.expect .closeBracket).bind fun close => ?_
  exact (Passes.spanFrom start).bind fun span => .pure _

theorem Passes.creation (passes : Passes nested) (id : NodeId) (state : ExprStacks) :
    Passes (creation nested id state) := by
  refine (Passes.expect .newWord).bind fun keyword => ?_
  refine currentKind.bind fun kind => ?_
  split
  · refine take.bind fun className => ?_
    refine (Passes.expect .openParen).bind fun opening => ?_
    refine (Passes.expect .closeParen).bind fun closing => ?_
    refine (Passes.spanFrom className.span.start).bind fun span => ?_
    exact (state.passes_pushOperator _).bind fun pushed => .pure _
  · exact (passes.arrayInstance id keyword.span.start .int).bind fun value => .pure _
  · exact (passes.arrayInstance id keyword.span.start .string).bind fun value => .pure _
  · exact .misplaced _

theorem Passes.operand (passes : Passes nested) (state : ExprStacks) :
    Passes (operand nested state) := by
  refine freshId.bind fun id => ?_
  refine currentKind.bind fun kind => ?_
  split
  · exact (passes_numberLiteral id).bind fun value => .pure _
  · exact take.bind fun token => .pure _
  · exact take.bind fun token => .pure _
  · exact take.bind fun token => .pure _
  · exact take.bind fun token => (passes.nameOrCall id token).bind fun value => .pure _
  · refine take.bind fun opening => ?_
    refine passes.bind fun inner => ?_
    exact (Passes.expect .closeParen).bind fun closing => .pure _
  · exact (passes.arrayLiteral id).bind fun value => .pure _
  · exact passes.creation id state
  · exact .misplaced _

theorem Passes.operatorRound (passes : Passes nested) (state : ExprStacks) :
    Passes (operatorRound nested state) := by
  refine currentKind.bind fun kind => ?_
  split
  · refine take.bind fun sign => ?_
    refine (state.passes_pushOperator _).bind fun pushed => ?_
    exact (passes.operand pushed).bind fun next => .pure _
  · split
    · refine take.bind fun dot => ?_
      refine (state.passes_pushOperator .member).bind fun pushed => ?_
      exact passes.member.bind fun found => .pure _
    · split
      · refine take.bind fun bracket => ?_
        refine (state.passes_reduce .index).bind fun reduced => ?_
        refine passes.bind fun inner => ?_
        exact (Passes.expect .closeBracket).bind fun close => .pure _
      · exact state.passes_result.bind fun value => .pure _

/-- An expression is read from front to back. -/
theorem passes_expr : Passes expr := by
  apply Passes.nesting
  intro nested inside
  refine (inside.operand .empty).bind fun state => ?_
  exact .rounds inside.operatorRound state

end Expressions

/-- The places of locals that a statement declares. -/
def stmtPlaces (stmt : Stmt) : List Position :=
  (stmt.nodes.flatMap Stmt.decls).map fun decl => decl.nameSpan.start

theorem flatMap_stmtPlaces (stmts : List Stmt) :
    stmts.flatMap stmtPlaces =
      ((Stmt.nodesOfList stmts).flatMap Stmt.decls).map fun decl => decl.nameSpan.start := by
  rw [Stmt.nodesOfList_eq_flatMap, List.flatMap_assoc, List.map_flatMap]
  rfl

theorem gathers_varDecl : Gathers [] varDecl fun decl => [decl.nameSpan.start] := by
  refine (compositional_passes.typeName []).bind fun typed => ?_
  refine (Gathers.expect_place (by decide)).bind fun name => ?_
  have closing (init : Option Expr) : Gathers [name.span.start]
      (do
        let _ ← expect .semicolon
        return (⟨typed.1, typed.2, name.value, name.span, init⟩ : VarDecl))
      fun decl => [decl.nameSpan.start] :=
    (Passes.expect .semicolon _).bind fun semicolon => .pure (List.Sublist.refl _)
  refine (Passes.currentKind _).bind fun kind => ?_
  dsimp only
  split
  · refine (Passes.take _).bind fun sign => ?_
    refine (passes_expr _).bind fun value => ?_
    exact (Passes.pure (some value) _).bind closing
  · exact (Passes.pure none _).bind closing

theorem passes_assignment : Passes assignment := by
  refine Passes.position.bind fun start => ?_
  refine Passes.freshId.bind fun id => ?_
  refine (Passes.expect .identifier).bind fun name => ?_
  refine Passes.currentKind.bind fun kind => ?_
  have closing (index : Option Expr) : Passes (do
      let _ ← expect .assignment
      let value ← expr
      return ({ info := { id, span := ← spanFrom start },
                target := { text := name.value, span := name.span }, index, value } :
        Assignment)) := by
    refine (Passes.expect .assignment).bind fun sign => ?_
    refine .bind passes_expr fun value => ?_
    exact (Passes.spanFrom start).bind fun span => .pure _
  dsimp only
  split
  · refine Passes.take.bind fun bracket => ?_
    refine .bind passes_expr fun index => ?_
    refine (Passes.expect .closeBracket).bind fun close => ?_
    exact (Passes.pure (some index)).bind closing
  · exact (Passes.pure none).bind closing

theorem passes_returnClause : Passes returnClause := by
  refine (Passes.expect .retWord).bind fun keyword => ?_
  refine Passes.currentKind.bind fun kind => ?_
  have closing (value : Option Expr) : Passes (do
      let _ ← expect .semicolon
      return ({ value, span := ← spanFrom keyword.span.start } : Return)) := by
    refine (Passes.expect .semicolon).bind fun semicolon => ?_
    exact (Passes.spanFrom keyword.span.start).bind fun span => .pure _
  dsimp only
  split
  · exact (Passes.pure none).bind closing
  · exact .bind passes_expr fun value => (Passes.pure (some value)).bind closing

theorem passes_condition : Passes condition := by
  refine (Passes.expect .openParen).bind fun opening => ?_
  refine .bind passes_expr fun tested => ?_
  exact (Passes.expect .closeParen).bind fun closing => .pure _

section Statements

variable {nested : Parser Stmt}

attribute [local simp] stmtPlaces Stmt.nodes Stmt.decls

theorem Gathers.ifStmt (inside : Gathers [] nested stmtPlaces) :
    Gathers [] (ifStmt nested) stmtPlaces := by
  refine (Passes.position _).bind fun start => ?_
  refine (Passes.freshId _).bind fun id => ?_
  refine (Passes.expect .ifWord _).bind fun keyword => ?_
  refine (passes_condition _).bind fun tested => ?_
  refine inside.bind fun body => ?_
  refine (Passes.currentKind _).bind fun kind => ?_
  split
  · refine (Passes.take _).bind fun word => ?_
    refine (inside.frame _).bind fun alternative => ?_
    refine (Passes.spanFrom start _).bind fun span => .pure ?_
    simp
  · refine (Passes.spanFrom start _).bind fun span => .pure ?_
    simp

theorem Gathers.whileStmt (inside : Gathers [] nested stmtPlaces) :
    Gathers [] (whileStmt nested) stmtPlaces := by
  refine (Passes.position _).bind fun start => ?_
  refine (Passes.freshId _).bind fun id => ?_
  refine (Passes.expect .whileWord _).bind fun keyword => ?_
  refine (passes_condition _).bind fun tested => ?_
  refine inside.bind fun body => ?_
  refine (Passes.spanFrom start _).bind fun span => .pure ?_
  simp

theorem Gathers.forStmt (inside : Gathers [] nested stmtPlaces) :
    Gathers [] (forStmt nested) stmtPlaces := by
  refine (Passes.position _).bind fun start => ?_
  refine (Passes.freshId _).bind fun id => ?_
  refine (Passes.expect .forWord _).bind fun keyword => ?_
  refine (Passes.expect .openParen _).bind fun opening => ?_
  refine (compositional_passes.startsDeclaration _).bind fun declares => ?_
  split
  · exact .misplaced_bind _ _
  refine .bind gathers_varDecl fun init => ?_
  refine (passes_expr _).bind fun tested => ?_
  refine (Passes.expect .semicolon _).bind fun semicolon => ?_
  refine (Passes.currentKind _).bind fun kind => ?_
  split
  · exact .misplaced_bind _ _
  refine (passes_assignment _).bind fun update => ?_
  refine (Passes.expect .closeParen _).bind fun closing => ?_
  refine (inside.frame _).bind fun body => ?_
  refine (Passes.spanFrom start _).bind fun span => .pure ?_
  simp

theorem gathers_nameStmt : Gathers [] nameStmt stmtPlaces := by
  refine (Passes.nextKind _).bind fun next => ?_
  split
  · refine (passes_assignment _).bind fun assigned => ?_
    refine (Passes.expect .semicolon _).bind fun semicolon => ?_
    refine (Passes.spanFrom assigned.info.span.start _).bind fun span => ?_
    exact .pure (List.nil_sublist _)
  refine (Passes.position _).bind fun start => ?_
  refine (Passes.freshId _).bind fun id => ?_
  refine (passes_expr _).bind fun first => ?_
  refine (Passes.currentKind _).bind fun kind => ?_
  split
  · split
    · refine (Passes.take _).bind fun sign => ?_
      refine (passes_expr _).bind fun value => ?_
      refine (Passes.expect .semicolon _).bind fun semicolon => ?_
      exact (Passes.spanFrom start _).bind fun span => .pure (List.nil_sublist _)
    · exact .misplaced _
  · split
    · refine (Passes.expect .semicolon _).bind fun semicolon => ?_
      exact (Passes.spanFrom start _).bind fun span => .pure (List.nil_sublist _)
    · exact .misplaced _

theorem Gathers.bodyItem (inside : Gathers [] nested stmtPlaces) :
    Gathers [] (bodyItem nested) stmtPlaces := by
  refine (compositional_passes.startsDeclaration _).bind fun declares => ?_
  split
  · refine (Passes.position _).bind fun start => ?_
    refine (Passes.freshId _).bind fun id => ?_
    refine .bind gathers_varDecl fun decl => ?_
    refine (Passes.spanFrom start _).bind fun span => .pure ?_
    simp
  · exact inside

theorem Gathers.blockStmt (inside : Gathers [] nested stmtPlaces) :
    Gathers [] (blockStmt nested) stmtPlaces := by
  refine (Passes.position _).bind fun start => ?_
  refine (Passes.freshId _).bind fun id => ?_
  refine (Passes.expect .openCurly _).bind fun opening => ?_
  refine Gathers.bind (?_ : Gathers [] _ fun stmts => stmts.flatMap stmtPlaces) fun stmts => ?_
  · refine Gathers.rounds (fun collected => collected.reverse.flatMap stmtPlaces)
      (fun collected => ?_) []
    refine (Passes.currentKind _).bind fun kind => ?_
    split
    · exact .pure (List.Sublist.refl _)
    · exact .misplaced _
    · refine (inside.bodyItem.frame _).bind fun stmt => .pure ?_
      simp
  · refine (Passes.expect .closeCurly _).bind fun closing => ?_
    refine (Passes.spanFrom start _).bind fun span => .pure ?_
    rw [flatMap_stmtPlaces]
    exact List.Sublist.refl _

/-- The locals of a statement are gathered in their order. -/
theorem gathers_stmt : Gathers [] stmt stmtPlaces := by
  refine Gathers.nesting fun nested inside => (Passes.currentKind _).bind fun kind => ?_
  split
  · exact inside.ifStmt
  · exact inside.whileStmt
  · exact inside.forStmt
  · refine (Passes.freshId _).bind fun id => ?_
    exact (passes_returnClause _).bind fun returned => .pure (List.nil_sublist _)
  · exact inside.blockStmt
  · exact gathers_nameStmt
  · exact .misplaced _

end Statements

/-! ## Functions -/

theorem Gathers.commaSeparated {phrase : Parser α} {places : α → List Position}
    (inside : Gathers [] phrase places) :
    Gathers [] (commaSeparated phrase) fun values => values.flatMap places := by
  refine Gathers.rounds (fun collected => collected.reverse.flatMap places)
    (fun collected => ?_) []
  refine (inside.frame _).bind fun found => ?_
  refine (Passes.currentKind _).bind fun kind => ?_
  split
  · exact (Passes.take _).bind fun comma => .pure (by simp)
  · exact .pure (by simp)

theorem Gathers.listUpTo {phrase : Parser α} {places : α → List Position}
    (inside : Gathers [] phrase places) (close : TokenKind) :
    Gathers [] (listUpTo close phrase) fun values => values.flatMap places := by
  refine (Passes.currentKind _).bind fun kind => ?_
  split
  · exact .pure (List.nil_sublist _)
  · exact inside.commaSeparated

theorem gathers_param : Gathers [] param fun param => [param.span.start] := by
  refine (compositional_passes.typeName []).bind fun typed => ?_
  refine (Gathers.expect_place (by decide)).bind fun name => ?_
  exact .pure (List.Sublist.refl _)

theorem gathers_params :
    Gathers [] params fun params => params.flatMap fun param => [param.span.start] := by
  refine (Passes.expect .openParen _).bind fun opening => ?_
  refine (gathers_param.listUpTo .closeParen).bind fun found => ?_
  exact (Passes.expect .closeParen _).bind fun closing => .pure (List.Sublist.refl _)

theorem gathers_functionHead :
    Gathers [] functionHead fun head => head.params.map fun param => param.span.start := by
  refine (Passes.expect .fnWord _).bind fun keyword => ?_
  refine (Passes.expect .identifier _).bind fun name => ?_
  refine .bind gathers_params fun params => ?_
  refine (Passes.expect .colon _).bind fun colon => ?_
  refine (compositional_passes.typeName _).bind fun returned => .pure ?_
  simp [List.map_eq_flatMap]

theorem gathers_functionBody :
    Gathers [] functionBody fun found => found.1.flatMap stmtPlaces := by
  refine Gathers.rounds (fun collected => collected.reverse.flatMap stmtPlaces)
    (fun collected => ?_) []
  refine (Passes.currentKind _).bind fun kind => ?_
  split
  · exact .pure (List.Sublist.refl _)
  · exact .misplaced _
  · refine (Passes.freshId _).bind fun id => ?_
    refine (passes_returnClause _).bind fun returned => ?_
    refine (Passes.currentKind _).bind fun next => ?_
    split
    · exact .pure (List.Sublist.refl _)
    · exact .pure (by simp [stmtPlaces, Stmt.nodes, Stmt.decls])
  · exact (gathers_stmt.bodyItem.frame _).bind fun stmt => .pure (by simp)

theorem gathers_function : Gathers [] function FunctionDecl.localPlaces := by
  refine (Passes.freshId _).bind fun id => ?_
  refine .bind gathers_functionHead fun head => ?_
  refine (Passes.expect .openCurly _).bind fun opening => ?_
  refine .bind (.frame gathers_functionBody _) fun found => ?_
  refine (Passes.expect .closeCurly _).bind fun closing => .pure ?_
  rw [flatMap_stmtPlaces]
  exact List.Sublist.refl _

theorem gathers_classMembers :
    Gathers [] classMembers fun members => members.2.flatMap FunctionDecl.localPlaces := by
  refine Gathers.rounds (fun collected => collected.2.reverse.flatMap FunctionDecl.localPlaces)
    (fun collected => ?_) ([], [])
  refine (Passes.currentKind _).bind fun kind => ?_
  split
  · exact .pure (List.Sublist.refl _)
  · exact .bind (.frame gathers_function _) fun method => .pure (by simp)
  · refine (compositional_passes.startsDeclaration _).bind fun declares => ?_
    split
    · exact (Passes.of_gathers gathers_varDecl _).bind fun field => .pure (List.Sublist.refl _)
    · exact .misplaced _

theorem gathers_classDecl :
    Gathers [] classDecl fun decl => decl.methods.flatMap FunctionDecl.localPlaces := by
  refine (Passes.expect .classWord _).bind fun keyword => ?_
  refine (Passes.expect .identifier _).bind fun name => ?_
  refine (compositional_passes.parentClause _).bind fun parent => ?_
  refine (compositional_passes.nameClause .useWord _).bind fun uses => ?_
  refine (Passes.expect .openCurly _).bind fun opening => ?_
  refine .bind gathers_classMembers fun members => ?_
  exact (Passes.expect .closeCurly _).bind fun closing => .pure (List.Sublist.refl _)

theorem gathers_item :
    Gathers [] item fun item => item.bodies.flatMap FunctionDecl.localPlaces := by
  refine (Passes.currentKind _).bind fun kind => ?_
  split
  · exact (compositional_passes.inclusion _).bind fun decl => .pure (List.Sublist.refl _)
  · exact (compositional_passes.enumeration _).bind fun decl => .pure (List.Sublist.refl _)
  · exact (compositional_passes.interface _).bind fun decl => .pure (List.Sublist.refl _)
  · exact .bind gathers_classDecl fun decl => .pure (List.Sublist.refl _)
  · exact .bind gathers_function fun decl => .pure (by simp [Item.bodies])
  · refine (compositional_passes.startsDeclaration _).bind fun declares => ?_
    split
    · exact (Passes.of_gathers gathers_varDecl _).bind fun decl => .pure (List.Sublist.refl _)
    · exact .misplaced _

theorem gathers_items :
    Gathers [] items fun items =>
      (items.flatMap Item.bodies).flatMap FunctionDecl.localPlaces := by
  refine Gathers.rounds
    (fun collected => (collected.reverse.flatMap Item.bodies).flatMap FunctionDecl.localPlaces)
    (fun collected => ?_) []
  refine (Passes.currentKind _).bind fun kind => ?_
  split
  · exact .pure (List.Sublist.refl _)
  · exact .bind (.frame gathers_item _) fun item => .pure (by simp)

end Parser

/-- The tokens ahead of the first cursor are among those of the list. -/
theorem Cursor.places_ofTokens (tokens : List Token) :
    (Cursor.ofTokens tokens).places.Sublist (tokens.map fun token => token.span.start) := by
  refine List.Sublist.map _ ?_
  change (TokenStream.ofTokens tokens).ahead.Sublist tokens
  unfold TokenStream.ofTokens
  split
  · exact List.nil_sublist _
  · split
    · exact List.dropLast_sublist _
    · exact List.Sublist.refl _

/-- The parameters and locals in a file that has been read are declared one
behind the other. -/
theorem Program.ordered_localPlaces {file source : String} {program : Program}
    (accepted : ofSource file source = .ok program) :
    (program.bodies.flatMap FunctionDecl.localPlaces).Pairwise Position.Precedes := by
  unfold ofSource at accepted
  split at accepted
  · cases accepted
  · next tokens tokenized =>
      unfold ofTokens at accepted
      split at accepted
      · cases accepted
      · next items behind read =>
          cases accepted
          have gathered := Parser.gathers_items (Cursor.ofTokens tokens) items behind read
          have among := (List.sublist_append_left _ behind.places).trans gathered
          have order := List.pairwise_map.mpr (inOrder_tokensFrom tokenized).ordered
          exact order.sublist (among.trans (Cursor.places_ofTokens tokens))

end KnightFront
