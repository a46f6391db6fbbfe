import KnightFront.Proofs.Parse.Compositional
import KnightFront.Proofs.Parse.Rules
import KnightFront.Proofs.Tree.Traversal

namespace KnightFront

/-!
# Identities and their supply

Every node of a tree has an identity, and a cursor still has all identities from
its next one on to hand out.  So an identity occurs in what a parser returns and
in what it may still hand out at most as often as in what the parser was given and
in what could be handed out before.  Counting covers identities that are taken
early, thrown away or passed on from an operand to the node that absorbs it.
-/

/-- The identities of the nodes of an expression. -/
def Expr.ids (expr : Expr) : List NodeId := expr.nodes.map Expr.id

/-- The identities that a statement itself has.  The assignment at the head of a loop
is a statement of its own. -/
def Stmt.ownIds : Stmt → List NodeId
  | forLoop info _ _ update _ _ => [info.id, update.info.id]
  | stmt => [stmt.info.id]

/-- The identities of a statement, of those inside it and of their expressions. -/
def Stmt.ids (stmt : Stmt) : List NodeId :=
  stmt.nodes.flatMap ownIds ++ stmt.exprs.flatMap Expr.ids

/-- The identities of a function and of all that stands in its body. -/
def FunctionDecl.ids (decl : FunctionDecl) : List NodeId :=
  decl.id :: (decl.stmts.flatMap Stmt.ownIds ++ decl.exprs.flatMap Expr.ids)

/-- The identities of a declaration. -/
def Item.ids : Item → List NodeId
  | classDecl decl =>
      decl.fields.flatMap (fun field => field.exprs.flatMap Expr.ids) ++
        decl.methods.flatMap FunctionDecl.ids
  | function decl => decl.ids
  | globalVariable decl => decl.exprs.flatMap Expr.ids
  | _ => []

/-- The identities of all functions, statements and expressions of a file. -/
def Program.ids (program : Program) : List NodeId :=
  program.bodies.map FunctionDecl.id ++ program.stmts.flatMap Stmt.ownIds ++
    program.nodes.map Expr.id

/-- How often a cursor can still hand out an identity. -/
def Cursor.unused (id : NodeId) (cursor : Cursor) : Nat := if cursor.nextId ≤ id then 1 else 0

namespace Cursor

variable {id : NodeId} {cursor : Cursor}

@[simp]
theorem unused_advance : cursor.advance.unused id = cursor.unused id := rfl

/-- An identity that is handed out is unused no more. -/
theorem unused_withNextId :
    [cursor.nextId].count id + unused id { cursor with nextId := cursor.nextId + 1 } =
      cursor.unused id := by
  rcases Nat.lt_trichotomy cursor.nextId id with before | rfl | behind
  · simp [unused, Nat.ne_of_lt before, Nat.le_of_lt before,
      Nat.succ_le_of_lt before]
  · simp [unused]
  · simp [unused, Nat.ne_of_gt behind, Nat.not_le.mpr behind,
      Nat.not_le.mpr (Nat.lt_succ_of_lt behind)]

end Cursor

namespace Parser

variable {α β : Type} {id : NodeId} {held : Nat}

/-- Given a number of occurrences of an identity, a parser leaves no more of them in
its value, those that the cursor can still hand out counted on both sides. -/
def Allots (id : NodeId) (held : Nat) (parser : Parser α) (uses : α → Nat) : Prop :=
  ∀ cursor, Ensures parser cursor fun value behind =>
    uses value + behind.unused id ≤ held + cursor.unused id

/-- What a round decides is worth. -/
def roundUses {σ : Type} (kept : σ → Nat) (uses : α → Nat) : Round σ α → Nat
  | .again state => kept state
  | .done value => uses value

/-- A parser whose value has no identities. -/
def Idle (id : NodeId) (parser : Parser α) : Prop := Allots id 0 parser fun _ => 0

namespace Allots

variable {uses : α → Nat} {result : β → Nat}

/-- What was there before is added to what a parser finds. -/
theorem bind {parser : Parser α} {next : α → Parser β} (first : Allots id 0 parser uses)
    (second : ∀ value, Allots id (held + uses value) (next value) result) :
    Allots id held (parser >>= next) result := by
  intro start
  rw [ensures_bind]
  refine (first start).mono fun value between early => ?_
  refine (second value between).mono fun found behind late => ?_
  omega

/-- Behind a parser that uses up what it was given, its value is all there is. -/
theorem bind_all {parser : Parser α} {next : α → Parser β} (first : Allots id held parser uses)
    (second : ∀ value, Allots id (uses value) (next value) result) :
    Allots id held (parser >>= next) result := by
  intro start
  rw [ensures_bind]
  refine (first start).mono fun value between early => ?_
  refine (second value between).mono fun found behind late => ?_
  omega

/-- What is held besides stays. -/
theorem frame {parser : Parser α} (allots : Allots id held parser uses) (besides : Nat) :
    Allots id (besides + held) parser fun value => besides + uses value := by
  intro cursor
  refine (allots cursor).mono fun value behind within => ?_
  dsimp only
  omega

theorem pure {value : α} (enough : uses value ≤ held) : Allots id held (Pure.pure value) uses :=
  fun _ => ensures_pure.mpr (Nat.add_le_add_right enough _)

theorem misplaced (requirement : String) : Allots id held (misplaced requirement : Parser α) uses :=
  fun _ => ensures_misplaced.mpr trivial

theorem misplaced_bind (requirement : String) (next : α → Parser β) :
    Allots id held (Parser.misplaced requirement >>= next) result :=
  fun _ => ensures_bind.mpr (ensures_misplaced.mpr trivial)

theorem faulty (cause : SyntaxFault.Cause) (position : Position) :
    Allots id held (faulty cause position : Parser α) uses :=
  fun _ => ensures_faulty.mpr trivial

theorem defective (defect : ParserDefect) : Allots id held (defective defect : Parser α) uses :=
  fun _ => ensures_defective.mpr trivial

theorem freshId : Allots id 0 freshId fun fresh => [fresh].count id := by
  intro cursor
  rw [ensures_freshId, Cursor.unused_withNextId]
  omega

/-- A repetition whose rounds keep within what they hold. -/
theorem rounds {σ : Type} {round : σ → Parser (Round σ α)} (kept : σ → Nat) (uses : α → Nat)
    (step : ∀ state, Allots id (kept state) (round state) (roundUses kept uses))
    (state : σ) : Allots id (kept state) (rounds round state) uses := by
  intro cursor
  refine ensures_rounds
    (fun next inner => kept next + inner.unused id ≤ kept state + cursor.unused id)
    (fun next inner within => ?_) (Nat.le_refl _)
  refine (step next inner).mono fun outcome behind late => ?_
  cases outcome with
  | done value => exact Nat.le_trans late within
  | again further => exact Nat.le_trans late within

theorem nesting {level : Parser α → Parser α}
    (step : ∀ nested, Allots id 0 nested uses → Allots id 0 (level nested) uses) :
    Allots id 0 (nesting level) uses := by
  intro cursor
  exact ensures_nesting (fun _ => True)
    (fun start value behind => uses value + behind.unused id ≤ 0 + start.unused id)
    (fun nested inside inner _ => step nested (fun start => inside start trivial) inner) cursor
    trivial

end Allots

namespace Idle

/-- A parser without identities leaves those that were there before. -/
theorem bind {uses : β → Nat} {parser : Parser α} {next : α → Parser β} (first : Idle id parser)
    (second : ∀ value, Allots id held (next value) uses) :
    Allots id held (parser >>= next) uses :=
  Allots.bind first second

theorem pure (value : α) : Idle id (Pure.pure value) := Allots.pure (Nat.le_refl 0)

theorem currentKind : Idle id currentKind := fun _ => ensures_currentKind.mpr (Nat.le_refl _)

theorem nextKind : Idle id Parser.nextKind := fun _ => ensures_nextKind.mpr (Nat.le_refl _)

theorem position : Idle id position := fun _ => ensures_position.mpr (Nat.le_refl _)

theorem spanFrom (start : Position) : Idle id (spanFrom start) :=
  fun _ => ensures_spanFrom.mpr (Nat.le_refl _)

theorem take : Idle id take := fun _ => ensures_take.mpr (Nat.le_refl _)

theorem expect (kind : TokenKind) : Idle id (expect kind) :=
  fun _ => ensures_expect.mpr fun _ => Nat.le_refl _

theorem expectOr (kind : TokenKind) (requirement : String) : Idle id (expectOr kind requirement) :=
  fun _ => ensures_expectOr.mpr fun _ => Nat.le_refl _

/-- In rounds that are all idle, nothing is handed out. -/
theorem rounds {σ : Type} {round : σ → Parser (Round σ α)} (step : ∀ state, Idle id (round state))
    (state : σ) : Idle id (rounds round state) := by
  refine Allots.rounds (fun _ => 0) (fun _ => 0) (fun next inner => ?_) state
  refine (step next inner).mono fun outcome behind within => ?_
  cases outcome with
  | done value => exact within
  | again further => exact within

end Idle

/-- A reader without identities is made of steps without them. -/
theorem compositional_idle : Compositional (Idle id) where
  pure := Idle.pure
  bind := Idle.bind
  rounds := Idle.rounds
  currentKind := Idle.currentKind
  nextKind := Idle.nextKind
  position := Idle.position
  take := Idle.take
  expect := Idle.expect
  spanFrom := Idle.spanFrom
  misplaced := Allots.misplaced

/-- The order in which phrases were collected does not matter. -/
theorem count_flatMap_reverse (ids : α → List NodeId) (values : List α) :
    (values.reverse.flatMap ids).count id = (values.flatMap ids).count id :=
  ((List.reverse_perm values).flatMap_right ids).count_eq id

section Lists

variable {ids : α → List NodeId} {phrase : Parser α}
  (each : Allots id 0 phrase fun value => (ids value).count id)

include each

theorem Allots.commaSeparated :
    Allots id 0 (commaSeparated phrase) fun values => (values.flatMap ids).count id := by
  refine rounds (fun collected => (collected.flatMap ids).count id) _ (fun collected => ?_) []
  refine each.bind fun value => ?_
  refine Idle.currentKind.bind fun kind => ?_
  split
  · refine Idle.take.bind fun comma => .pure ?_
    simp only [roundUses, List.flatMap_cons, List.count_append]
    omega
  · refine .pure ?_
    simp only [roundUses, count_flatMap_reverse, List.flatMap_cons, List.count_append]
    omega

theorem Allots.listUpTo (close : TokenKind) :
    Allots id 0 (listUpTo close phrase) fun values => (values.flatMap ids).count id := by
  refine Idle.currentKind.bind fun kind => ?_
  split
  · exact .pure (Nat.le_refl 0)
  · exact each.commaSeparated

end Lists

end Parser

end KnightFront
