import KnightFront.Proofs.Diagnostics.Occurrences
import KnightFront.Proofs.Edits.Fading
import KnightFront.Proofs.Edits.Judged
import KnightFront.Proofs.Resolution.Bindings
import KnightFront.Proofs.Tree.Mentions

namespace KnightFront

/-!
# Reports about expressions

In both passes together, an expression is reported on at most once for every leaf
that it has.  This alone would not be enough for what stands around it: a condition
that is no truth value is reported where it begins, and so is a mistake in it.  But
behind a mistake there is no type, and without a type nothing more is required.  So
the leaf at the beginning of an expression is spared as long as the expression has
a type.

Names can restore a type: a call whose arguments do not match has the error type,
but its name still decides the class in which a member is sought.  The mismatch is
told by another message than all other problems, so the room for these is spared.

The conversion of a number is reported where its concatenation begins.  Several
concatenations can begin at one place, so these reports are counted by themselves.
-/

/-- No condition on what is declared. -/
def BindingRule.any : BindingRule := ⟨fun _ => True, fun _ => True⟩

/-- Every model meets no condition. -/
theorem SymbolModel.meets_any (model : SymbolModel) : model.Meets .any :=
  ⟨fun _ _ _ _ => trivial, fun _ _ _ _ => trivial, fun _ _ _ _ => trivial, fun _ _ => trivial,
    fun _ _ => trivial⟩

/-- Whether a node is a concatenation, or a sum, that begins at a place. -/
def Expr.isConcatenationAt (place : Position) : Expr → Bool
  | binary info op _ _ => decide (op = .plus ∧ info.span.start = place)
  | _ => false

/-- Whether a type is that of a class or interface. -/
def Ty.isNamed : Ty → Bool
  | named _ => true
  | _ => false

namespace Diagnostic

variable (diagnostic : Diagnostic) {place : Position} {ty : Ty} {static : Option Ty}

/-- The room at a node for the conversion of a number. -/
def conversionRoom (node : Expr) : Nat :=
  if diagnostic.isConversion && node.isConcatenationAt diagnostic.position then 1 else 0

/-- The room at several nodes for conversions of numbers. -/
def conversions (nodes : List Expr) : Nat := (nodes.map diagnostic.conversionRoom).sum

@[simp]
theorem conversions_nil : diagnostic.conversions [] = 0 := rfl

@[simp]
theorem conversions_cons (node : Expr) (nodes : List Expr) :
    diagnostic.conversions (node :: nodes) =
      diagnostic.conversionRoom node + diagnostic.conversions nodes := by
  simp [conversions]

@[simp]
theorem conversions_append (first second : List Expr) :
    diagnostic.conversions (first ++ second) =
      diagnostic.conversions first + diagnostic.conversions second := by
  simp [conversions]

theorem conversions_flatMap {α : Type} (nodes : α → List Expr) (list : List α) :
    diagnostic.conversions (list.flatMap nodes) =
      (list.map fun member => diagnostic.conversions (nodes member)).sum := by
  induction list with
  | nil => rfl
  | cons first rest inductionHypothesis => simp [inductionHypothesis]

/-- There is room for every concatenation at the place of a conversion, and none for
other messages. -/
theorem conversions_eq (nodes : List Expr) :
    diagnostic.conversions nodes =
      if diagnostic.isConversion then
        nodes.countP (Expr.isConcatenationAt diagnostic.position)
      else 0 := by
  induction nodes with
  | nil => simp
  | cons first rest inductionHypothesis =>
      rw [conversions_cons, inductionHypothesis, List.countP_cons, conversionRoom]
      cases diagnostic.isConversion <;> simp [Nat.add_comm]

/-- The room that is left where an expression begins, by the type found for it and
the type that names decide. -/
def spared (place : Position) (ty : Ty) (static : Option Ty) : Nat :=
  if ty ≠ .error ∨ static.any Ty.isNamed = true then diagnostic.plainRoom place else 0

theorem spared_le : diagnostic.spared place ty static ≤ diagnostic.plainRoom place := by
  unfold spared
  split
  · exact Nat.le_refl _
  · exact Nat.zero_le _

/-- Where there is a type, there is room. -/
theorem spared_of_known (known : ty ≠ .error) :
    diagnostic.spared place ty static = diagnostic.plainRoom place :=
  if_pos (.inl known)

theorem spared_of_named {owner : String} (named : static = some (.named owner)) :
    diagnostic.spared place ty static = diagnostic.plainRoom place :=
  if_pos (.inr (named ▸ rfl))

theorem spared_of_lost (lost : ty = .error) (unnamed : static.any Ty.isNamed = false) :
    diagnostic.spared place ty static = 0 := by
  rw [spared, if_neg]
  rw [not_or, not_not]
  exact ⟨lost, by simp [unnamed]⟩

/-- The room that is left where a name stands: that of a bound one. -/
def nameRoom (used : NameUse) : Nat :=
  if used.binding.isSome then diagnostic.plainRoom used.span.start else 0

theorem nameRoom_le (used : NameUse) :
    diagnostic.nameRoom used ≤ diagnostic.plainRoom used.span.start := by
  unfold nameRoom
  split
  · exact Nat.le_refl _
  · exact Nat.zero_le _

end Diagnostic

namespace Resolution

variable {used : NameUse}

/-- Binding a name reports it where it stands, or binds it and leaves the room
there. -/
structure Binds (diagnostic : Diagnostic) (used : NameUse) (pass : Reported NameUse) : Prop where
  span : pass.value.span = used.span
  text : pass.value.text = used.text
  room : pass.tally diagnostic.tells + diagnostic.nameRoom pass.value ≤
    diagnostic.plainRoom used.span.start

variable (diagnostic : Diagnostic) (place : NamePlace)

theorem binds_pure : Binds diagnostic used (pure used) :=
  ⟨rfl, rfl, by simpa using diagnostic.nameRoom_le used⟩

theorem binds_bindName (unbound : used.binding = none) (found : Option Binding) {problem : Problem}
    (plain : problem.isPlain = true) : Binds diagnostic used (bindName used found problem) := by
  cases found with
  | some binding => exact ⟨rfl, rfl, by simpa [bindName] using diagnostic.nameRoom_le _⟩
  | none =>
      refine ⟨rfl, rfl, ?_⟩
      have reported : (Reported.report used.span.start problem).tally diagnostic.tells ≤ _ :=
        Reported.times_report_le_plainRoom plain
      simpa [bindName, Diagnostic.nameRoom, unbound] using reported

theorem binds_bindValue (scopes : List Scope) (unbound : used.binding = none) :
    Binds diagnostic used (bindValue place scopes used) :=
  binds_bindName diagnostic unbound _ rfl

theorem binds_bindCallee (unbound : used.binding = none) :
    Binds diagnostic used (bindCallee place used) :=
  binds_bindName diagnostic unbound _ rfl

theorem binds_bindMethod (unbound : used.binding = none) (receiver : Option Ty) :
    Binds diagnostic used (bindMethod place receiver used) := by
  unfold bindMethod
  split
  · exact binds_pure diagnostic
  · exact binds_pure diagnostic
  · split
    · exact binds_bindName diagnostic unbound _ rfl
    · split
      · exact binds_bindName diagnostic unbound _ rfl
      · exact binds_pure diagnostic
  · exact binds_bindName diagnostic unbound _ rfl

theorem binds_bindField (unbound : used.binding = none) (receiver : Option Ty) :
    Binds diagnostic used (bindField place receiver used) := by
  unfold bindField
  split
  · exact binds_pure diagnostic
  · exact binds_pure diagnostic
  · split
    · exact binds_bindName diagnostic unbound _ rfl
    · split
      · exact binds_bindName diagnostic unbound _ rfl
      · exact binds_pure diagnostic
  · exact binds_bindName diagnostic unbound _ rfl

theorem binds_bindInstance (unbound : used.binding = none) :
    Binds diagnostic used (bindInstance place used) := by
  unfold bindInstance
  split
  · exact ⟨rfl, rfl, by simpa using diagnostic.nameRoom_le _⟩
  · split
    · exact binds_bindName diagnostic unbound _ rfl
    · exact binds_bindName diagnostic unbound _ rfl

end Resolution

/-! ## Types from the types of parts -/

namespace Typing

variable {static : Option Ty} (diagnostic : Diagnostic) (model : SymbolModel) (position : Position)

/-- The conversion of a number takes the room at its concatenation. -/
theorem times_conversion (info : ExprInfo) (op : BinaryOp) (first second : Expr) (left right : Ty) :
    (Reported.reportIf (converts op left right) info.span.start .implicitConversion).tally
        diagnostic.tells ≤
      diagnostic.conversionRoom (.binary info op first second) := by
  cases converting : converts op left right with
  | false => exact Nat.zero_le _
  | true =>
      have plus : op = .plus := (of_decide_eq_true converting).1
      refine Nat.le_trans (Nat.le_of_eq (Reported.times_report _ _)) ?_
      split
      · next same =>
          have isConversion := Finding.isConversion_of_diagnostic same
          have here : info.span.start = diagnostic.position := congrArg Diagnostic.position same
          simp [Diagnostic.conversionRoom, Expr.isConcatenationAt, isConversion, here, plus,
            Problem.isConversion]
      · exact Nat.zero_le _

/-- A binary expression without a type takes the room where it begins. -/
theorem times_binaryTy (info : ExprInfo) (op : BinaryOp) (first second : Expr) (left right : Ty)
    (leftStatic : Option Ty) (unnamed : static.any Ty.isNamed = false) :
    (binaryTy model op left right info.span.start).tally diagnostic.tells +
        diagnostic.spared info.span.start (binaryTy model op left right info.span.start).value
          static ≤
      diagnostic.spared info.span.start left leftStatic +
        diagnostic.conversionRoom (.binary info op first second) := by
  have conversion := times_conversion diagnostic info op first second left right
  unfold binaryTy
  split
  · rw [Reported.tally_pure, Reported.value_pure, diagnostic.spared_of_lost rfl unnamed]
    exact Nat.zero_le _
  · next known =>
      rw [not_or] at known
      rw [diagnostic.spared_of_known known.1]
      split
      · next ty _ =>
          have spare : diagnostic.spared info.span.start ty static ≤ _ := diagnostic.spared_le
          rw [Reported.tally_bind, Reported.tally_pure, Reported.value_bind, Reported.value_pure]
          omega
      · rw [Reported.tally_bind, Reported.tally_pure, Reported.value_bind, Reported.value_pure,
          diagnostic.spared_of_lost rfl unnamed]
        exact Nat.le_trans (Reported.times_report_le_plainRoom rfl) (Nat.le_add_right _ _)

theorem times_elementTy (base : Ty) (baseStatic : Option Ty)
    (unnamed : static.any Ty.isNamed = false) :
    (elementTy base position).tally diagnostic.tells +
        diagnostic.spared position (elementTy base position).value static ≤
      diagnostic.spared position base baseStatic := by
  unfold elementTy
  split
  · next element isArray =>
      have known : base ≠ .error := by
        rintro rfl
        cases isArray
      rw [Reported.tally_pure, diagnostic.spared_of_known known, Nat.zero_add]
      exact diagnostic.spared_le
  · rw [Reported.tally_bind, Reported.tally_pure, Reported.value_bind, Reported.value_pure,
      diagnostic.spared_of_lost rfl unnamed]
    refine Nat.le_trans (Reported.times_reportIf_le_plainRoom rfl _) ?_
    split
    · next known =>
        exact Nat.le_of_eq (diagnostic.spared_of_known (of_decide_eq_true known)).symm
    · exact Nat.zero_le _

theorem times_arrayTy (items : List Ty) (unnamed : static.any Ty.isNamed = false) :
    (arrayTy items position).tally diagnostic.tells +
        diagnostic.spared position (arrayTy items position).value static ≤
      diagnostic.plainRoom position := by
  have mixed : ((do Reported.report position .mixedArray; return .error) : Reported Ty).tally
        diagnostic.tells + diagnostic.spared position .error static ≤ diagnostic.plainRoom position := by
    rw [Reported.tally_bind, Reported.tally_pure, diagnostic.spared_of_lost rfl unnamed]
    exact Reported.times_report_le_plainRoom rfl
  unfold arrayTy
  split
  · rw [Reported.tally_pure, Nat.zero_add]
    exact diagnostic.spared_le
  · split
    · rw [Reported.tally_pure, Nat.zero_add]
      exact diagnostic.spared_le
    · split
      · split
        · rw [Reported.tally_pure, Nat.zero_add]
          exact diagnostic.spared_le
        · exact mixed
      · exact mixed

/-- Only the call of a bound name is compared with what is declared. -/
theorem times_callTy (callee : NameUse) (args : List Ty) :
    (callTy model callee args).tally diagnostic.tells ≤
      if callee.binding.isSome then diagnostic.callRoom callee.span.start else 0 := by
  cases bound : callee.binding with
  | none =>
      rw [callTy_of_unbound bound]
      exact Nat.le_refl _
  | some binding =>
      unfold callTy
      split
      · exact Nat.zero_le _
      · split
        · exact Nat.zero_le _
        · rw [Reported.tally_bind, Reported.tally_pure]
          exact Reported.times_report_le_callRoom rfl

/-- What is required of a type is reported only where there is one. -/
theorem times_requirement {required ty : Ty} {problem : Problem} (plain : problem.isPlain = true) :
    (Reported.reportIf (differs required ty) position problem).tally diagnostic.tells ≤
      diagnostic.spared position ty static := by
  refine Nat.le_trans (Reported.times_reportIf_le_plainRoom plain _) ?_
  split
  · next differing =>
      exact Nat.le_of_eq (diagnostic.spared_of_known (of_decide_eq_true differing).1).symm
  · exact Nat.zero_le _

/-- What cannot be assigned has a type. -/
theorem known_of_not_isAssignable {model : SymbolModel} {expected actual : Ty}
    (unassignable : (!model.isAssignable expected actual) = true) : actual ≠ .error := by
  rintro rfl
  simp at unassignable

theorem times_requireAssignable (name : String) (expected ty : Ty) :
    (requireAssignable model name expected ty position).tally diagnostic.tells ≤
      diagnostic.spared position ty static := by
  refine Nat.le_trans (Reported.times_reportIf_le_plainRoom rfl _) ?_
  split
  · next unassignable =>
      exact Nat.le_of_eq (diagnostic.spared_of_known (known_of_not_isAssignable unassignable)).symm
  · exact Nat.zero_le _

end Typing

namespace Analysis

open Resolution Typing

variable {diagnostic : Diagnostic} {place : NamePlace} {scopes : List Scope}

theorem position_resolveExpr (expr : Expr) :
    (resolveExpr place scopes expr).value.position = expr.position := by
  cases expr <;> rfl

section

variable (diagnostic place scopes)

/-- The room that is left where an expression begins. -/
def spareRoom (expr : Expr) : Nat :=
  diagnostic.spared expr.position (judge place scopes expr).value (memberTy? place scopes expr)

/-- An expression is reported on at most once for each of its leaves and for each
conversion, and the leaf where it begins is spared as long as it has a type. -/
def WithinLeaves (expr : Expr) : Prop :=
  (judge place scopes expr).tally diagnostic.tells + spareRoom diagnostic place scopes expr ≤
    diagnostic.rooms expr.leaves + diagnostic.conversions expr.nodes

/-- Expressions are reported on at most once for each of their leaves and for each
conversion. -/
def WithinLeavesOfList (exprs : List Expr) : Prop :=
  (judgeAll place scopes exprs).tally diagnostic.tells ≤
    diagnostic.rooms (Expr.leavesOfList exprs) +
      diagnostic.conversions (Expr.nodesOfList exprs)

end

/-- A name leaves room only if it is bound. -/
theorem spared_boundTy (position : Position) (used : NameUse) :
    diagnostic.spared position used.boundTy (used.binding.map Binding.ty) ≤
      if used.binding.isSome then diagnostic.plainRoom position else 0 := by
  cases bound : used.binding with
  | none => exact Nat.le_of_eq (diagnostic.spared_of_lost (boundTy_of_unbound bound) rfl)
  | some binding => exact diagnostic.spared_le

/-- A call leaves room only if its name is bound. -/
theorem spared_callTy (position : Position) (callee : NameUse) (args : List Ty) :
    diagnostic.spared position (callTy place.model callee args).value
        ((callee.binding.bind Binding.signature?).map Signature.returnTy) ≤
      if callee.binding.isSome then diagnostic.plainRoom position else 0 := by
  cases bound : callee.binding with
  | none =>
      rw [callTy_of_unbound bound]
      exact Nat.le_of_eq (diagnostic.spared_of_lost rfl rfl)
  | some binding => exact diagnostic.spared_le

/-- A member that is bound stands behind a receiver that leaves room. -/
theorem room_le_spareRoom {receiver : Expr} {used : NameUse}
    (meets : used.MeetsBehind .any (resolveExpr place scopes receiver).value) :
    (if used.binding.isSome then diagnostic.plainRoom receiver.position else 0) ≤
      spareRoom diagnostic place scopes receiver := by
  split
  · next bound =>
      rcases Option.isSome_iff_exists.mp bound with ⟨binding, found⟩
      rcases (meets binding found).2 with ⟨owner, named⟩
      exact Nat.le_of_eq (diagnostic.spared_of_named named).symm
  · exact Nat.zero_le _

theorem unnamed_binary {info : ExprInfo} {op : BinaryOp} {left right : Expr} :
    (memberTy? place scopes (.binary info op left right)).any Ty.isNamed = false := by
  change ((Expr.binary info op _ _).staticTy?).any Ty.isNamed = false
  rw [Expr.staticTy?]
  split
  · rfl
  · split <;> rfl

theorem unnamed_index {info : ExprInfo} {base position : Expr} :
    (memberTy? place scopes (.index info base position)).any Ty.isNamed = false := by
  change ((memberTy? place scopes base).bind Ty.element?).any Ty.isNamed = false
  cases memberTy? place scopes base with
  | none => rfl
  | some ty =>
      cases ty with
      | array element => cases element <;> rfl
      | _ => rfl

theorem unnamed_array {info : ExprInfo} {items : List Expr} :
    (memberTy? place scopes (.array info items)).any Ty.isNamed = false := by
  cases items with
  | nil => rfl
  | cons first rest =>
      change ((memberTy? place scopes first).bind Ty.arrayOf?).any Ty.isNamed = false
      cases memberTy? place scopes first with
      | none => rfl
      | some ty => cases ty <;> rfl

/-- An expression that is not reported on where it begins has room there. -/
theorem withinLeaves_of_silent {expr : Expr} (rest : List Position)
    (silent : (judge place scopes expr).tally diagnostic.tells ≤
      diagnostic.rooms rest + diagnostic.conversions expr.nodes)
    (leaves : expr.leaves = expr.position :: rest) :
    WithinLeaves diagnostic place scopes expr := by
  have first : spareRoom diagnostic place scopes expr ≤ diagnostic.plainRoom expr.position :=
    diagnostic.spared_le
  have room := diagnostic.plainRoom_add_callRoom expr.position
  rw [WithinLeaves, leaves, diagnostic.rooms_cons]
  omega

/-! ## One node at a time -/

section Nodes

variable {info : ExprInfo} {used : NameUse} {left right : Expr} {exprs : List Expr}

theorem withinLeaves_name (unbound : used.binding = none)
    (anchored : info.span.start = used.span.start) :
    WithinLeaves diagnostic place scopes (.name info used) := by
  have total : (judge place scopes (.name info used)).tally diagnostic.tells =
      (bindValue place scopes used).tally diagnostic.tells := tally_judge_name _
  have binds := binds_bindValue diagnostic place scopes unbound
  have spare : spareRoom diagnostic place scopes (.name info used) ≤
      diagnostic.nameRoom (bindValue place scopes used).value := by
    rw [Diagnostic.nameRoom, binds.span, ← anchored]
    exact spared_boundTy _ _
  have name := binds.room
  have room := diagnostic.plainRoom_add_callRoom used.span.start
  rw [WithinLeaves, Expr.leaves, diagnostic.rooms_cons, diagnostic.rooms_nil]
  omega

theorem withinLeaves_binary {op : BinaryOp}
    (anchored : info.span.start = left.position)
    (first : WithinLeaves diagnostic place scopes left)
    (second : WithinLeaves diagnostic place scopes right) :
    WithinLeaves diagnostic place scopes (.binary info op left right) := by
  have total : (judge place scopes (.binary info op left right)).tally diagnostic.tells =
      (judge place scopes left).tally diagnostic.tells +
      (judge place scopes right).tally diagnostic.tells +
        (binaryTy place.model op (judge place scopes left).value (judge place scopes right).value
          info.span.start).tally diagnostic.tells := tally_judge_binary _
  have own : (binaryTy place.model op (judge place scopes left).value
        (judge place scopes right).value info.span.start).tally diagnostic.tells +
      spareRoom diagnostic place scopes (.binary info op left right) ≤
        spareRoom diagnostic place scopes left +
          diagnostic.conversionRoom (.binary info op left right) := by
    rw [spareRoom, spareRoom, ← anchored]
    exact times_binaryTy diagnostic _ _ _ _ _ _ _ _ unnamed_binary
  have leaves : diagnostic.rooms (Expr.binary info op left right).leaves =
      diagnostic.rooms left.leaves + diagnostic.rooms right.leaves := diagnostic.rooms_append _ _
  have nodes : diagnostic.conversions (Expr.binary info op left right).nodes =
      diagnostic.conversionRoom (.binary info op left right) +
        (diagnostic.conversions left.nodes + diagnostic.conversions right.nodes) := by
    rw [Expr.nodes, diagnostic.conversions_cons, diagnostic.conversions_append]
  rw [WithinLeaves] at first second ⊢
  omega

theorem withinLeaves_call (unbound : used.binding = none)
    (anchored : info.span.start = used.span.start)
    (args : WithinLeavesOfList diagnostic place scopes exprs) :
    WithinLeaves diagnostic place scopes (.call info used exprs) := by
  let callee := (bindCallee place used).value
  have total : (judge place scopes (.call info used exprs)).tally diagnostic.tells =
      (judgeAll place scopes exprs).tally diagnostic.tells +
      (bindCallee place used).tally diagnostic.tells +
        (callTy place.model callee (judgeAll place scopes exprs).value).tally diagnostic.tells :=
    tally_judge_call _
  have binds := binds_bindCallee diagnostic place unbound
  have calls := times_callTy diagnostic place.model callee (judgeAll place scopes exprs).value
  have spare : spareRoom diagnostic place scopes (.call info used exprs) ≤
      if callee.binding.isSome then diagnostic.plainRoom used.span.start else 0 := by
    rw [spareRoom, value_judge_call, ← anchored]
    exact spared_callTy _ _ _
  have name := binds.room
  have room := diagnostic.plainRoom_add_callRoom used.span.start
  rw [binds.span] at calls
  rw [Diagnostic.nameRoom, binds.span] at name
  have leaves : diagnostic.rooms (Expr.call info used exprs).leaves =
      diagnostic.room used.span.start + diagnostic.rooms (Expr.leavesOfList exprs) :=
    diagnostic.rooms_cons _ _
  have nodes : diagnostic.conversions (Expr.call info used exprs).nodes =
      diagnostic.conversionRoom (.call info used exprs) +
        diagnostic.conversions (Expr.nodesOfList exprs) := diagnostic.conversions_cons _ _
  rw [WithinLeavesOfList] at args
  rw [WithinLeaves]
  by_cases bound : callee.binding.isSome = true
  · rw [if_pos bound] at name calls spare
    omega
  · rw [if_neg bound] at name calls spare
    omega

theorem withinLeaves_methodCall (unbound : used.binding = none)
    (anchored : info.span.start = left.position)
    (receiver : WithinLeaves diagnostic place scopes left)
    (args : WithinLeavesOfList diagnostic place scopes exprs) :
    WithinLeaves diagnostic place scopes (.methodCall info left used exprs) := by
  let binding := bindMethod place (memberTy? place scopes left) used
  let callee := binding.value
  have total : (judge place scopes (.methodCall info left used exprs)).tally diagnostic.tells =
      (judge place scopes left).tally diagnostic.tells +
      (judgeAll place scopes exprs).tally diagnostic.tells +
        binding.tally diagnostic.tells +
          (callTy place.model callee (judgeAll place scopes exprs).value).tally diagnostic.tells :=
    tally_judge_methodCall _
  have binds : Binds diagnostic used binding := binds_bindMethod diagnostic place unbound _
  have behind : (if callee.binding.isSome then diagnostic.plainRoom left.position else 0) ≤
      spareRoom diagnostic place scopes left :=
    room_le_spareRoom (meetsBehind_bindMethod place.model.meets_any unbound _)
  have calls := times_callTy diagnostic place.model callee (judgeAll place scopes exprs).value
  have spare : spareRoom diagnostic place scopes (.methodCall info left used exprs) ≤
      if callee.binding.isSome then diagnostic.plainRoom left.position else 0 := by
    rw [spareRoom, value_judge_methodCall, ← anchored]
    exact spared_callTy _ _ _
  have name := binds.room
  have room := diagnostic.plainRoom_add_callRoom used.span.start
  rw [binds.span] at calls
  rw [Diagnostic.nameRoom, binds.span] at name
  have leaves : diagnostic.rooms (Expr.methodCall info left used exprs).leaves =
      diagnostic.rooms left.leaves +
        (diagnostic.room used.span.start + diagnostic.rooms (Expr.leavesOfList exprs)) := by
    rw [Expr.leaves, diagnostic.rooms_append, diagnostic.rooms_cons]
  have nodes : diagnostic.conversions (Expr.methodCall info left used exprs).nodes =
      diagnostic.conversionRoom (.methodCall info left used exprs) +
        (diagnostic.conversions left.nodes + diagnostic.conversions (Expr.nodesOfList exprs)) := by
    rw [Expr.nodes, diagnostic.conversions_cons, diagnostic.conversions_append]
  rw [WithinLeavesOfList] at args
  rw [WithinLeaves] at receiver ⊢
  by_cases bound : callee.binding.isSome = true
  · rw [if_pos bound] at name calls spare behind
    omega
  · rw [if_neg bound] at name calls spare behind
    omega

theorem withinLeaves_field (unbound : used.binding = none)
    (anchored : info.span.start = left.position)
    (receiver : WithinLeaves diagnostic place scopes left) :
    WithinLeaves diagnostic place scopes (.field info left used) := by
  let binding := bindField place (memberTy? place scopes left) used
  have total : (judge place scopes (.field info left used)).tally diagnostic.tells =
      (judge place scopes left).tally diagnostic.tells + binding.tally diagnostic.tells :=
        tally_judge_field _
  have binds : Binds diagnostic used binding := binds_bindField diagnostic place unbound _
  have behind : (if binding.value.binding.isSome then diagnostic.plainRoom left.position else 0) ≤
      spareRoom diagnostic place scopes left :=
    room_le_spareRoom (meetsBehind_bindField place.model.meets_any unbound _)
  have spare : spareRoom diagnostic place scopes (.field info left used) ≤
      if binding.value.binding.isSome then diagnostic.plainRoom left.position else 0 := by
    rw [spareRoom, ← anchored]
    exact spared_boundTy _ _
  have name := binds.room
  have room := diagnostic.plainRoom_add_callRoom used.span.start
  have leaves : diagnostic.rooms (Expr.field info left used).leaves =
      diagnostic.rooms left.leaves + diagnostic.rooms [used.span.start] :=
    diagnostic.rooms_append _ _
  have nodes : diagnostic.conversions (Expr.field info left used).nodes =
      diagnostic.conversionRoom (.field info left used) + diagnostic.conversions left.nodes :=
    diagnostic.conversions_cons _ _
  rw [diagnostic.rooms_cons] at leaves
  rw [WithinLeaves] at receiver ⊢
  omega

theorem withinLeaves_newInstance (unbound : used.binding = none) :
    WithinLeaves diagnostic place scopes (.newInstance info used) := by
  have total : (judge place scopes (.newInstance info used)).tally diagnostic.tells =
      (bindInstance place used).tally diagnostic.tells := tally_judge_newInstance _
  have name := (binds_bindInstance diagnostic place unbound).room
  have room := diagnostic.plainRoom_add_callRoom used.span.start
  refine withinLeaves_of_silent [used.span.start] ?_ rfl
  rw [diagnostic.rooms_cons, diagnostic.rooms_nil]
  omega

theorem withinLeaves_newArray {element : ElementTy}
    (length : WithinLeaves diagnostic place scopes left) :
    WithinLeaves diagnostic place scopes (.newArray info element left) := by
  let ty := (judge place scopes left).value
  have total : (judge place scopes (.newArray info element left)).tally diagnostic.tells =
      (judge place scopes left).tally diagnostic.tells +
        (Reported.reportIf (differs .int ty) (resolveExpr place scopes left).value.position
          (.lengthNotInt ty)).tally diagnostic.tells := tally_judge_newArray _
  have required : (Reported.reportIf (differs .int ty) left.position
      (.lengthNotInt ty)).tally diagnostic.tells ≤ spareRoom diagnostic place scopes left :=
    times_requirement diagnostic _ rfl
  rw [position_resolveExpr] at total
  rw [WithinLeaves] at length
  refine withinLeaves_of_silent left.leaves ?_ rfl
  rw [Expr.nodes, diagnostic.conversions_cons]
  omega

theorem withinLeaves_index (anchored : info.span.start = left.position)
    (base : WithinLeaves diagnostic place scopes left)
    (position : WithinLeaves diagnostic place scopes right) :
    WithinLeaves diagnostic place scopes (.index info left right) := by
  let ty := (judge place scopes right).value
  have total : (judge place scopes (.index info left right)).tally diagnostic.tells =
      (judge place scopes left).tally diagnostic.tells +
      (judge place scopes right).tally diagnostic.tells +
        (Reported.reportIf (differs .int ty) (resolveExpr place scopes right).value.position
            (.indexNotInt ty)).tally diagnostic.tells +
          (elementTy (judge place scopes left).value info.span.start).tally diagnostic.tells :=
    tally_judge_index _
  have required : (Reported.reportIf (differs .int ty) right.position
      (.indexNotInt ty)).tally diagnostic.tells ≤ spareRoom diagnostic place scopes right :=
    times_requirement diagnostic _ rfl
  have own : (elementTy (judge place scopes left).value info.span.start).tally diagnostic.tells +
      spareRoom diagnostic place scopes (.index info left right) ≤
        spareRoom diagnostic place scopes left := by
    rw [spareRoom, spareRoom, ← anchored]
    exact times_elementTy diagnostic _ _ _ unnamed_index
  rw [position_resolveExpr] at total
  have leaves : diagnostic.rooms (Expr.index info left right).leaves =
      diagnostic.rooms left.leaves + diagnostic.rooms right.leaves := diagnostic.rooms_append _ _
  have nodes : diagnostic.conversions (Expr.index info left right).nodes =
      diagnostic.conversionRoom (.index info left right) +
        (diagnostic.conversions left.nodes + diagnostic.conversions right.nodes) := by
    rw [Expr.nodes, diagnostic.conversions_cons, diagnostic.conversions_append]
  rw [WithinLeaves] at base position ⊢
  omega

theorem withinLeaves_array (items : WithinLeavesOfList diagnostic place scopes exprs) :
    WithinLeaves diagnostic place scopes (.array info exprs) := by
  have total : (judge place scopes (.array info exprs)).tally diagnostic.tells =
      (judgeAll place scopes exprs).tally diagnostic.tells +
        (arrayTy (judgeAll place scopes exprs).value info.span.start).tally diagnostic.tells :=
    tally_judge_array _
  have own : (arrayTy (judgeAll place scopes exprs).value info.span.start).tally diagnostic.tells +
      spareRoom diagnostic place scopes (.array info exprs) ≤
        diagnostic.plainRoom info.span.start := by
    rw [spareRoom, value_judge_array]
    exact times_arrayTy diagnostic _ _ unnamed_array
  have room := diagnostic.plainRoom_add_callRoom info.span.start
  have leaves : diagnostic.rooms (Expr.array info exprs).leaves =
      diagnostic.room info.span.start + diagnostic.rooms (Expr.leavesOfList exprs) :=
    diagnostic.rooms_cons _ _
  have nodes : diagnostic.conversions (Expr.array info exprs).nodes =
      diagnostic.conversionRoom (.array info exprs) +
        diagnostic.conversions (Expr.nodesOfList exprs) := diagnostic.conversions_cons _ _
  rw [WithinLeavesOfList] at items
  rw [WithinLeaves]
  omega

end Nodes

mutual

/-- An expression that has been written down and begins where its first leaf stands
is reported on at most once for every leaf and for every conversion. -/
theorem withinLeaves :
    ∀ (expr : Expr), expr.Written → expr.Anchored → WithinLeaves diagnostic place scopes expr
  | .int .., _, _ => withinLeaves_of_silent [] (Nat.zero_le _) rfl
  | .string .., _, _ => withinLeaves_of_silent [] (Nat.zero_le _) rfl
  | .bool .., _, _ => withinLeaves_of_silent [] (Nat.zero_le _) rfl
  | .name .., written, anchored => by
      rw [Expr.written_name] at written
      rw [Expr.anchored_name] at anchored
      exact withinLeaves_name written.unbound anchored
  | .binary _ _ left right, written, anchored => by
      rw [Expr.written_binary] at written
      rw [Expr.anchored_binary] at anchored
      exact withinLeaves_binary anchored.1 (withinLeaves left written.1 anchored.2.1)
        (withinLeaves right written.2 anchored.2.2)
  | .call _ _ args, written, anchored => by
      rw [Expr.written_call] at written
      rw [Expr.anchored_call] at anchored
      exact withinLeaves_call written.1.unbound anchored.1
        (withinLeavesOfList args written.2 anchored.2)
  | .methodCall _ receiver _ args, written, anchored => by
      rw [Expr.written_methodCall] at written
      rw [Expr.anchored_methodCall] at anchored
      exact withinLeaves_methodCall written.1.unbound anchored.1
        (withinLeaves receiver written.2.1 anchored.2.1)
        (withinLeavesOfList args written.2.2 anchored.2.2)
  | .field _ receiver _, written, anchored => by
      rw [Expr.written_field] at written
      rw [Expr.anchored_field] at anchored
      exact withinLeaves_field written.1.unbound anchored.1
        (withinLeaves receiver written.2 anchored.2)
  | .newInstance .., written, _ => by
      rw [Expr.written_newInstance] at written
      exact withinLeaves_newInstance written.unbound
  | .newArray _ _ length, written, anchored => by
      rw [Expr.written_newArray] at written
      rw [Expr.anchored_newArray] at anchored
      exact withinLeaves_newArray (withinLeaves length written anchored)
  | .index _ base position, written, anchored => by
      rw [Expr.written_index] at written
      rw [Expr.anchored_index] at anchored
      exact withinLeaves_index anchored.1 (withinLeaves base written.1 anchored.2.1)
        (withinLeaves position written.2 anchored.2.2)
  | .array _ items, written, anchored => by
      rw [Expr.written_array] at written
      rw [Expr.anchored_array] at anchored
      exact withinLeaves_array (withinLeavesOfList items written anchored)

theorem withinLeavesOfList :
    ∀ (exprs : List Expr), Expr.WrittenList exprs → Expr.AnchoredList exprs →
      WithinLeavesOfList diagnostic place scopes exprs
  | [], _, _ => Nat.zero_le _
  | first :: rest, written, anchored => by
      rw [Expr.writtenList_cons] at written
      rw [Expr.anchoredList_cons] at anchored
      have here := withinLeaves first written.1 anchored.1
      have later := withinLeavesOfList rest written.2 anchored.2
      rw [WithinLeaves] at here
      rw [WithinLeavesOfList] at later ⊢
      have total : (judgeAll place scopes (first :: rest)).tally diagnostic.tells =
          (judge place scopes first).tally diagnostic.tells +
            (judgeAll place scopes rest).tally diagnostic.tells := by
        simp [judgeAll]
      rw [Expr.leavesOfList, diagnostic.rooms_append, Expr.nodesOfList,
        diagnostic.conversions_append]
      omega

end

end Analysis

end KnightFront
