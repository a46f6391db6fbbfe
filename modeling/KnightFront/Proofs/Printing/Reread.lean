import KnightFront.Proofs.Tree.Shape

namespace KnightFront
namespace Expr

/-!
# What a printed expression reads back as

Printing puts no parentheses around the receiver of a member.  An index binds
less than a member, so a member behind a printed index is read as a member of
what stands in the bracket.  `reread` says so without printing or reading: it
is the shape that the printed form of an expression has.  It is the shape of
the expression itself exactly when no receiver in it is an index.
-/

/-- Whether an expression is an index. -/
def isIndex : Expr → Bool
  | index .. => true
  | _ => false

/-- Put a member behind an expression as a reader does: behind an index, it
belongs to what stands in the bracket. -/
def behind (member : Expr → Expr) : Expr → Expr
  | index info base position => index info base (member position)
  | receiver => member receiver

mutual

/-- The shape of what the printed form of an expression reads back as. -/
def reread : Expr → Expr
  | int _ value => .int .bare value
  | string _ value => .string .bare value
  | bool _ value => .bool .bare value
  | name _ used => .name .bare used.bare
  | binary _ op left right => .binary .bare op (reread left) (reread right)
  | call _ callee args => .call .bare callee.bare (rereadList args)
  | methodCall _ receiver callee args =>
      behind (fun inner => .methodCall .bare inner callee.bare (rereadList args)) (reread receiver)
  | field _ receiver used => behind (fun inner => .field .bare inner used.bare) (reread receiver)
  | newInstance _ className => .newInstance .bare className.bare
  | newArray _ element length => .newArray .bare element (reread length)
  | index _ base position => .index .bare (reread base) (reread position)
  | array _ items => .array .bare (rereadList items)

/-- The shapes of what the printed forms of several expressions read back as. -/
def rereadList : List Expr → List Expr
  | [] => []
  | first :: rest => reread first :: rereadList rest

end

theorem rereadList_eq_map (exprs : List Expr) : rereadList exprs = exprs.map reread := by
  induction exprs with
  | nil => rfl
  | cons first rest inductionHypothesis => simp [rereadList, inductionHypothesis]

/-- Whether an expression is a member whose receiver is an index. -/
def isMemberOfIndex : Expr → Bool
  | methodCall _ receiver _ _ => receiver.isIndex
  | field _ receiver _ => receiver.isIndex
  | _ => false

/-- Whether no member in an expression has an index for its receiver. -/
def KeepsShape (expr : Expr) : Prop := ∀ node ∈ expr.nodes, node.isMemberOfIndex = false

/-- Whether no member in several expressions has an index for its receiver. -/
def KeepsShapeList (exprs : List Expr) : Prop :=
  ∀ node ∈ nodesOfList exprs, node.isMemberOfIndex = false

theorem isIndex_bare (expr : Expr) : expr.bare.isIndex = expr.isIndex := by
  cases expr <;> rfl

theorem behind_of_isIndex_eq_false {member : Expr → Expr} {receiver : Expr}
    (plain : receiver.isIndex = false) : behind member receiver = member receiver := by
  cases receiver with
  | index => cases plain
  | _ => rfl

/-- Only behind something else than an index does a method call stand as it was
put. -/
theorem behind_eq_methodCall_iff {receiver inner : Expr} {callee : NameUse}
    {args others : List Expr} :
    behind (fun inner => .methodCall .bare inner callee args) receiver =
        .methodCall .bare inner callee others ↔
      receiver.isIndex = false ∧ receiver = inner ∧ args = others := by
  cases receiver <;> simp [behind, isIndex]

/-- Only behind something else than an index does a field stand as it was put. -/
theorem behind_eq_field_iff {receiver inner : Expr} {used : NameUse} :
    behind (fun inner => .field .bare inner used) receiver = .field .bare inner used ↔
      receiver.isIndex = false ∧ receiver = inner := by
  cases receiver <;> simp [behind, isIndex]

theorem isIndex_eq_of_reread_eq_bare {expr : Expr} (same : expr.reread = expr.bare) :
    expr.reread.isIndex = expr.isIndex := by
  rw [same, isIndex_bare]

mutual

/-- An expression keeps its shape in print exactly when no member in it has an
index for its receiver. -/
theorem reread_eq_bare_iff : (expr : Expr) → (expr.reread = expr.bare ↔ expr.KeepsShape)
  | int .. => by simp [reread, bare, KeepsShape, nodes, isMemberOfIndex]
  | string .. => by simp [reread, bare, KeepsShape, nodes, isMemberOfIndex]
  | bool .. => by simp [reread, bare, KeepsShape, nodes, isMemberOfIndex]
  | name .. => by simp [reread, bare, KeepsShape, nodes, isMemberOfIndex]
  | newInstance .. => by simp [reread, bare, KeepsShape, nodes, isMemberOfIndex]
  | binary _ _ left right => by
      simp [reread, bare, reread_eq_bare_iff left, reread_eq_bare_iff right, KeepsShape, nodes,
        isMemberOfIndex, or_imp, forall_and]
  | call _ _ args => by
      simp [reread, bare, rereadList_eq_bareList_iff args, KeepsShape, KeepsShapeList, nodes,
        isMemberOfIndex]
  | methodCall _ receiver callee args => by
      have inner := reread_eq_bare_iff receiver
      have listed := rereadList_eq_bareList_iff args
      simp only [reread, bare, behind_eq_methodCall_iff, inner, listed, KeepsShape, KeepsShapeList,
        nodes, List.forall_mem_cons, List.forall_mem_append, isMemberOfIndex]
      refine and_congr_left fun parts => ?_
      rw [isIndex_eq_of_reread_eq_bare (inner.mpr parts.1)]
  | field _ receiver used => by
      have inner := reread_eq_bare_iff receiver
      simp only [reread, bare, behind_eq_field_iff, inner, KeepsShape, nodes, List.forall_mem_cons,
        isMemberOfIndex]
      refine and_congr_left fun parts => ?_
      rw [isIndex_eq_of_reread_eq_bare (inner.mpr parts)]
  | newArray _ _ length => by
      simp [reread, bare, reread_eq_bare_iff length, KeepsShape, nodes, isMemberOfIndex]
  | index _ base position => by
      simp [reread, bare, reread_eq_bare_iff base, reread_eq_bare_iff position, KeepsShape, nodes,
        isMemberOfIndex, or_imp, forall_and]
  | array _ items => by
      simp [reread, bare, rereadList_eq_bareList_iff items, KeepsShape, KeepsShapeList, nodes,
        isMemberOfIndex]

theorem rereadList_eq_bareList_iff : (exprs : List Expr) →
    (rereadList exprs = bareList exprs ↔ KeepsShapeList exprs)
  | [] => by simp [rereadList, bareList, KeepsShapeList, nodesOfList]
  | first :: rest => by
      simp [rereadList, bareList, reread_eq_bare_iff first, rereadList_eq_bareList_iff rest,
        KeepsShape, KeepsShapeList, nodesOfList, or_imp, forall_and]

end

end Expr

/-- A file keeps its shape in print exactly when no member in it has an index
for its receiver. -/
theorem Program.map_reread_eq_iff (program : Program) :
    program.items.map (Item.bareWith Expr.reread) = program.items.map Item.bare ↔
      ∀ node ∈ program.nodes, node.isMemberOfIndex = false := by
  have rewritten := program.map_bareWith_eq_iff Expr.reread Expr.bare
  simp only [Expr.reread_eq_bare_iff, Expr.KeepsShape] at rewritten
  simp only [nodes, List.mem_flatMap]
  refine rewritten.trans ⟨?_, ?_⟩
  · rintro keeps node ⟨expr, held, inside⟩
    exact keeps expr held node inside
  · intro keeps expr held node inside
    exact keeps node ⟨expr, held, inside⟩

end KnightFront
