import KnightFront.Proofs.Printing.ReadExpr

namespace KnightFront
namespace Expr

/-!
# Trees that can be written down

Every expression tree can be written down, wherever it comes from, if its names
are identifiers, its numbers are not negative or too large and no member in it
has an index for its receiver.  Nothing is asked of identities, spans, types
and bindings: the printed form does not show them, so it is the one of the
bare tree.
-/

/-- Whether the name or number of a node can be written, and its receiver
without parentheses. -/
def ExpressibleNode : Expr → Prop
  | int _ value => 0 ≤ value ∧ value ≤ 9223372036854775807
  | name _ used => IsIdentifier used.text
  | call _ callee _ => IsIdentifier callee.text
  | methodCall _ receiver callee _ => IsIdentifier callee.text ∧ receiver.isIndex = false
  | field _ receiver used => IsIdentifier used.text ∧ receiver.isIndex = false
  | newInstance _ className => IsIdentifier className.text
  | _ => True

/-- An expression that can be written down with its shape. -/
def Expressible (expr : Expr) : Prop := ∀ node ∈ expr.nodes, node.ExpressibleNode

mutual

theorem bare_bare : (expr : Expr) → expr.bare.bare = expr.bare
  | int .. => rfl
  | string .. => rfl
  | bool .. => rfl
  | name .. => rfl
  | binary _ _ left right => by simp only [bare, bare_bare left, bare_bare right]
  | call _ _ args => by simp only [bare, bareList_bareList args, NameUse.bare]
  | methodCall _ receiver _ args => by
      simp only [bare, bare_bare receiver, bareList_bareList args, NameUse.bare]
  | field _ receiver _ => by simp only [bare, bare_bare receiver, NameUse.bare]
  | newInstance .. => rfl
  | newArray _ _ length => by simp only [bare, bare_bare length]
  | index _ base position => by simp only [bare, bare_bare base, bare_bare position]
  | array _ items => by simp only [bare, bareList_bareList items]

theorem bareList_bareList : (exprs : List Expr) → bareList (bareList exprs) = bareList exprs
  | [] => rfl
  | first :: rest => by simp only [bareList, bare_bare first, bareList_bareList rest]

end

mutual

/-- Making a tree bare makes each of its nodes bare. -/
theorem nodes_bare : (expr : Expr) → expr.bare.nodes = expr.nodes.map bare
  | int .. => rfl
  | string .. => rfl
  | bool .. => rfl
  | name .. => rfl
  | binary _ _ left right => by simp [bare, nodes, nodes_bare left, nodes_bare right]
  | call _ _ args => by simp [bare, nodes, nodesOfList_bareList args]
  | methodCall _ receiver _ args => by
      simp [bare, nodes, nodes_bare receiver, nodesOfList_bareList args]
  | field _ receiver _ => by simp [bare, nodes, nodes_bare receiver]
  | newInstance .. => rfl
  | newArray _ _ length => by simp [bare, nodes, nodes_bare length]
  | index _ base position => by simp [bare, nodes, nodes_bare base, nodes_bare position]
  | array _ items => by simp [bare, nodes, nodesOfList_bareList items]

theorem nodesOfList_bareList : (exprs : List Expr) →
    nodesOfList (bareList exprs) = (nodesOfList exprs).map bare
  | [] => rfl
  | first :: rest => by
      simp [bareList, nodesOfList, nodes_bare first, nodesOfList_bareList rest]

end

mutual

/-- The printed form shows nothing but the shape. -/
theorem print_bare : (expr : Expr) → expr.bare.print = expr.print
  | int .. => rfl
  | string .. => rfl
  | bool .. => rfl
  | name .. => rfl
  | binary _ _ left right => by simp only [bare, print, print_bare left, print_bare right]
  | call _ _ args => by simp only [bare, print, printList_bareList args, NameUse.bare]
  | methodCall _ receiver _ args => by
      simp only [bare, print, print_bare receiver, printList_bareList args, NameUse.bare]
  | field _ receiver _ => by simp only [bare, print, print_bare receiver, NameUse.bare]
  | newInstance .. => rfl
  | newArray _ _ length => by simp only [bare, print, print_bare length]
  | index _ base position => by simp only [bare, print, print_bare base, print_bare position]
  | array _ items => by simp only [bare, print, printList_bareList items]

theorem printList_bareList : (exprs : List Expr) → printList (bareList exprs) = printList exprs
  | [] => rfl
  | [only] => by simp only [bareList, printList, print_bare only]
  | first :: second :: rest => by
      have behind := printList_bareList (second :: rest)
      simp only [bareList, printList, print_bare first] at behind ⊢
      rw [behind]

end

theorem writtenNode_bare {node : Expr} (expressible : node.ExpressibleNode) :
    node.bare.WrittenNode := by
  cases node with
  | int => exact expressible
  | methodCall => exact ⟨expressible.1, rfl⟩
  | field => exact ⟨expressible.1, rfl⟩
  | name => exact ⟨expressible, rfl⟩
  | call => exact ⟨expressible, rfl⟩
  | newInstance => exact ⟨expressible, rfl⟩
  | _ => trivial

theorem isMemberOfIndex_bare {node : Expr} (expressible : node.ExpressibleNode) :
    node.bare.isMemberOfIndex = false := by
  cases node with
  | methodCall _ receiver => exact (isIndex_bare receiver).trans expressible.2
  | field _ receiver => exact (isIndex_bare receiver).trans expressible.2
  | _ => rfl

/-- The bare tree of an expression that can be written down is one that source
text can write. -/
theorem Expressible.written_bare {expr : Expr} (expressible : expr.Expressible) :
    expr.bare.Written := by
  rw [Written, nodes_bare, List.forall_mem_map]
  exact fun node inside => writtenNode_bare (expressible node inside)

theorem Expressible.keepsShape_bare {expr : Expr} (expressible : expr.Expressible) :
    expr.bare.KeepsShape := by
  rw [KeepsShape, nodes_bare, List.forall_mem_map]
  exact fun node inside => isMemberOfIndex_bare (expressible node inside)

/-- The printed form of an expression that can be written down is tokenized and
read as an expression, up to the end of input, and what is read has the shape
of that expression. -/
theorem expr_print_of_expressible {expr : Expr} (expressible : expr.Expressible) (file : String) :
    ∃ tokens value behind, tokenize file expr.print = .ok tokens ∧
      Parser.expr (Cursor.ofTokens tokens) = .ok (value, behind) ∧
      behind.remaining = 0 ∧ behind.kind = .eof ∧ value.bare = expr.bare := by
  have written := expressible.written_bare
  have spelled := contents?_print expr.bare written [] boundary_nil
  rw [print_bare, List.append_nil, contents?_nil] at spelled
  obtain ⟨tokens, tokenized, contents⟩ := exists_tokenize_of_contents? spelled file
  have ahead : (Cursor.ofTokens tokens).contents = expr.bare.tokens ++ [] := by
    rw [Cursor.contents_ofTokens contents, List.append_nil]
  obtain ⟨value, behind, read, shape, finished⟩ :=
    yields_expr written (by decide) ahead
  have kept := (reread_eq_bare_iff expr.bare).mpr expressible.keepsShape_bare
  refine ⟨tokens, value, behind, tokenized, read, ?_, ?_, ?_⟩
  · rw [Cursor.remaining_eq, finished, List.length_nil]
  · rw [Cursor.kind_eq, finished]
    rfl
  · rw [shape, kept, bare_bare]

/-- An element of a new array, a text that looks like an escape, and an index
that stands where it needs no parentheses. -/
def crowded : Expr :=
  let info : ExprInfo := ⟨7, .nowhere, some .void⟩
  let used (text : String) : NameUse := ⟨text, .nowhere, none⟩
  .methodCall info
    (.binary info .plus (.index info (.newArray info .int (.int info 3)) (.int info 0))
      (.newInstance info (used "C")))
    (used "f")
    [.string info "\"\\x41", .index info (.field info (.name info (used "a")) (used "b")) (.array info [])]

/-- A tree that no text was read for is written down and read back. -/
theorem expr_print_crowded :
    crowded.Expressible ∧
      ∃ tokens value behind,
        tokenize "some.knight" "(new int[3][0] + new C()).f(\"\\\"\\\\x41\", a.b[[]])" = .ok tokens ∧
          Parser.expr (Cursor.ofTokens tokens) = .ok (value, behind) ∧
          behind.remaining = 0 ∧ behind.kind = .eof ∧ value.bare = crowded.bare := by
  have expressible : crowded.Expressible := by
    have firstName : IsIdentifier "C" := ⟨⟨'C', [], rfl, by decide, by simp⟩, by decide⟩
    have secondName : IsIdentifier "f" := ⟨⟨'f', [], rfl, by decide, by simp⟩, by decide⟩
    have thirdName : IsIdentifier "a" := ⟨⟨'a', [], rfl, by decide, by simp⟩, by decide⟩
    have fourthName : IsIdentifier "b" := ⟨⟨'b', [], rfl, by decide, by simp⟩, by decide⟩
    simp [Expressible, crowded, nodes, nodesOfList, ExpressibleNode, isIndex, firstName, secondName,
      thirdName, fourthName]
  have text : crowded.print = "(new int[3][0] + new C()).f(\"\\\"\\\\x41\", a.b[[]])" := by
    decide +kernel
  exact ⟨expressible, text ▸ expr_print_of_expressible expressible "some.knight"⟩

end Expr
end KnightFront
