import KnightFront.Proofs.Identity.Phrases

namespace KnightFront

/-!
# Identities are unique

No identity occurs twice in a program that has been read, and none is one of the
reserved ones.  As long as few enough have been handed out, this is also true of
them as machine words.
-/

namespace Parser

variable {id : NodeId}

attribute [local simp] List.count_cons

/-- The return that closes a body has no identity: the one that was taken for it is
thrown away. -/
theorem allots_functionBody :
    Allots id 0 functionBody fun found =>
      stmtOccurrences id found.1 + occurrences id (found.2.toList.flatMap Return.exprs) := by
  refine Allots.rounds (stmtOccurrences id) _ (fun collected => ?_) []
  refine Idle.currentKind.bind fun kind => ?_
  split
  · exact .pure (Nat.le_of_eq (stmtOccurrences_reverse _))
  · exact .misplaced _
  · refine Allots.freshId.bind fun fresh => ?_
    refine .bind allots_returnClause fun returned => ?_
    refine Idle.currentKind.bind fun next => ?_
    split
    · exact .pure (by simp [roundUses, stmtOccurrences_reverse])
    · refine .pure ?_
      simp [roundUses, stmtOccurrences_cons, Stmt.ids, Stmt.nodes, Stmt.exprs, Stmt.ownIds,
        Stmt.info, occurrences]
      omega
  · refine (allots_bodyItem allots_stmt).bind fun found => .pure ?_
    rw [roundUses, stmtOccurrences_cons]
    omega

theorem allots_function : Allots id 0 function fun decl => decl.ids.count id := by
  refine Allots.freshId.bind fun fresh => ?_
  refine compositional_idle.functionHead.bind fun head => ?_
  refine (Idle.expect .openCurly).bind fun opening => ?_
  refine .bind allots_functionBody fun found => ?_
  refine (Idle.expect .closeCurly).bind fun closing => .pure ?_
  simp [FunctionDecl.ids, FunctionDecl.stmts, FunctionDecl.exprs, stmtOccurrences_eq, occurrences]
  omega

/-- How often an identity occurs in the members of a class. -/
def memberOccurrences (id : NodeId) (members : List VarDecl × List FunctionDecl) : Nat :=
  (members.1.flatMap fun field => field.exprs.flatMap Expr.ids).count id +
    (members.2.flatMap FunctionDecl.ids).count id

theorem allots_classMembers : Allots id 0 classMembers (memberOccurrences id) := by
  refine Allots.rounds (memberOccurrences id) _ (fun collected => ?_) ([], [])
  refine Idle.currentKind.bind fun kind => ?_
  split
  · exact .pure (by simp [roundUses, memberOccurrences, count_flatMap_reverse])
  · refine .bind allots_function fun decl => .pure ?_
    simp [roundUses, memberOccurrences]
    omega
  · refine compositional_idle.startsDeclaration.bind fun starts => ?_
    split
    · refine .bind allots_varDecl fun decl => .pure ?_
      simp [roundUses, memberOccurrences, occurrences]
      omega
    · exact .misplaced _

theorem allots_classDecl :
    Allots id 0 classDecl fun decl => memberOccurrences id (decl.fields, decl.methods) := by
  refine (Idle.expect .classWord).bind fun keyword => ?_
  refine (Idle.expect .identifier).bind fun name => ?_
  refine compositional_idle.parentClause.bind fun parent => ?_
  refine (compositional_idle.nameClause .useWord).bind fun uses => ?_
  refine (Idle.expect .openCurly).bind fun opening => ?_
  refine .bind allots_classMembers fun members => ?_
  exact (Idle.expect .closeCurly).bind fun closing => .pure (by simp)

theorem allots_item : Allots id 0 item fun found => found.ids.count id := by
  refine Idle.currentKind.bind fun kind => ?_
  split
  · exact compositional_idle.inclusion.bind fun decl => .pure (Nat.le_refl 0)
  · exact compositional_idle.enumeration.bind fun decl => .pure (Nat.le_refl 0)
  · exact compositional_idle.interface.bind fun decl => .pure (Nat.le_refl 0)
  · exact .bind allots_classDecl fun decl => .pure (by simp [Item.ids, memberOccurrences])
  · exact .bind allots_function fun decl => .pure (by simp [Item.ids])
  · refine compositional_idle.startsDeclaration.bind fun starts => ?_
    split
    · exact .bind allots_varDecl fun decl => .pure (by simp [Item.ids, occurrences])
    · exact .misplaced _

theorem allots_items : Allots id 0 items fun found => (found.flatMap Item.ids).count id := by
  refine Allots.rounds (fun collected => (collected.flatMap Item.ids).count id) _
    (fun collected => ?_) []
  refine Idle.currentKind.bind fun kind => ?_
  split
  · exact .pure (Nat.le_of_eq (count_flatMap_reverse _ _))
  · refine .bind allots_item fun found => .pure ?_
    simp only [roundUses, List.flatMap_cons, List.count_append]
    omega

end Parser

/-- The identities of functions can be counted apart from those of their statements
and expressions. -/
theorem FunctionDecl.count_ids_list (decls : List FunctionDecl) (id : NodeId) :
    (decls.flatMap FunctionDecl.ids).count id =
      (decls.map FunctionDecl.id).count id +
        ((decls.flatMap stmts).flatMap Stmt.ownIds).count id +
          ((decls.flatMap exprs).flatMap Expr.ids).count id := by
  induction decls with
  | nil => rfl
  | cons first rest inductionHypothesis =>
      simp only [List.flatMap_cons, List.map_cons, List.flatMap_append, List.count_append,
        List.count_cons, FunctionDecl.ids, List.cons_append] at inductionHypothesis ⊢
      omega

theorem Item.count_ids (item : Item) (id : NodeId) :
    item.ids.count id =
      (item.bodies.map FunctionDecl.id).count id +
        ((item.bodies.flatMap FunctionDecl.stmts).flatMap Stmt.ownIds).count id +
          (item.exprs.flatMap Expr.ids).count id := by
  cases item with
  | classDecl decl =>
      have methods := FunctionDecl.count_ids_list decl.methods id
      simp only [ids, bodies, exprs, ClassDecl.exprs, List.flatMap_append, List.flatMap_assoc,
        List.count_append] at methods ⊢
      omega
  | function decl => simpa [ids, bodies, exprs] using FunctionDecl.count_ids_list [decl] id
  | _ => simp [ids, bodies, exprs]

namespace Program

variable {program : Program}

/-- The identities of a file are those of its declarations. -/
theorem count_ids (program : Program) (id : NodeId) :
    program.ids.count id = (program.items.flatMap Item.ids).count id := by
  rcases program with ⟨file, items, scopes⟩
  have nodes (exprs : List Expr) :
      (exprs.flatMap Expr.nodes).map Expr.id = exprs.flatMap Expr.ids :=
    List.map_flatMap
  simp only [ids, bodies, stmts, Program.nodes, Program.exprs, nodes]
  induction items with
  | nil => rfl
  | cons first rest inductionHypothesis =>
      have apart := first.count_ids id
      simp only [List.flatMap_cons, List.map_append, List.flatMap_append, List.count_append]
        at inductionHypothesis ⊢
      omega

/-- How many identities are handed out while a list of tokens is read. -/
def idsHandedOut (tokens : List Token) : Nat :=
  match Parser.items (.ofTokens tokens) with
  | .ok (_, behind) => behind.nextId - Cursor.firstId
  | .error _ => 0

/-- In a program that has been read an identity occurs at most once, and only if it was
handed out. -/
theorem count_ids_of_ofTokens {file : String} {tokens : List Token}
    (read : ofTokens file tokens = .ok program) :
    ∃ next : Nat, idsHandedOut tokens = next - 1024 ∧ ∀ id : Nat,
      program.ids.count id + (if next ≤ id then 1 else 0) ≤ if 1024 ≤ id then 1 else 0 := by
  cases found : Parser.items (.ofTokens tokens) with
  | error failure => simp [ofTokens, found] at read
  | ok outcome =>
      rcases outcome with ⟨items, behind⟩
      have same : program = ⟨file, items, []⟩ := by simpa [ofTokens, found] using read.symm
      refine ⟨behind.nextId, by rw [idsHandedOut, found]; rfl, fun id => ?_⟩
      have within : _ + behind.unused id ≤ 0 + _ :=
        Parser.allots_items (Cursor.ofTokens tokens) items behind found
      rw [Nat.zero_add] at within
      rw [count_ids, same]
      exact within

/-- No identity occurs twice in a program that has been read, none is reserved, and
each is one of those that were handed out.  If fewer than all machine words behind the
reserved ones were handed out, the identities are also distinct as machine words. -/
theorem ids_unique {file : String} {tokens : List Token}
    (read : ofTokens file tokens = .ok program) :
    program.ids.Nodup ∧ (∀ id ∈ program.ids, 1024 ≤ id ∧ id < 1024 + idsHandedOut tokens) ∧
      (idsHandedOut tokens < UInt32.size - 1024 →
        (program.ids.map UInt32.ofNat).Nodup ∧
          ∀ id ∈ program.ids, 1024 ≤ UInt32.ofNat id) := by
  rcases count_ids_of_ofTokens read with ⟨next, handed, within⟩
  have distinct : program.ids.Nodup := by
    refine List.nodup_iff_count.mpr fun (id : Nat) => ?_
    have bound := within id
    split at bound <;> split at bound <;> omega
  have range : ∀ id : Nat, id ∈ program.ids → 1024 ≤ id ∧ id < 1024 + idsHandedOut tokens := by
    intro id among
    have occurs : 0 < program.ids.count id := List.count_pos_iff.mpr among
    have bound := within id
    split at bound <;> split at bound <;> omega
  refine ⟨distinct, range, fun few => ?_⟩
  have word : ∀ id ∈ program.ids, (UInt32.ofNat id).toNat = id := by
    intro (id : Nat) among
    have bound := range id among
    exact UInt32.toNat_ofNat_of_lt' (by omega)
  constructor
  · refine List.pairwise_map.mpr (distinct.imp_of_mem fun first second apart equal => apart ?_)
    rw [← word _ first, equal, word _ second]
  · intro id among
    rw [UInt32.le_iff_toNat_le, word id among]
    exact (range id among).1

/-- The tokens of `fn f(): void { while (a) { b.c(1); } ret; }`. -/
def busyLoop : List Token :=
  [⟨.fnWord, "fn", .nowhere⟩, ⟨.identifier, "f", .nowhere⟩, ⟨.openParen, "(", .nowhere⟩,
    ⟨.closeParen, ")", .nowhere⟩, ⟨.colon, ":", .nowhere⟩, ⟨.voidWord, "void", .nowhere⟩,
    ⟨.openCurly, "\x7b", .nowhere⟩, ⟨.whileWord, "while", .nowhere⟩, ⟨.openParen, "(", .nowhere⟩,
    ⟨.identifier, "a", .nowhere⟩, ⟨.closeParen, ")", .nowhere⟩, ⟨.openCurly, "\x7b", .nowhere⟩,
    ⟨.identifier, "b", .nowhere⟩, ⟨.dot, ".", .nowhere⟩, ⟨.identifier, "c", .nowhere⟩,
    ⟨.openParen, "(", .nowhere⟩, ⟨.number, "1", .nowhere⟩, ⟨.closeParen, ")", .nowhere⟩,
    ⟨.semicolon, ";", .nowhere⟩, ⟨.closeCurly, "\x7d", .nowhere⟩, ⟨.retWord, "ret", .nowhere⟩,
    ⟨.semicolon, ";", .nowhere⟩, ⟨.closeCurly, "\x7d", .nowhere⟩]

/-- Nine identities are handed out, and that of the closing return is thrown away. -/
theorem ids_unique_busyLoop :
    idsHandedOut busyLoop = 9 ∧ 9 < UInt32.size - 1024 ∧ ∃ program, ofTokens "" busyLoop = .ok program ∧
      program.ids.length = 8 ∧ program.ids.Nodup ∧
        (∀ id ∈ program.ids, 1024 ≤ id ∧ id < 1024 + idsHandedOut busyLoop) ∧
          (program.ids.map UInt32.ofNat).Nodup ∧ ∀ id ∈ program.ids, 1024 ≤ UInt32.ofNat id := by
  have handed : idsHandedOut busyLoop = 9 := by decide +kernel
  have size : (ofTokens "" busyLoop).toOption.map (fun program => program.ids.length) = some 8 := by
    decide +kernel
  cases read : ofTokens "" busyLoop with
  | error failure => rw [read] at size; cases size
  | ok program =>
      rw [read] at size
      rcases ids_unique read with ⟨distinct, range, words⟩
      exact ⟨handed, by decide, program, rfl, Option.some.inj size, distinct, range,
        words (by rw [handed]; decide)⟩

end Program

end KnightFront
