import KnightFront.Proofs.Parse.Progress

namespace KnightFront
namespace Parser

/-!
# Progress of statements and declarations

Every statement, declaration and member consumes, wherever its reader is
called.  A reader that looks at a token first and finds no form for it stops
at a fault, so the repetitions of items, members, statements and parameters
read a token in every round.
-/

variable {cursor : Cursor} {nested : Parser Stmt} {limit : Nat}

theorem proceeds_arraySuffix (element : ElementTy) :
    Proceeds (arraySuffix element) cursor fun _ behind =>
      behind.remaining ≤ cursor.remaining := by
  simp only [arraySuffix, proceeds_bind, proceeds_currentKind]
  split
  · simp only [proceeds_bind, proceeds_take, proceeds_expect, proceeds_pure]
    intro _
    exact Nat.le_trans (Cursor.remaining_advance_le _) (Cursor.remaining_advance_le _)
  · exact proceeds_pure.mpr (Nat.le_refl _)

theorem consumes_typeName : Consumes typeName cursor := by
  simp only [Consumes, typeName, proceeds_bind, proceeds_position, proceeds_currentKind]
  have suffix (element : ElementTy) (shorter : cursor.advance.remaining < cursor.remaining) :
      Proceeds (arraySuffix element) cursor.advance fun _ behind =>
        behind.remaining < cursor.remaining :=
    (proceeds_arraySuffix element).mono fun _ _ within => Nat.lt_of_le_of_lt within shorter
  split
  · next found =>
      simpa only [proceeds_bind, proceeds_take, proceeds_spanFrom, proceeds_pure] using
        suffix .int (remaining_advance_lt_of_headKind found (by decide))
  · next found =>
      simpa only [proceeds_bind, proceeds_take, proceeds_spanFrom, proceeds_pure] using
        suffix .string (remaining_advance_lt_of_headKind found (by decide))
  · next found =>
      simpa only [proceeds_bind, proceeds_take, proceeds_spanFrom, proceeds_pure] using
        remaining_advance_lt_of_headKind found (by decide)
  · next found =>
      simpa only [proceeds_bind, proceeds_take, proceeds_spanFrom, proceeds_pure] using
        remaining_advance_lt_of_headKind found (by decide)
  · next found =>
      simpa only [proceeds_bind, proceeds_take, proceeds_spanFrom, proceeds_pure] using
        remaining_advance_lt_of_headKind found (by decide)
  · simp

/-- Looking for the beginning of a declaration reads nothing. -/
theorem proceeds_startsDeclaration :
    Proceeds startsDeclaration cursor fun _ behind => behind = cursor := by
  simp only [startsDeclaration, proceeds_bind, proceeds_currentKind]
  split <;> simp

theorem consumes_varDecl : Consumes varDecl cursor := by
  simp only [Consumes, varDecl, proceeds_bind, proceeds_expect, proceeds_currentKind]
  refine .mono consumes_typeName fun _ behind typed named => ?_
  have name := behind.remaining_advance_le
  split
  · simp only [proceeds_bind, proceeds_take, proceeds_expect, proceeds_pure]
    have sign := behind.advance.remaining_advance_le
    refine (consumes_expr _).mono fun _ further read closed => ?_
    have semicolon := further.remaining_advance_le
    omega
  · simp only [proceeds_bind, proceeds_pure, proceeds_expect]
    intro closed
    have semicolon := behind.advance.remaining_advance_le
    omega

theorem consumes_assignment : Consumes assignment cursor := by
  rw [Consumes, assignment, proceeds_bind, proceeds_position]
  refine consumes_bind_freshId fun id numbered same => ?_
  simp only [Consumes, proceeds_bind, proceeds_expect, proceeds_currentKind]
  intro named
  have name := remaining_advance_lt_of_headKind named (by decide)
  split
  · simp only [proceeds_bind, proceeds_take, proceeds_expect, proceeds_spanFrom, proceeds_pure]
    have opened := numbered.advance.remaining_advance_le
    refine (consumes_expr _).mono fun _ index first closed => ?_
    have bracket := index.remaining_advance_le
    intro assigned
    have sign := index.advance.remaining_advance_le
    exact (consumes_expr _).mono fun _ value second => by omega
  · simp only [proceeds_bind, proceeds_expect, proceeds_spanFrom, proceeds_pure]
    intro assigned
    have sign := numbered.advance.remaining_advance_le
    exact (consumes_expr _).mono fun _ value second => by omega

theorem consumes_returnClause : Consumes returnClause cursor := by
  simp only [Consumes, returnClause, proceeds_bind, proceeds_expect, proceeds_currentKind]
  intro found
  have keyword := remaining_advance_lt_of_headKind found (by decide)
  split
  · simp only [proceeds_bind, proceeds_pure, proceeds_expect, proceeds_spanFrom]
    intro closed
    have semicolon := cursor.advance.remaining_advance_le
    omega
  · simp only [proceeds_bind, proceeds_expect, proceeds_spanFrom, proceeds_pure]
    refine (consumes_expr _).mono fun _ value read closed => ?_
    have semicolon := value.remaining_advance_le
    omega

theorem consumes_returnStmt : Consumes returnStmt cursor := by
  refine consumes_bind_freshId fun id numbered _ => ?_
  simpa only [Consumes, proceeds_bind, proceeds_pure] using consumes_returnClause

theorem consumes_condition : Consumes condition cursor := by
  simp only [Consumes, condition, proceeds_bind, proceeds_expect, proceeds_pure]
  intro found
  have opened := remaining_advance_lt_of_headKind found (by decide)
  refine (consumes_expr _).mono fun _ tested read closed => ?_
  have paren := tested.remaining_advance_le
  omega

theorem consumes_ifStmt (consumes : ConsumesInside nested limit)
    (fits : cursor.remaining ≤ limit) : Consumes (ifStmt nested) cursor := by
  rw [Consumes, ifStmt, proceeds_bind, proceeds_position]
  refine consumes_bind_freshId fun id numbered same => ?_
  simp only [Consumes, proceeds_bind, proceeds_expect, proceeds_currentKind]
  intro found
  have keyword := remaining_advance_lt_of_headKind found (by decide)
  refine .mono consumes_condition fun _ tested first => ?_
  refine (consumes tested (by omega)).mono fun _ body second => ?_
  split
  · simp only [proceeds_bind, proceeds_take, proceeds_spanFrom, proceeds_pure]
    have elseWord := body.remaining_advance_le
    exact (consumes _ (by omega)).mono fun _ alternative third => by omega
  · simp only [proceeds_bind, proceeds_spanFrom, proceeds_pure]
    omega

theorem consumes_whileStmt (consumes : ConsumesInside nested limit)
    (fits : cursor.remaining ≤ limit) : Consumes (whileStmt nested) cursor := by
  rw [Consumes, whileStmt, proceeds_bind, proceeds_position]
  refine consumes_bind_freshId fun id numbered same => ?_
  simp only [Consumes, proceeds_bind, proceeds_expect, proceeds_spanFrom, proceeds_pure]
  intro found
  have keyword := remaining_advance_lt_of_headKind found (by decide)
  refine .mono consumes_condition fun _ tested first => ?_
  exact (consumes tested (by omega)).mono fun _ body second => by omega

theorem consumes_forStmt (consumes : ConsumesInside nested limit)
    (fits : cursor.remaining ≤ limit) : Consumes (forStmt nested) cursor := by
  rw [Consumes, forStmt, proceeds_bind, proceeds_position]
  refine consumes_bind_freshId fun id numbered same => ?_
  simp only [Consumes, proceeds_bind, proceeds_expect]
  intro found opened
  have keyword := remaining_advance_lt_of_headKind found (by decide)
  have paren := numbered.advance.remaining_advance_le
  refine .mono proceeds_startsDeclaration fun starts behind unread => ?_
  subst unread
  split
  · simp
  simp only [proceeds_bind, proceeds_expect, proceeds_currentKind]
  refine .mono consumes_varDecl fun _ declared first => ?_
  refine (consumes_expr _).mono fun _ tested second closed => ?_
  have semicolon := tested.remaining_advance_le
  split
  · simp
  simp only [proceeds_bind, proceeds_expect, proceeds_spanFrom, proceeds_pure]
  refine .mono consumes_assignment fun _ updated third ended => ?_
  have closing := updated.remaining_advance_le
  exact (consumes _ (by omega)).mono fun _ body fourth => by omega

theorem consumes_nameStmt : Consumes nameStmt cursor := by
  simp only [Consumes, nameStmt, proceeds_bind, proceeds_nextKind]
  split
  · simp only [proceeds_bind, proceeds_expect, proceeds_spanFrom, proceeds_pure]
    refine .mono consumes_assignment fun _ assigned first closed => ?_
    have semicolon := assigned.remaining_advance_le
    omega
  rw [proceeds_bind, proceeds_position]
  refine consumes_bind_freshId fun id numbered same => ?_
  simp only [Consumes, proceeds_bind, proceeds_currentKind]
  refine (consumes_expr _).mono fun value behind first => ?_
  have sign := behind.remaining_advance_le
  split
  · split
    · simp only [proceeds_bind, proceeds_take, proceeds_expect, proceeds_spanFrom, proceeds_pure]
      refine (consumes_expr _).mono fun _ assigned second closed => ?_
      have semicolon := assigned.remaining_advance_le
      omega
    · simp
  split
  · simp only [proceeds_bind, proceeds_expect, proceeds_spanFrom, proceeds_pure]
    intro closed
    omega
  · simp

/-- An item of a body is told by its first token, so it may be read at the
limit. -/
theorem consumes_bodyItem (consumes : Consumes nested cursor) :
    Consumes (bodyItem nested) cursor := by
  rw [Consumes, bodyItem, proceeds_bind]
  refine .mono proceeds_startsDeclaration fun starts behind unread => ?_
  subst unread
  split
  · rw [proceeds_bind, proceeds_position]
    refine consumes_bind_freshId fun id numbered same => ?_
    simpa only [Consumes, proceeds_bind, proceeds_spanFrom, proceeds_pure] using consumes_varDecl
  · exact consumes

theorem consumes_blockStmt (consumes : ConsumesInside nested limit)
    (fits : cursor.remaining ≤ limit) : Consumes (blockStmt nested) cursor := by
  rw [Consumes, blockStmt, proceeds_bind, proceeds_position]
  refine consumes_bind_freshId fun id numbered same => ?_
  simp only [Consumes, proceeds_bind, proceeds_expect, proceeds_spanFrom, proceeds_pure]
  intro found
  have opened := remaining_advance_lt_of_headKind found (by decide)
  refine Proceeds.mono (show Proceeds _ _ fun _ behind => behind.remaining < numbered.remaining from
    proceeds_rounds (fun _ inner => inner.remaining < numbered.remaining)
      (fun collected inner within => ?_) opened) fun _ behind facts closed => ?_
  · simp only [proceeds_bind, proceeds_currentKind]
    split
    · simpa only [proceeds_pure, RoundProceeds] using within
    · simp
    · simp only [proceeds_bind, proceeds_pure, RoundProceeds]
      exact (consumes_bodyItem (consumes inner (by omega))).mono fun _ further shorter => by omega
  · have brace := behind.remaining_advance_le
    omega

theorem consumes_stmtLevel (consumes : ConsumesInside nested cursor.remaining) :
    Consumes (stmtLevel nested) cursor := by
  simp only [Consumes, stmtLevel, proceeds_bind, proceeds_currentKind]
  split
  · exact consumes_ifStmt consumes (Nat.le_refl _)
  · exact consumes_whileStmt consumes (Nat.le_refl _)
  · exact consumes_forStmt consumes (Nat.le_refl _)
  · exact consumes_returnStmt
  · exact consumes_blockStmt consumes (Nat.le_refl _)
  · exact consumes_nameStmt
  · simp

/-- A statement is read or the text is at fault, at every cursor. -/
theorem consumes_stmt (cursor : Cursor) : Consumes stmt cursor :=
  consumes_nesting (fun _ _ consumes => consumes_stmtLevel consumes) cursor

/-! ## Functions -/

theorem consumes_param : Consumes param cursor := by
  simp only [Consumes, param, proceeds_bind, proceeds_expect, proceeds_pure]
  refine .mono consumes_typeName fun _ behind typed named => ?_
  have name := behind.remaining_advance_le
  omega

theorem consumes_params : Consumes params cursor := by
  simp only [Consumes, params, proceeds_bind, proceeds_expect, proceeds_pure]
  intro found
  have opened := remaining_advance_lt_of_headKind found (by decide)
  have everywhere : ConsumesInside param cursor.remaining := fun inner _ => consumes_param
  refine (everywhere.listUpTo opened .closeParen).mono fun _ behind within closed => ?_
  have paren := behind.remaining_advance_le
  omega

theorem consumes_functionHead : Consumes functionHead cursor := by
  simp only [Consumes, functionHead, proceeds_bind, proceeds_expect, proceeds_pure]
  intro found named
  have keyword := remaining_advance_lt_of_headKind found (by decide)
  have name := cursor.advance.remaining_advance_le
  refine .mono consumes_params fun _ listed within separated => ?_
  have colon := listed.remaining_advance_le
  exact .mono consumes_typeName fun _ typed last => by omega

theorem proceeds_functionBody :
    Proceeds functionBody cursor fun _ behind => behind.remaining ≤ cursor.remaining := by
  refine proceeds_rounds (fun _ inner => inner.remaining ≤ cursor.remaining)
    (fun collected inner within => ?_) (Nat.le_refl _)
  simp only [proceeds_bind, proceeds_currentKind]
  split
  · simpa only [proceeds_pure, RoundProceeds] using within
  · simp
  · simp only [proceeds_bind, proceeds_freshId, proceeds_currentKind]
    refine .mono consumes_returnClause fun _ behind read => ?_
    replace read : behind.remaining < inner.remaining := read
    split
    · simp only [proceeds_pure, RoundProceeds]
      omega
    · simp only [proceeds_pure, RoundProceeds]
      omega
  · simp only [proceeds_bind, proceeds_pure, RoundProceeds]
    exact (consumes_bodyItem (consumes_stmt inner)).mono fun _ behind read => by omega

theorem consumes_function : Consumes function cursor := by
  refine consumes_bind_freshId fun id numbered same => ?_
  simp only [Consumes, proceeds_bind, proceeds_expect, proceeds_pure]
  refine .mono consumes_functionHead fun _ headed first opened => ?_
  have brace := headed.remaining_advance_le
  refine .mono proceeds_functionBody fun _ behind second closed => ?_
  have closing := behind.remaining_advance_le
  omega

theorem consumes_inclusion : Consumes inclusion cursor := by
  simp only [Consumes, inclusion, proceeds_bind, proceeds_expect, proceeds_spanFrom, proceeds_pure]
  intro found opened named closed
  have advanced := Cursor.remaining_advance_le
  exact Nat.lt_of_le_of_lt (Nat.le_trans (advanced _) (Nat.le_trans (advanced _) (advanced _)))
    (remaining_advance_lt_of_headKind found (by decide))

theorem proceeds_enumMembers :
    Proceeds enumMembers cursor fun _ behind => behind.remaining ≤ cursor.remaining := by
  refine proceeds_rounds (fun _ inner => inner.remaining ≤ cursor.remaining)
    (fun collected inner within => ?_) (Nat.le_refl _)
  simp only [proceeds_bind, proceeds_currentKind]
  split
  · next found =>
      have name := remaining_advance_lt_of_headKind found (by decide)
      have comma := inner.advance.remaining_advance_le
      simp only [proceeds_bind, proceeds_take, proceeds_currentKind]
      split
      · simp only [proceeds_bind, proceeds_take, proceeds_pure, RoundProceeds]
        omega
      · simp only [proceeds_pure, RoundProceeds]
        omega
  · simpa only [proceeds_pure, RoundProceeds] using within

theorem consumes_enumeration : Consumes enumeration cursor := by
  simp only [Consumes, enumeration, proceeds_bind, proceeds_expect, proceeds_pure]
  intro found named opened
  have keyword := remaining_advance_lt_of_headKind found (by decide)
  have name := cursor.advance.remaining_advance_le
  have brace := cursor.advance.advance.remaining_advance_le
  refine .mono proceeds_enumMembers fun _ behind within closed => ?_
  have closing := behind.remaining_advance_le
  omega

theorem consumes_nameUse : Consumes nameUse cursor := by
  simp only [Consumes, nameUse, proceeds_bind, proceeds_expect, proceeds_pure]
  exact fun found => remaining_advance_lt_of_headKind found (by decide)

theorem proceeds_nameClause (keyword : TokenKind) :
    Proceeds (nameClause keyword) cursor fun _ behind =>
      behind.remaining ≤ cursor.remaining := by
  simp only [nameClause, proceeds_bind, proceeds_currentKind]
  split
  · simp only [proceeds_bind, proceeds_take]
    have word := cursor.remaining_advance_le
    have everywhere : ConsumesInside nameUse (cursor.advance.remaining + 1) :=
      fun inner _ => consumes_nameUse
    exact (everywhere.commaSeparated (by omega)).mono fun _ behind shorter => by omega
  · exact proceeds_pure.mpr (Nat.le_refl _)

theorem proceeds_interfaceMethods :
    Proceeds interfaceMethods cursor fun _ behind => behind.remaining ≤ cursor.remaining := by
  refine proceeds_rounds (fun _ inner => inner.remaining ≤ cursor.remaining)
    (fun collected inner within => ?_) (Nat.le_refl _)
  simp only [proceeds_bind, proceeds_currentKind]
  split
  · simp only [proceeds_bind, proceeds_expect, proceeds_pure, RoundProceeds]
    refine .mono consumes_functionHead fun _ behind read closed => ?_
    have semicolon := behind.remaining_advance_le
    omega
  · simpa only [proceeds_pure, RoundProceeds] using within

theorem consumes_interface : Consumes interface cursor := by
  simp only [Consumes, interface, proceeds_bind, proceeds_expect, proceeds_pure]
  intro found named
  have keyword := remaining_advance_lt_of_headKind found (by decide)
  have name := cursor.advance.remaining_advance_le
  refine (proceeds_nameClause .extWord).mono fun _ behind first opened => ?_
  have brace := behind.remaining_advance_le
  refine .mono proceeds_interfaceMethods fun _ further second closed => ?_
  have closing := further.remaining_advance_le
  omega

theorem proceeds_parentClause :
    Proceeds parentClause cursor fun _ behind => behind.remaining ≤ cursor.remaining := by
  simp only [parentClause, proceeds_bind, proceeds_currentKind]
  split
  · simp only [proceeds_bind, proceeds_take, proceeds_pure]
    have word := cursor.remaining_advance_le
    exact .mono consumes_nameUse fun _ behind shorter => by omega
  · exact proceeds_pure.mpr (Nat.le_refl _)

theorem proceeds_classMembers :
    Proceeds classMembers cursor fun _ behind => behind.remaining ≤ cursor.remaining := by
  refine proceeds_rounds (fun _ inner => inner.remaining ≤ cursor.remaining)
    (fun collected inner within => ?_) (Nat.le_refl _)
  simp only [proceeds_bind, proceeds_currentKind]
  split
  · simpa only [proceeds_pure, RoundProceeds] using within
  · simp only [proceeds_bind, proceeds_pure, RoundProceeds]
    exact .mono consumes_function fun _ behind read => by omega
  · simp only [proceeds_bind]
    refine .mono proceeds_startsDeclaration fun starts behind unread => ?_
    subst unread
    split
    · simp only [proceeds_bind, proceeds_pure, RoundProceeds]
      exact .mono consumes_varDecl fun _ further read => by omega
    · simp

theorem consumes_classDecl : Consumes classDecl cursor := by
  simp only [Consumes, classDecl, proceeds_bind, proceeds_expect, proceeds_pure]
  intro found named
  have keyword := remaining_advance_lt_of_headKind found (by decide)
  have name := cursor.advance.remaining_advance_le
  refine .mono proceeds_parentClause fun _ behind first => ?_
  refine (proceeds_nameClause .useWord).mono fun _ used second opened => ?_
  have brace := used.remaining_advance_le
  refine .mono proceeds_classMembers fun _ further third closed => ?_
  have closing := further.remaining_advance_le
  omega

theorem consumes_item (cursor : Cursor) : Consumes item cursor := by
  simp only [Consumes, item, proceeds_bind, proceeds_currentKind]
  split
  · simpa only [Consumes, proceeds_bind, proceeds_pure] using consumes_inclusion
  · simpa only [Consumes, proceeds_bind, proceeds_pure] using consumes_enumeration
  · simpa only [Consumes, proceeds_bind, proceeds_pure] using consumes_interface
  · simpa only [Consumes, proceeds_bind, proceeds_pure] using consumes_classDecl
  · simpa only [Consumes, proceeds_bind, proceeds_pure] using consumes_function
  · simp only [proceeds_bind]
    refine .mono proceeds_startsDeclaration fun starts behind unread => ?_
    subst unread
    split
    · simpa only [Consumes, proceeds_bind, proceeds_pure] using consumes_varDecl
    · simp

theorem proceeds_items (cursor : Cursor) : Proceeds items cursor fun _ _ => True := by
  refine proceeds_rounds (fun _ _ => True) (fun collected inner _ => ?_) trivial
  simp only [proceeds_bind, proceeds_currentKind]
  split
  · exact proceeds_pure.mpr trivial
  · simp only [proceeds_bind, proceeds_pure, RoundProceeds, and_true]
    exact consumes_item inner

end Parser

/-- Every list of tokens is a program or has a first fault. -/
theorem Program.ofTokens_isOk_or_fault (file : String) (tokens : List Token) :
    (∃ program, Program.ofTokens file tokens = .ok program) ∨
      ∃ fault, Program.ofTokens file tokens = .error (.fault fault) := by
  rcases (Parser.proceeds_items (.ofTokens tokens)).isOk_or_fault with
    ⟨items, behind, read⟩ | ⟨fault, stopped⟩
  · exact .inl ⟨{ file, items }, by simp [Program.ofTokens, read]⟩
  · exact .inr ⟨fault, by simp [Program.ofTokens, stopped]⟩

end KnightFront
