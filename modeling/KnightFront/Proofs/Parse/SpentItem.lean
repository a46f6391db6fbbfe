import KnightFront.Parse.Item
import KnightFront.Proofs.Parse.SpentStmt
import Mathlib.Data.List.Nodup

namespace KnightFront

/-!
# Tokens spent on declarations

All that a file declares and mentions are tokens of it, each counted once.  The
tokens of a text stand at different places, so no place occurs twice among what a
file that has been read declares and mentions.
-/

namespace Parser

variable {place : Position} {cursor : Cursor}

/-- What a declaration at the top level declares and mentions. -/
def itemMarks (item : Item) : List Position := item.declares ++ item.mentions

/-- The expressions in a declaration are anchored. -/
def AnchoredItem (item : Item) : Prop := ∀ expr ∈ item.exprs, expr.Anchored

/-- A phrase without places of its own spends tokens at most. -/
theorem ensures_ahead_of_passes {α : Type} (place : Position) {parser : Parser α}
    (passes : Passes parser) :
    Ensures parser cursor fun _ behind => behind.ahead place ≤ cursor.ahead place :=
  (passes [] cursor).mono fun _ _ order => order.count_le place

attribute [local simp] List.count_cons

theorem spends_param (place : Position) :
    Spends place param (fun param => [param.span.start, param.tySpan.start]) fun _ => True := by
  intro cursor
  simp only [param, ensures_bind]
  refine (spends_typeName place cursor).mono fun typed behind facts => ?_
  have type := facts.2
  simp only [ensures_expect, ensures_pure]
  intro kind
  have name := behind.ahead_eq place (kind ▸ by decide)
  simp at type name ⊢
  omega

theorem count_params (place : Position) (params : List Param) :
    (params.flatMap fun param => [param.span.start, param.tySpan.start]).count place =
      (params.map fun param => param.span.start).count place +
        (params.map fun param => param.tySpan.start).count place := by
  induction params with
  | nil => rfl
  | cons first rest inductionHypothesis =>
      simp [inductionHypothesis]
      omega

theorem spends_functionHead (place : Position) :
    Spends place functionHead (fun head => head.declares ++ head.mentions) fun _ => True := by
  intro cursor
  simp only [functionHead, params, ensures_bind, ensures_expect]
  intro _ kind _
  have keyword := cursor.ahead_advance_le place
  have name := cursor.advance.ahead_eq place (kind ▸ by decide)
  have opened := cursor.advance.advance.ahead_advance_le place
  refine ((spends_param place).listUpTo _ _).mono fun found behind facts => ?_
  have spent := facts.2
  simp only [ensures_pure, count_params] at spent ⊢
  intro _ _
  have closed := behind.ahead_advance_le place
  have colon := behind.advance.ahead_advance_le place
  refine (spends_typeName place _).mono fun returned further inner => ?_
  have type := inner.2
  simp [FunctionHead.declares, FunctionHead.mentions] at name type ⊢
  omega

/-- What the body of a function and the return that closes it hold. -/
theorem spends_functionBody (place : Position) (cursor : Cursor) :
    Ensures functionBody cursor fun found behind =>
      (∀ stmt ∈ found.1, AnchoredStmt stmt) ∧
        (∀ returned ∈ found.2, ∀ expr ∈ returned.exprs, expr.Anchored) ∧
          (found.1.flatMap stmtMarks).count place +
              (found.2.toList.flatMap Return.mentions).count place + behind.ahead place ≤
            cursor.ahead place := by
  refine ensures_rounds
    (fun collected inner => (∀ stmt ∈ collected, AnchoredStmt stmt) ∧
      (collected.flatMap stmtMarks).count place + inner.ahead place ≤ cursor.ahead place) ?_
    ⟨by simp, by simp⟩
  rintro collected inner ⟨held, within⟩
  have inOrder : (collected.reverse.flatMap stmtMarks).count place =
      (collected.flatMap stmtMarks).count place :=
    ((List.reverse_perm collected).flatMap_right stmtMarks).count_eq place
  have heldInOrder : ∀ stmt ∈ collected.reverse, AnchoredStmt stmt :=
    fun stmt member => held stmt (List.mem_reverse.mp member)
  simp only [ensures_bind, ensures_currentKind]
  split
  · rw [ensures_pure]
    exact ⟨heldInOrder, by simp, by simpa [inOrder] using within⟩
  · simp
  · simp only [ensures_bind, ensures_freshId]
    refine (spends_returnClause place _).mono fun returned behind facts => ?_
    have spent : returned.mentions.count place + behind.ahead place ≤ inner.ahead place := facts.2
    simp only [ensures_currentKind]
    split
    · rw [ensures_pure]
      refine ⟨heldInOrder, fun _ same => Option.some.inj same ▸ facts.1, ?_⟩
      simp only [inOrder, Option.toList_some, List.flatMap_singleton]
      omega
    · rw [ensures_pure]
      refine ⟨List.forall_mem_cons.mpr ⟨facts.1, held⟩, ?_⟩
      rw [List.flatMap_cons, List.count_append]
      have marks (info : StmtInfo) : stmtMarks (.ret info returned) = returned.mentions := rfl
      rw [marks]
      omega
  · simp only [ensures_bind, ensures_pure]
    refine (SpendsMarks.bodyItem (spends_stmt place) inner).mono fun stmt behind facts => ?_
    rcases facts with ⟨anchored, spent⟩
    refine ⟨List.forall_mem_cons.mpr ⟨anchored, held⟩, ?_⟩
    rw [List.flatMap_cons, List.count_append]
    omega

theorem spends_function (place : Position) :
    Spends place function (fun decl => decl.declares ++ decl.mentions)
      fun decl => ∀ expr ∈ decl.exprs, expr.Anchored := by
  intro cursor
  simp only [function, ensures_bind, ensures_freshId]
  refine (spends_functionHead place _).mono fun head behind facts => ?_
  have spent : (head.declares ++ head.mentions).count place + behind.ahead place ≤
      cursor.ahead place := facts.2
  simp only [ensures_expect]
  intro _
  have opened := behind.ahead_advance_le place
  refine (spends_functionBody place _).mono fun found further inner => ?_
  rcases inner with ⟨anchored, closing, body⟩
  simp only [ensures_pure]
  intro _
  have closed := further.ahead_advance_le place
  refine ⟨List.forall_mem_append.mpr ⟨anchored_exprsOfList.mpr anchored, fun expr member => ?_⟩, ?_⟩
  · rcases List.mem_flatMap.mp member with ⟨returned, present, inside⟩
    exact closing returned (Option.mem_toList.mp present) expr inside
  · rw [← count_stmtsMarks, stmtsMarks, flatMap_stmtPlaces] at body
    simp [FunctionDecl.declares, FunctionDecl.mentions, FunctionDecl.localPlaces,
      FunctionDecl.localDecls, FunctionDecl.stmts, FunctionHead.declares] at body spent ⊢
    omega

/-! ## Enumerations, interfaces and classes -/

theorem spends_enumMembers (place : Position) :
    Spends place enumMembers (fun members => members.map fun member => member.2.start)
      fun _ => True := by
  intro cursor
  refine ensures_rounds
    (fun collected inner =>
      ((collected.map fun member => member.2.start).count place + inner.ahead place ≤
        cursor.ahead place)) ?_ (by simp)
  intro collected inner within
  have inOrder (members : List (String × Span)) :
      (members.reverse.map fun member => member.2.start).count place =
        (members.map fun member => member.2.start).count place :=
    ((List.reverse_perm members).map _).count_eq place
  simp only [ensures_bind, ensures_currentKind]
  split
  · next kind =>
      have name := inner.ahead_eq place (kind ▸ by decide)
      have comma := inner.advance.ahead_advance_le place
      simp only [ensures_bind, ensures_take, ensures_currentKind]
      split
      · simp only [ensures_bind, ensures_take, ensures_pure]
        simp at name ⊢
        omega
      · simp only [ensures_pure, inOrder, true_and]
        simp at name ⊢
        omega
  · simpa only [ensures_pure, inOrder, true_and] using within

theorem spends_enumeration (place : Position) :
    Spends place enumeration (fun decl => decl.members.map fun member => member.2.start)
      fun _ => True := by
  intro cursor
  simp only [enumeration, ensures_bind, ensures_expect]
  intro _ _ _
  have keyword := cursor.ahead_advance_le place
  have name := cursor.advance.ahead_advance_le place
  have opened := cursor.advance.advance.ahead_advance_le place
  refine (spends_enumMembers place _).mono fun members behind facts => ?_
  have spent := facts.2
  simp only [ensures_pure] at spent ⊢
  intro _
  have closed := behind.ahead_advance_le place
  exact ⟨trivial, by omega⟩

theorem spends_nameUse (place : Position) :
    Spends place nameUse (fun used => [used.span.start]) fun _ => True := by
  intro cursor
  simp only [nameUse, ensures_bind, ensures_expect, ensures_pure]
  intro kind
  exact ⟨trivial, Nat.le_of_eq (cursor.ahead_eq place (kind ▸ by decide)).symm⟩

theorem spends_nameClause (place : Position) (keyword : TokenKind) :
    Spends place (nameClause keyword) (fun names => names.map fun used => used.span.start)
      fun _ => True := by
  intro cursor
  simp only [nameClause, ensures_bind, ensures_currentKind]
  split
  · simp only [ensures_bind, ensures_take]
    have word := cursor.ahead_advance_le place
    refine ((spends_nameUse place).commaSeparated _).mono fun names behind facts => ?_
    have spent := facts.2
    simp only [← List.map_eq_flatMap] at spent
    exact ⟨trivial, Nat.le_trans spent word⟩
  · simp

theorem spends_interfaceMethods (place : Position) :
    Spends place interfaceMethods
      (fun heads => heads.flatMap fun head => head.declares ++ head.mentions) fun _ => True := by
  intro cursor
  refine ensures_rounds
    (fun collected inner =>
      ((collected.flatMap fun head => head.declares ++ head.mentions).count place +
        inner.ahead place ≤ cursor.ahead place)) ?_ (by simp)
  intro collected inner within
  simp only [ensures_bind, ensures_currentKind]
  split
  · simp only [ensures_bind]
    refine (spends_functionHead place _).mono fun head behind facts => ?_
    have spent := facts.2
    simp only [ensures_expect, ensures_pure] at spent ⊢
    intro _
    have closed := behind.ahead_advance_le place
    rw [List.flatMap_cons, List.count_append]
    omega
  · rw [ensures_pure]
    refine ⟨trivial, ?_⟩
    rw [((List.reverse_perm collected).flatMap_right _).count_eq]
    exact within

/-- What is declared and mentioned member by member, counted apart. -/
theorem count_flatMap_append {α : Type} (place : Position) (first second : α → List Position)
    (list : List α) :
    (list.flatMap fun member => first member ++ second member).count place =
      (list.flatMap first).count place + (list.flatMap second).count place := by
  induction list with
  | nil => rfl
  | cons member rest inductionHypothesis =>
      simp only [List.flatMap_cons, List.count_append, inductionHypothesis]
      omega

theorem spends_interface (place : Position) :
    Spends place interface (fun decl => itemMarks (.interface decl)) fun _ => True := by
  intro cursor
  simp only [interface, ensures_bind, ensures_expect]
  intro _ kind
  have keyword := cursor.ahead_advance_le place
  have name := cursor.advance.ahead_eq place (kind ▸ by decide)
  refine (spends_nameClause place _ _).mono fun bases behind facts => ?_
  have extended := facts.2
  intro _
  have opened := behind.ahead_advance_le place
  refine (spends_interfaceMethods place _).mono fun methods further inner => ?_
  have spent := inner.2
  simp only [ensures_pure]
  intro _
  have closed := further.ahead_advance_le place
  simp only [count_flatMap_append] at spent
  simp [itemMarks, Item.declares, Item.mentions] at name extended ⊢
  omega

theorem spends_parentClause (place : Position) :
    Spends place parentClause (fun parent => parent.toList.map fun used => used.span.start)
      fun _ => True := by
  intro cursor
  simp only [parentClause, ensures_bind, ensures_currentKind]
  split
  · simp only [ensures_bind, ensures_take, ensures_pure]
    have word := cursor.ahead_advance_le place
    exact (spends_nameUse place _).mono fun parent behind facts =>
      ⟨trivial, Nat.le_trans facts.2 word⟩
  · simp

/-- What the fields and methods of a class declare and mention. -/
def membersMarks (members : List VarDecl × List FunctionDecl) : List Position :=
  (members.1.flatMap fun field => field.nameSpan.start :: field.mentions) ++
    members.2.flatMap fun method => method.declares ++ method.mentions

/-- The expressions in the fields and methods of a class are anchored. -/
structure AnchoredMembers (members : List VarDecl × List FunctionDecl) : Prop where
  fields : ∀ field ∈ members.1, ∀ expr ∈ field.exprs, expr.Anchored
  methods : ∀ method ∈ members.2, ∀ expr ∈ method.exprs, expr.Anchored

theorem spends_classMembers (place : Position) :
    Spends place classMembers membersMarks AnchoredMembers := by
  intro cursor
  refine ensures_rounds
    (fun collected inner => AnchoredMembers collected ∧
      (membersMarks collected).count place + inner.ahead place ≤ cursor.ahead place) ?_
    ⟨⟨by simp, by simp⟩, by simp [membersMarks]⟩
  rintro ⟨fields, methods⟩ inner ⟨held, within⟩
  simp only [ensures_bind, ensures_currentKind]
  split
  · rw [ensures_pure]
    refine ⟨⟨fun field member => held.fields field (List.mem_reverse.mp member),
      fun method member => held.methods method (List.mem_reverse.mp member)⟩, ?_⟩
    have reordered : (membersMarks (fields.reverse, methods.reverse)).Perm
        (membersMarks (fields, methods)) :=
      ((List.reverse_perm fields).flatMap_right _).append
        ((List.reverse_perm methods).flatMap_right _)
    rw [reordered.count_eq]
    exact within
  · simp only [ensures_bind, ensures_pure]
    refine (spends_function place _).mono fun method behind facts => ?_
    have spent := facts.2
    refine ⟨⟨held.fields, List.forall_mem_cons.mpr ⟨facts.1, held.methods⟩⟩, ?_⟩
    simp only [membersMarks, List.flatMap_cons, List.count_append] at within spent ⊢
    omega
  · simp only [ensures_bind]
    refine (ensures_startsDeclaration _).mono fun declares same sameCursor => ?_
    subst sameCursor
    split
    · simp only [ensures_bind, ensures_pure]
      refine (spends_varDecl place _).mono fun field behind facts => ?_
      have spent := facts.2
      refine ⟨⟨List.forall_mem_cons.mpr ⟨facts.1, held.fields⟩, held.methods⟩, ?_⟩
      simp only [membersMarks, List.flatMap_cons, List.count_append] at within spent ⊢
      omega
    · simp

theorem spends_classDecl (place : Position) :
    Spends place classDecl (fun decl => itemMarks (.classDecl decl))
      fun decl => AnchoredItem (.classDecl decl) := by
  intro cursor
  simp only [classDecl, ensures_bind, ensures_expect]
  intro _ kind
  have keyword := cursor.ahead_advance_le place
  have name := cursor.advance.ahead_eq place (kind ▸ by decide)
  refine (spends_parentClause place _).mono fun parent first facts => ?_
  have extended := facts.2
  refine (spends_nameClause place _ _).mono fun uses second facts => ?_
  have used := facts.2
  intro _
  have opened := second.ahead_advance_le place
  refine (spends_classMembers place _).mono fun members further inner => ?_
  rcases inner with ⟨anchored, spent⟩
  simp only [ensures_pure]
  intro _
  have closed := further.ahead_advance_le place
  refine ⟨?_, ?_⟩
  · intro expr member
    rcases List.mem_append.mp member with inField | inMethod
    · rcases List.mem_flatMap.mp inField with ⟨field, present, inside⟩
      exact anchored.fields field present expr inside
    · rcases List.mem_flatMap.mp inMethod with ⟨method, present, inside⟩
      exact anchored.methods method present expr inside
  · have fields := count_flatMap_append place (fun field : VarDecl => [field.nameSpan.start])
      VarDecl.mentions members.1
    simp only [List.singleton_append, ← List.map_eq_flatMap] at fields
    simp only [membersMarks, List.count_append, fields, count_flatMap_append] at spent
    simp [itemMarks, Item.declares, Item.mentions] at name extended used ⊢
    omega

theorem spends_item (place : Position) : Spends place item itemMarks AnchoredItem := by
  intro cursor
  simp only [item, ensures_bind, ensures_currentKind]
  split
  · simp only [ensures_bind, ensures_pure]
    refine (ensures_ahead_of_passes place compositional_passes.inclusion).mono fun decl behind spent => ?_
    exact ⟨fun _ member => absurd member List.not_mem_nil, by
      simpa [itemMarks, Item.declares, Item.mentions] using spent⟩
  · simp only [ensures_bind, ensures_pure]
    refine (spends_enumeration place _).mono fun decl behind facts => ?_
    exact ⟨fun _ member => absurd member List.not_mem_nil, by
      simpa [itemMarks, Item.declares, Item.mentions] using facts.2⟩
  · simp only [ensures_bind, ensures_pure]
    refine (spends_interface place _).mono fun decl behind facts => ?_
    exact ⟨fun _ member => absurd member List.not_mem_nil, facts.2⟩
  · simp only [ensures_bind, ensures_pure]
    exact spends_classDecl place _
  · simp only [ensures_bind, ensures_pure]
    exact spends_function place _
  · simp only [ensures_bind]
    refine (ensures_startsDeclaration _).mono fun declares same sameCursor => ?_
    subst sameCursor
    split
    · simp only [ensures_bind, ensures_pure]
      exact spends_varDecl place _
    · simp

theorem spends_items (place : Position) :
    Spends place items (fun items => items.flatMap itemMarks)
      fun items => ∀ item ∈ items, AnchoredItem item := by
  intro cursor
  refine ensures_rounds
    (fun collected inner => (∀ item ∈ collected, AnchoredItem item) ∧
      (collected.flatMap itemMarks).count place + inner.ahead place ≤ cursor.ahead place) ?_
    ⟨by simp, by simp⟩
  rintro collected inner ⟨held, within⟩
  simp only [ensures_bind, ensures_currentKind]
  split
  · rw [ensures_pure]
    refine ⟨fun item member => held item (List.mem_reverse.mp member), ?_⟩
    rw [((List.reverse_perm collected).flatMap_right itemMarks).count_eq]
    exact within
  · simp only [ensures_bind, ensures_pure]
    refine (spends_item place inner).mono fun item behind facts => ?_
    rcases facts with ⟨anchored, spent⟩
    refine ⟨List.forall_mem_cons.mpr ⟨anchored, held⟩, ?_⟩
    rw [List.flatMap_cons, List.count_append]
    omega

end Parser

/-- In a file that has been read, expressions are anchored, and every place is one
of a token, none of them twice. -/
theorem Program.anchored_and_count_marks {file source : String} {program : Program}
    (accepted : ofSource file source = .ok program) :
    (∀ item ∈ program.items, Parser.AnchoredItem item) ∧
      ∃ tokens, tokenize file source = .ok tokens ∧
        ∀ place, program.marks.count place ≤ (tokens.map fun token => token.span.start).count place := by
  unfold ofSource at accepted
  split at accepted
  · cases accepted
  · next tokens tokenized =>
      unfold ofTokens at accepted
      split at accepted
      · cases accepted
      · next items behind read =>
          cases accepted
          have spent (place : Position) :=
            Parser.spends_items place (Cursor.ofTokens tokens) items behind read
          refine ⟨(spent default).1, tokens, tokenized, fun place => ?_⟩
          exact Nat.le_trans (Nat.le_add_right _ _) (Nat.le_trans (spent place).2
            ((Cursor.places_ofTokens tokens).count_le place))

end KnightFront
