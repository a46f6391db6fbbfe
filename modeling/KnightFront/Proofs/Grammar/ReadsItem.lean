import KnightFront.Parse.Item
import KnightFront.Proofs.Grammar.ReadsStmt

namespace KnightFront
namespace Grammar

/-!
# Reading declarations

Declarations at the top level, told by their keywords.  A function body is
read to its brace; a return in front of it counts as an item of the body, so
the grammar does not mention it.
-/

open KnightFront.Parser (Ensures Yields)
open Form (name)

variable {cursor : Cursor} {ahead behind rest : List TokenContent}

theorem reads_param : Reads Parser.param cursor (.phrase .type ++ name) anything := by
  rw [Parser.param]
  refine .before reads_typeName (Begins.token.fits (by decide)) fun typed _ => ?_
  refine Reads.ending (reads_expect (by decide)) fun named _ => ?_
  simp

theorem begins_param {dialect : Dialect} : Begins dialect (.phrase .type ++ name) typeKinds :=
  begins_type.append

theorem reads_params : Reads Parser.params cursor (.phrase .params) anything := by
  have listed (inner : Cursor) : Reads (Parser.listUpTo .closeParen Parser.param) inner
      (.optional (.listed (.phrase .type ++ name))) (only .closeParen) :=
    reads_listUpTo (fun _ _ => reads_param) trivial trivial (by decide)
      fun between same => begins_param.excludes same (by decide) between
  simp only [Parser.params, reads_phrase, Phrase.rule, reads_append_assoc]
  refine Reads.step (reads_expect (by decide)) fun opening _ => ?_
  refine (listed _).before (Begins.token.fits (by decide)) fun found _ => ?_
  refine Reads.ending (reads_expect (by decide)) fun closing _ => ?_
  simp

theorem reads_functionHead :
    Reads Parser.functionHead cursor (.phrase .head) (except .openBracket) := by
  simp only [Parser.functionHead, reads_phrase, Phrase.rule, reads_append_assoc]
  refine Reads.step (reads_expect (by decide)) fun keyword _ => ?_
  refine Reads.step (reads_expect (by decide)) fun named _ => ?_
  refine .step reads_params fun params _ => ?_
  refine Reads.step (reads_expect (by decide)) fun colon _ => ?_
  refine .ending reads_typeName fun returned _ => ?_
  simp

/-- A return is an item of a body, and the only one that begins with its
keyword. -/
theorem between_bodyItem_of_retWord (found : headKind ahead = .retWord) :
    Between .accepted (.phrase .bodyItem) ahead behind ↔
      Between .accepted (.phrase .ret) ahead behind := by
  constructor
  · intro item
    rcases between_or.mp (between_phrase.mp item) with declaration | statement
    · exact absurd declaration (begins_varDecl.excludes found (by decide))
    · rcases between_statement_iff.mp statement with plain | ⟨_, head, -⟩ | ⟨_, head, -⟩
      · rcases between_or.mp plain with blockOrRet | named
        · exact (between_or.mp blockOrRet).resolve_left (begins_block.excludes found (by decide))
        · exact absurd named (begins_nameStatement.excludes found (by decide))
      · exact absurd head (Begins.token.append.excludes found (by decide))
      · exact absurd head (begins_loopHead.excludes found (by decide))
  · intro returned
    exact between_phrase.mpr (between_or.mpr (.inr (between_statement_iff.mpr
      (.inl (between_or.mpr (.inl (between_or.mpr (.inr returned))))))))

theorem reads_bodyItem_stmt :
    Reads (Parser.bodyItem Parser.stmt) cursor (.phrase .bodyItem) (except .elseWord) :=
  reads_bodyItem (fun inner _ => readsStatement_stmt inner) (Nat.lt_succ_self _)

/-- The items of a function body are read up to its brace. -/
theorem reads_functionBody :
    Reads Parser.functionBody cursor (.many (.phrase .bodyItem)) (only .closeCurly) := by
  refine reads_rounds (fun _ _ => True) ?_ ?_ trivial
  · intro collected inner _
    simp only [Parser.ensures_bind, Parser.ensures_currentKind]
    split
    · simpa using between_many.mpr (.inl rfl)
    · simp
    · next found =>
        simp only [Parser.ensures_bind, Parser.ensures_freshId]
        refine reads_returnClause.sound.mono fun _ further facts => ?_
        have item := (between_bodyItem_of_retWord found).mpr facts.1
        simp only [Parser.ensures_currentKind]
        split
        · simpa using between_many.mpr (.inr ⟨_, item, between_many.mpr (.inl rfl)⟩)
        · simpa using fun rest others => between_many.mpr (.inr ⟨_, item, others⟩)
    · simp only [Parser.ensures_bind, Parser.ensures_pure]
      refine reads_bodyItem_stmt.sound.mono fun _ further facts => ⟨trivial, fun rest others => ?_⟩
      exact between_many.mpr (.inr ⟨_, facts.1, others⟩)
  · intro collected inner rest _ between closed
    simp only [Parser.yields_bind, Parser.yields_currentKind]
    have ended {ahead : List TokenContent} (others : Between .accepted
        (.many (.phrase .bodyItem)) ahead rest) (found : headKind ahead = .closeCurly) :
        ahead = rest := by
      rcases between_many.mp others with same | ⟨_, first, -⟩
      · exact same
      · exact absurd first (begins_bodyItem.excludes found (by decide))
    have item (found : headKind inner.contents ≠ .closeCurly) : ∃ middle,
        Between .accepted (.phrase .bodyItem) inner.contents middle ∧
          Between .accepted (.many (.phrase .bodyItem)) middle rest := by
      rcases between_many.mp between with same | more
      · exact absurd (same ▸ closed) found
      · exact more
    split
    · next found => simpa using ended between found
    · next found =>
        rcases item (by simp [found]) with ⟨_, first, -⟩
        exact absurd first (begins_bodyItem.excludes found (by decide))
    · next found =>
        rcases item (by simp [found]) with ⟨middle, first, others⟩
        have shorter := begins_bodyItem.length_lt (by decide) first
        rw [between_bodyItem_of_retWord found] at first
        simp only [Parser.yields_bind, Parser.yields_freshId]
        refine (reads_returnClause.complete middle (by simpa using first) trivial).mono
          fun _ further same => ?_
        subst same
        simp only [Parser.yields_currentKind]
        split
        · next atEnd => simpa using ended others atEnd
        · simpa [Cursor.remaining_eq] using ⟨shorter, others⟩
    · next notClosed _ _ =>
        rcases item notClosed with ⟨middle, first, others⟩
        have shorter := begins_bodyItem.length_lt (by decide) first
        have noElse : headKind middle ≠ .elseWord := by
          rcases between_many.mp others with same | ⟨_, second, -⟩
          · exact fun isElse => by simp [← same, isElse, only] at closed
          · exact fun isElse => begins_bodyItem.excludes isElse (by decide) second
        simp only [Parser.yields_bind, Parser.yields_pure]
        refine (reads_bodyItem_stmt.complete middle first noElse).mono fun _ further same => ?_
        simpa [Cursor.remaining_eq, same] using ⟨shorter, others⟩

theorem reads_function : Reads Parser.function cursor (.phrase .function) anything := by
  simp only [Parser.function, reads_bind_freshId, reads_phrase, Phrase.rule, reads_append_assoc]
  refine .before reads_functionHead (Begins.token.append.fits (by decide)) fun head _ => ?_
  refine Reads.step (reads_expect (by decide)) fun opening _ => ?_
  refine .before reads_functionBody (Begins.token.fits (by decide)) fun body _ => ?_
  refine Reads.ending (reads_expect (by decide)) fun closing _ => ?_
  simp

/-! ## Enumerations, interfaces and classes -/

theorem reads_inclusion : Reads Parser.inclusion cursor (.phrase .inclusion) anything := by
  simp only [Parser.inclusion, reads_phrase, Phrase.rule, reads_append_assoc]
  refine Reads.step (reads_expect (by decide)) fun keyword _ => ?_
  refine Reads.step (reads_expect (by decide)) fun opening _ => ?_
  refine Reads.step (reads_expect (by decide)) fun named _ => ?_
  refine Reads.ending (reads_expect (by decide)) fun closing _ => ?_
  simp

/-- The members of an enumeration, with a comma behind the last one or
without. -/
theorem between_members_iff :
    Between .accepted (.phrase .members) ahead behind ↔
      ahead = behind ∨ headKind ahead = .identifier ∧
        (ahead.tail = behind ∨ headKind ahead.tail = .comma ∧
          Between .accepted (.phrase .members) ahead.tail.tail behind) := by
  have unfolded {ahead : List TokenContent} : Between .accepted (.phrase .members) ahead behind ↔
      (∃ middle, Between .accepted (.listed name) ahead middle ∧
        (headKind middle = .comma ∧ middle.tail = behind ∨ middle = behind)) ∨ ahead = behind := by
    rw [between_phrase]
    simp [Phrase.rule, between_token]
  have named {ahead middle : List TokenContent} : Between .accepted name ahead middle ↔
      headKind ahead = .identifier ∧ ahead.tail = middle := between_token (by decide) (by decide)
  constructor
  · intro members
    rcases unfolded.mp members with ⟨middle, list, ends⟩ | same
    · rcases between_listed_iff.mp list with ⟨_, first, goesOn⟩
      rcases named.mp first with ⟨isName, rfl⟩
      refine .inr ⟨isName, ?_⟩
      rcases goesOn with rfl | ⟨isComma, others⟩
      · rcases ends with ⟨isComma, last⟩ | last
        · exact .inr ⟨isComma, unfolded.mpr (.inr last)⟩
        · exact .inl last
      · exact .inr ⟨isComma, unfolded.mpr (.inl ⟨middle, others, ends⟩)⟩
    · exact .inl same
  · rintro (same | ⟨isName, last | ⟨isComma, others⟩⟩)
    · exact unfolded.mpr (.inr same)
    · exact unfolded.mpr (.inl ⟨_, between_listed_iff.mpr
        ⟨_, named.mpr ⟨isName, rfl⟩, .inl rfl⟩, .inr last⟩)
    · rcases unfolded.mp others with ⟨middle, list, ends⟩ | last
      · exact unfolded.mpr (.inl ⟨middle, between_listed_iff.mpr
          ⟨_, named.mpr ⟨isName, rfl⟩, .inr ⟨isComma, list⟩⟩, ends⟩)
      · exact unfolded.mpr (.inl ⟨_, between_listed_iff.mpr
          ⟨_, named.mpr ⟨isName, rfl⟩, .inl rfl⟩, .inl ⟨isComma, last⟩⟩)

theorem reads_enumMembers :
    Reads Parser.enumMembers cursor (.phrase .members) (only .closeCurly) := by
  refine reads_rounds (fun _ _ => True) ?_ ?_ trivial
  · intro collected inner _
    simp only [Parser.ensures_bind, Parser.ensures_currentKind]
    split
    · next found =>
        simp only [Parser.ensures_bind, Parser.ensures_take, Parser.ensures_currentKind,
          Cursor.contents_advance]
        split
        · next isComma =>
            simpa using fun rest others =>
              between_members_iff.mpr (.inr ⟨found, .inr ⟨isComma, others⟩⟩)
        · simpa using between_members_iff.mpr (.inr ⟨found, .inl rfl⟩)
    · simpa using between_members_iff.mpr (.inl rfl)
  · intro collected inner rest _ between closed
    simp only [Parser.yields_bind, Parser.yields_currentKind]
    rcases between_members_iff.mp between with same | ⟨found, same | ⟨isComma, others⟩⟩
    · have other : headKind inner.contents ≠ .identifier := fun found => by
        simp [← same, found, only] at closed
      simpa [other] using same
    · have other : headKind inner.contents.tail ≠ .comma := fun isComma => by
        simp [← same, isComma, only] at closed
      simpa [found, other] using same
    · have more : inner.contents.tail ≠ [] := fun none => by simp [none] at isComma
      have shorter : inner.contents.length - 1 - 1 < inner.contents.length := by
        have := List.length_pos_iff.mpr more
        simp only [List.length_tail] at this
        omega
      simpa [found, isComma, Cursor.remaining_eq] using ⟨shorter, others⟩

theorem reads_enumeration : Reads Parser.enumeration cursor (.phrase .enumeration) anything := by
  simp only [Parser.enumeration, reads_phrase, Phrase.rule, reads_append_assoc]
  refine Reads.step (reads_expect (by decide)) fun keyword _ => ?_
  refine Reads.step (reads_expect (by decide)) fun named _ => ?_
  refine Reads.step (reads_expect (by decide)) fun opening _ => ?_
  refine .before reads_enumMembers (Begins.token.fits (by decide)) fun members _ => ?_
  refine Reads.ending (reads_expect (by decide)) fun closing _ => ?_
  simp

theorem reads_nameUse : Reads Parser.nameUse cursor name anything := by
  rw [Parser.nameUse]
  refine Reads.ending (reads_expect (by decide)) fun named _ => ?_
  simp

/-- Names behind a keyword are read if the keyword is there. -/
theorem reads_nameClause {keyword : TokenKind} (more : keyword ≠ .eof) (plain : keyword ≠ .number)
    (follow : TokenKind → Prop) (other : ¬ follow keyword) (ends : ¬ follow .comma) :
    Reads (Parser.nameClause keyword) cursor
      (.optional (.token keyword ++ .listed name)) follow := by
  simp only [Parser.nameClause, reads_bind_currentKind]
  split
  · next found =>
      refine Reads.present ?_ (by rwa [found])
      refine (reads_take found ⟨more, plain⟩).step fun word _ => ?_
      exact reads_commaSeparated (fun _ _ => reads_nameUse) trivial
        fun kind follows => ⟨trivial, fun isComma => ends (isComma ▸ follows)⟩
  · next missing =>
      refine Reads.absent (by simp) fun rest => ?_
      simp [between_token more plain, missing]

theorem reads_interfaceMethods :
    Reads Parser.interfaceMethods cursor (.many (.phrase .head ++ .token .semicolon))
      (only .closeCurly) := by
  have begins : Begins .accepted (.phrase .head ++ .token .semicolon) [.fnWord] :=
    .append (.phrase (.append (.append (.append (.append .token)))))
  refine reads_rounds_many (fun _ => True) begins (by decide) anything_of_mem
    (fun _ _ => trivial) ?_ trivial
  intro collected inner _ _
  simp only [reads_bind_currentKind]
  split
  · next found =>
      refine .inr ⟨?_, by simp [found, only]⟩
      refine .before reads_functionHead (Begins.token.fits (by decide)) fun head _ => ?_
      refine Reads.ending (reads_expect (by decide)) fun semicolon _ => ?_
      exact reads_pure.mpr trivial
  · next other => exact .inl ⟨reads_pure.mpr trivial, by simpa using other⟩

theorem reads_interface : Reads Parser.interface cursor (.phrase .interface) anything := by
  have extended (inner : Cursor) : Reads (Parser.nameClause .extWord) inner
      (.optional (.token .extWord ++ .listed name)) (only .openCurly) :=
    reads_nameClause (by decide) (by decide) _ (by decide) (by decide)
  simp only [Parser.interface, reads_phrase, Phrase.rule, reads_append_assoc]
  refine Reads.step (reads_expect (by decide)) fun keyword _ => ?_
  refine Reads.step (reads_expect (by decide)) fun named _ => ?_
  refine (extended _).before (Begins.token.append.fits (by decide)) fun bases _ => ?_
  refine Reads.step (reads_expect (by decide)) fun opening _ => ?_
  refine .before reads_interfaceMethods (Begins.token.fits (by decide)) fun methods _ => ?_
  refine Reads.ending (reads_expect (by decide)) fun closing _ => ?_
  simp

theorem reads_parentClause :
    Reads Parser.parentClause cursor (.optional (.token .extWord ++ name)) (except .extWord) := by
  simp only [Parser.parentClause, reads_bind_currentKind]
  split
  · next found =>
      refine Reads.present ?_ (by simp [found, except])
      refine (reads_take found (by decide)).step fun keyword _ => ?_
      refine (reads_nameUse.mono fun _ _ => trivial).ending fun parent _ => ?_
      simp
  · next missing =>
      exact Reads.absent (by simp) fun rest => by simp [between_token, missing]

theorem begins_function {dialect : Dialect} : Begins dialect (.phrase .function) [.fnWord] :=
  .phrase (.append (.append (.append (.phrase (.append (.append (.append (.append .token))))))))

theorem reads_classMembers :
    Reads Parser.classMembers cursor (.many (.phrase .varDecl ||| .phrase .function))
      (only .closeCurly) := by
  refine reads_rounds_many (fun _ => True) (begins_varDecl.or begins_function) (by decide)
    anything_of_mem (fun _ _ => trivial) ?_ trivial
  rintro ⟨fields, methods⟩ inner _ _
  simp only [reads_bind_currentKind]
  split
  · next closed => exact .inl ⟨reads_pure.mpr trivial, by simp [closed, typeKinds]⟩
  · next found =>
      refine .inr ⟨.right ?_ fun _ => begins_varDecl.excludes found (by decide),
        by simp [found, only]⟩
      exact .ending reads_function fun method _ => reads_pure.mpr trivial
  · next notClosed notFunction =>
      refine .inr ⟨?_, notClosed⟩
      rw [reads_bind_startsDeclaration]
      have noFunction (rest : List TokenContent) :
          ¬ Between .accepted (.phrase .function) inner.contents rest := fun between =>
        notFunction (List.mem_singleton.mp (begins_function _ _ between))
      split
      · refine Reads.left ?_ fun rest between => absurd between (noFunction rest)
        exact .ending reads_varDecl fun decl _ => reads_pure.mpr trivial
      · next declared =>
          refine reads_misplaced fun rest between => ?_
          rcases between_or.mp between with varDecl | function
          · exact declared (declares_of_varDecl varDecl)
          · exact noFunction rest function

theorem reads_classDecl : Reads Parser.classDecl cursor (.phrase .classDecl) anything := by
  have used (inner : Cursor) : Reads (Parser.nameClause .useWord) inner
      (.optional (.token .useWord ++ .listed name)) (only .openCurly) :=
    reads_nameClause (by decide) (by decide) _ (by decide) (by decide)
  simp only [Parser.classDecl, reads_phrase, Phrase.rule, reads_append_assoc]
  refine Reads.step (reads_expect (by decide)) fun keyword _ => ?_
  refine Reads.step (reads_expect (by decide)) fun named _ => ?_
  refine reads_parentClause.before
    ((Begins.optionalAppend (.append .token) (.append .token)).fits (by decide)) fun parent _ => ?_
  refine (used _).before (Begins.token.append.fits (by decide)) fun uses _ => ?_
  refine Reads.step (reads_expect (by decide)) fun opening _ => ?_
  refine .before reads_classMembers (Begins.token.fits (by decide)) fun members _ => ?_
  refine Reads.ending (reads_expect (by decide)) fun closing _ => ?_
  simp

theorem begins_inclusion {dialect : Dialect} :
    Begins dialect (.phrase .inclusion) [.includeWord] :=
  .phrase (.append (.append (.append .token)))

theorem begins_enumeration {dialect : Dialect} :
    Begins dialect (.phrase .enumeration) [.enumWord] :=
  .phrase (.append (.append (.append (.append .token))))

theorem begins_interface {dialect : Dialect} :
    Begins dialect (.phrase .interface) [.interfaceWord] :=
  .phrase (.append (.append (.append (.append (.append .token)))))

theorem begins_classDecl {dialect : Dialect} :
    Begins dialect (.phrase .classDecl) [.classWord] :=
  .phrase (.append (.append (.append (.append (.append (.append .token))))))

/-- The kinds that begin a declaration at the top level. -/
def itemKinds : List TokenKind :=
  [.includeWord, .enumWord, .interfaceWord, .classWord, .fnWord] ++ typeKinds

theorem begins_item {dialect : Dialect} : Begins dialect (.phrase .item) itemKinds :=
  .phrase (((((begins_inclusion.or begins_enumeration).or begins_interface).or
    begins_classDecl).or begins_function).or begins_varDecl)

theorem reads_item : Reads Parser.item cursor (.phrase .item) anything := by
  have isItem (rest : List TokenContent) :
      Between .accepted (.phrase .item) cursor.contents rest ↔
        Between .accepted (.phrase .inclusion ||| .phrase .enumeration ||| .phrase .interface |||
          .phrase .classDecl ||| .phrase .function ||| .phrase .varDecl) cursor.contents rest :=
    between_phrase
  simp only [Parser.item, reads_bind_currentKind]
  split
  · next found =>
      refine .same (.ending reads_inclusion fun inclusion _ => reads_pure.mpr trivial)
        fun rest => ?_
      simp [isItem, begins_enumeration.excludes found (by decide),
        begins_interface.excludes found (by decide), begins_classDecl.excludes found (by decide),
        begins_function.excludes found (by decide), begins_varDecl.excludes found (by decide)]
  · next found =>
      refine .same (.ending reads_enumeration fun enumeration _ => reads_pure.mpr trivial)
        fun rest => ?_
      simp [isItem, begins_inclusion.excludes found (by decide),
        begins_interface.excludes found (by decide), begins_classDecl.excludes found (by decide),
        begins_function.excludes found (by decide), begins_varDecl.excludes found (by decide)]
  · next found =>
      refine .same (.ending reads_interface fun interface _ => reads_pure.mpr trivial)
        fun rest => ?_
      simp [isItem, begins_inclusion.excludes found (by decide),
        begins_enumeration.excludes found (by decide), begins_classDecl.excludes found (by decide),
        begins_function.excludes found (by decide), begins_varDecl.excludes found (by decide)]
  · next found =>
      refine .same (.ending reads_classDecl fun classDecl _ => reads_pure.mpr trivial)
        fun rest => ?_
      simp [isItem, begins_inclusion.excludes found (by decide),
        begins_enumeration.excludes found (by decide), begins_interface.excludes found (by decide),
        begins_function.excludes found (by decide), begins_varDecl.excludes found (by decide)]
  · next found =>
      refine .same (.ending reads_function fun function _ => reads_pure.mpr trivial)
        fun rest => ?_
      simp [isItem, begins_inclusion.excludes found (by decide),
        begins_enumeration.excludes found (by decide), begins_interface.excludes found (by decide),
        begins_classDecl.excludes found (by decide), begins_varDecl.excludes found (by decide)]
  · next noInclusion noEnumeration noInterface noClass noFunction =>
      have keyword {rest : List TokenContent} (between : Between .accepted
          (.phrase .inclusion ||| .phrase .enumeration ||| .phrase .interface |||
            .phrase .classDecl ||| .phrase .function) cursor.contents rest) : False := by
        have starts := (((begins_inclusion.or begins_enumeration).or begins_interface).or
          begins_classDecl).or begins_function _ _ between
        simp only [List.cons_append, List.nil_append, List.mem_cons, List.not_mem_nil] at starts
        grind
      rw [reads_bind_startsDeclaration]
      refine Reads.same ?_ fun rest => (isItem rest).symm
      split
      · refine Reads.right ?_ fun rest between => keyword between
        exact .ending reads_varDecl fun decl _ => reads_pure.mpr trivial
      · next undeclared =>
          refine reads_misplaced fun rest between => ?_
          rcases between_or.mp between with other | varDecl
          · exact keyword other
          · exact undeclared (declares_of_varDecl varDecl)

/-- Declarations are read up to the end of input. -/
theorem reads_items : Reads Parser.items cursor (.many (.phrase .item)) (only .eof) := by
  refine reads_rounds_many (fun _ => True) begins_item (by decide) anything_of_mem
    (fun _ _ => trivial) ?_ trivial
  intro collected inner _ _
  simp only [reads_bind_currentKind]
  split
  · next ended => exact .inl ⟨reads_pure.mpr trivial, by simp [ended, itemKinds, typeKinds]⟩
  · next more =>
      exact .inr ⟨Reads.ending reads_item fun item _ => reads_pure.mpr trivial, more⟩

theorem ensures_items_ended :
    Ensures Parser.items cursor fun _ behind => headKind behind.contents = .eof := by
  refine Parser.ensures_rounds (fun _ _ => True) (fun collected inner _ => ?_) trivial
  simp only [Parser.ensures_bind, Parser.ensures_currentKind]
  split
  · next ended => simpa using ended
  · simp only [Parser.ensures_bind, Parser.ensures_pure]
    exact Parser.ensures_of_forall fun _ _ => trivial

end Grammar
end KnightFront
