import KnightFront.Proofs.Grammar.ReadsItem

namespace KnightFront

/-!
# The accepted language

Two dialects enclose the token lists that are read: each list from which a
program can be derived in the accepted dialect is read, and from each list
that is read one can be derived in the intended dialect.  Whether an index may
stand in front of the member that a statement ends in is left open by this.
From the reference dialect both differ in the statements that begin with an
expression, in the update of a loop and in enumerations without members.
-/

namespace Grammar

/-- A repeated form may be replaced by a wider one. -/
theorem Derives.many_mono {dialect : Dialect} {narrow wide : Form} {tokens : List TokenContent}
    (wider : ∀ tokens, Derives dialect narrow tokens → Derives dialect wide tokens)
    (derives : Derives dialect (.many narrow) tokens) : Derives dialect (.many wide) tokens := by
  generalize isMany : Form.many narrow = form at derives
  induction derives with
  | none =>
      cases isMany
      exact .none
  | more firstDerives _ _ inductionHypothesis =>
      cases isMany
      exact .more (wider _ firstDerives) (inductionHypothesis rfl)
  | _ => cases isMany

/-- The intended dialect derives all that the accepted one does. -/
theorem Derives.intended {form : Form} {tokens : List TokenContent}
    (derives : Derives .accepted form tokens) : Derives .intended form tokens := by
  induction derives with
  | nothing => exact .nothing
  | token fits => exact .token fits
  | @phrase phrase tokens _ derived =>
      cases phrase with
      | chain =>
          -- The two dialects differ in this rule only.
          cases derived with
          | seq named members =>
              apply Derives.phrase
              apply named.seq
              exact members.many_mono fun _ member => .left member
      | _ => exact .phrase derived
  | seq _ _ front back => exact .seq front back
  | left _ derived => exact .left derived
  | right _ derived => exact .right derived
  | none => exact .none
  | more _ _ front back => exact .more front back

end Grammar

open Grammar (Derives Between Reads)

variable {tokens : List Token} {finish : Token}

/-- A token list is read exactly if the accepted dialect derives a program from
the tokens in front of the end of input. -/
theorem Program.ofTokens_isOk_iff_derives_accepted (file : String) (closes : finish.kind = .eof)
    (inside : ∀ token ∈ tokens, token.kind ≠ .eof) :
    (Program.ofTokens file (tokens ++ [finish])).isOk = true ↔
      Derives .accepted (.phrase .program) (tokens.map Token.content) := by
  have spelled : (tokens ++ [finish]).map Token.content =
      tokens.map Token.content ++ [(TokenKind.eof, finish.value)] := by
    simp [Token.content, closes]
  have contents := Cursor.contents_ofTokens spelled
  have reads : Reads Parser.items (.ofTokens (tokens ++ [finish])) _ _ := Grammar.reads_items
  rw [← Grammar.between_nil_iff, Grammar.between_phrase, ← contents]
  constructor
  · intro accepted
    cases read : Parser.items (.ofTokens (tokens ++ [finish])) with
    | error failure => simp [ofTokens, read, Except.isOk, Except.toBool] at accepted
    | ok found =>
        have between := (reads.sound _ _ read).1
        have ended := Grammar.ensures_items_ended _ _ read
        suffices atEnd : found.2.contents = [] by rwa [atEnd] at between
        rcases between with ⟨front, -, same⟩
        cases rest : found.2.contents with
        | nil => rfl
        | cons next others =>
            have member : next ∈ tokens.map Token.content := by
              rw [← contents, same, rest]
              simp
            rcases List.mem_map.mp member with ⟨token, isInside, rfl⟩
            exact absurd (by simpa [rest, Token.content] using ended) (inside token isInside)
  · intro between
    rcases reads.complete [] between rfl with ⟨items, behind, read, -⟩
    simp [ofTokens, read, Except.isOk, Except.toBool]

/-- A token list is read if a program can be derived from it in the accepted
dialect, and only if one can be derived in the intended dialect.  The two part
where an index stands in front of the member that a statement ends in. -/
theorem Program.ofTokens_isOk_within_dialects (file : String) (closes : finish.kind = .eof)
    (inside : ∀ token ∈ tokens, token.kind ≠ .eof) :
    (Derives .accepted (.phrase .program) (tokens.map Token.content) →
        (Program.ofTokens file (tokens ++ [finish])).isOk = true) ∧
      ((Program.ofTokens file (tokens ++ [finish])).isOk = true →
        Derives .intended (.phrase .program) (tokens.map Token.content)) := by
  have accepts := Program.ofTokens_isOk_iff_derives_accepted file closes inside
  constructor
  · intro derives
    exact accepts.mpr derives
  · intro read
    exact (accepts.mp read).intended

/-- A token at no particular place. -/
def Token.unplaced (kind : TokenKind) (value : String) : Token := ⟨kind, value, .nowhere⟩

/-- The tokens of a function whose body is given. -/
def mainTokens (body : List Token) : List Token :=
  [.unplaced .fnWord "fn", .unplaced .identifier "main", .unplaced .openParen "(",
    .unplaced .closeParen ")", .unplaced .colon ":", .unplaced .voidWord "void",
    .unplaced .openCurly "\x7b"] ++ body ++ [.unplaced .closeCurly "\x7d"]

/-- The tokens of the statement `if (a) if (b) f(); else g();`. -/
def twoConditions : List Token :=
  [.unplaced .ifWord "if", .unplaced .openParen "(", .unplaced .identifier "a",
    .unplaced .closeParen ")", .unplaced .ifWord "if", .unplaced .openParen "(",
    .unplaced .identifier "b", .unplaced .closeParen ")", .unplaced .identifier "f",
    .unplaced .openParen "(", .unplaced .closeParen ")", .unplaced .semicolon ";",
    .unplaced .elseWord "else", .unplaced .identifier "g", .unplaced .openParen "(",
    .unplaced .closeParen ")", .unplaced .semicolon ";"]

/-- A program whose alternative could belong to two conditions is read and
derived. -/
theorem Program.derives_twoConditions :
    (∀ token ∈ mainTokens twoConditions, token.kind ≠ .eof) ∧
      (Program.ofTokens "" (mainTokens twoConditions ++ [.unplaced .eof "EOF"])).isOk = true ∧
        Derives .intended (.phrase .program) ((mainTokens twoConditions).map Token.content) := by
  have inside : ∀ token ∈ mainTokens twoConditions, token.kind ≠ .eof := by decide
  have read : (Program.ofTokens ""
      (mainTokens twoConditions ++ [Token.unplaced .eof "EOF"])).isOk = true := by
    decide +kernel
  exact ⟨inside, read, (Program.ofTokens_isOk_within_dialects "" rfl inside).2 read⟩

/-! ## Where the reference dialect differs -/

/-- The tokens of the statement `new A().m();`. -/
def callOnInstance : List Token :=
  [.unplaced .newWord "new", .unplaced .identifier "A", .unplaced .openParen "(",
    .unplaced .closeParen ")", .unplaced .dot ".", .unplaced .identifier "m",
    .unplaced .openParen "(", .unplaced .closeParen ")", .unplaced .semicolon ";"]

/-- The tokens of the statement `a + b.c = 1;`. -/
def fieldOfSum : List Token :=
  [.unplaced .identifier "a", .unplaced .plus "+", .unplaced .identifier "b",
    .unplaced .dot ".", .unplaced .identifier "c", .unplaced .assignment "=",
    .unplaced .number "1", .unplaced .semicolon ";"]

/-- The tokens of the declaration `enum E \x7b \x7d`. -/
def emptyEnumeration : List Token :=
  [.unplaced .enumWord "enum", .unplaced .identifier "E", .unplaced .openCurly "\x7b",
    .unplaced .closeCurly "\x7d"]

/-- The tokens of the loop `for (int i; true; i[0] = 1) ret;`. -/
def elementUpdate : List Token :=
  [.unplaced .forWord "for", .unplaced .openParen "(", .unplaced .intWord "int",
    .unplaced .identifier "i", .unplaced .semicolon ";", .unplaced .trueWord "true",
    .unplaced .semicolon ";", .unplaced .identifier "i", .unplaced .openBracket "[",
    .unplaced .number "0", .unplaced .closeBracket "]", .unplaced .assignment "=",
    .unplaced .number "1", .unplaced .closeParen ")", .unplaced .retWord "ret",
    .unplaced .semicolon ";"]

namespace Grammar

open Form (name)

variable {dialect : Dialect} {ahead behind rest : List TokenContent}

/-- Nothing stands between the parentheses of an empty parameter list. -/
theorem between_noParams_iff :
    Between dialect (.phrase .params) ((.openParen, "(") :: (.closeParen, ")") :: rest) behind ↔
      rest = behind := by
  have none (behind : List TokenContent) : ¬ Between dialect
      (.listed (.phrase .type ++ name)) ((.closeParen, ")") :: rest) behind :=
    (Begins.append (Begins.append begins_type)).excludes (headKind_cons _ _) (by decide)
  rw [between_phrase, Phrase.rule, between_append_assoc]
  simp [between_token, none]

theorem between_void_iff :
    Between dialect (.phrase .type) ((.voidWord, "void") :: rest) behind ↔ rest = behind := by
  rw [between_phrase]
  simp [Phrase.rule, between_token, name]

/-- What stands in front of the body of the function that `mainTokens`
writes. -/
def mainHead : List TokenContent :=
  [(.fnWord, "fn"), (.identifier, "main"), (.openParen, "("), (.closeParen, ")"), (.colon, ":"),
    (.voidWord, "void"), (.openCurly, "\x7b")]

theorem between_mainFunction_iff :
    Between dialect (.phrase .function) (mainHead ++ rest) behind ↔
      ∃ middle, Between dialect (.many (.phrase .bodyItem)) rest middle ∧
        headKind middle = .closeCurly ∧ middle.tail = behind := by
  have head (behind : List TokenContent) : Between dialect (.phrase .head) (mainHead ++ rest) behind ↔
      (.openCurly, "\x7b") :: rest = behind := by
    rw [between_phrase]
    simp only [Phrase.rule, between_append_assoc]
    simp [mainHead, between_token, name, between_noParams_iff, between_void_iff]
  rw [between_phrase]
  simp only [Phrase.rule, between_append_assoc]
  simp [head, between_token]

theorem derives_program_iff {tokens : List TokenContent} :
    Derives dialect (.phrase .program) tokens ↔ Between dialect (.many (.phrase .item)) tokens [] := by
  rw [← between_nil_iff, between_phrase, Phrase.rule]

/-- What is ahead in the function that `mainTokens` writes behind the first
tokens of its body. -/
def bodyAhead (body : List Token) (read : Nat) : List TokenContent :=
  (body.drop read).map Token.content ++ [(.closeCurly, "\x7d")]

theorem mainTokens_contents (body : List Token) :
    (mainTokens body).map Token.content = mainHead ++ bodyAhead body 0 := by
  simp [mainTokens, mainHead, bodyAhead, Token.unplaced, Token.content]

/-- A program is derived if its only function has one derived statement for its
body. -/
theorem derives_mainTokens {body : List Token}
    (statement : Between dialect (.phrase .statement) (bodyAhead body 0)
      [(TokenKind.closeCurly, "\x7d")]) :
    Derives dialect (.phrase .program) ((mainTokens body).map Token.content) := by
  have bodyItem : Between dialect (.phrase .bodyItem) (bodyAhead body 0)
      [(TokenKind.closeCurly, "\x7d")] :=
    between_phrase.mpr (between_or.mpr (.inr statement))
  have items := between_many.mpr (.inr ⟨_, bodyItem, between_many.mpr (.inl rfl)⟩)
  have function : Between dialect (.phrase .function) ((mainTokens body).map Token.content) [] := by
    rw [mainTokens_contents]
    exact between_mainFunction_iff.mpr ⟨_, items, rfl, rfl⟩
  rw [derives_program_iff]
  refine between_many.mpr (.inr ⟨[], between_phrase.mpr ?_, between_many.mpr (.inl rfl)⟩)
  exact between_or.mpr (.inl (between_or.mpr (.inr function)))

/-- A call on an instance is derived in the reference dialect. -/
theorem derives_callOnInstance : Derives .reference (.phrase .program)
    ((mainTokens callOnInstance).map Token.content) := by
  have instance' : Between .reference (.phrase .operand) (bodyAhead callOnInstance 0)
      (bodyAhead callOnInstance 4) := by
    rw [between_phrase]
    simp [Phrase.rule, bodyAhead, callOnInstance, Token.unplaced, Token.content, between_token,
      name]
  have args : Between .reference (.phrase .args) (bodyAhead callOnInstance 6)
      (bodyAhead callOnInstance 8) := by
    rw [between_phrase]
    simp [Phrase.rule, bodyAhead, callOnInstance, Token.unplaced, Token.content, between_token]
  have chain : Between .reference (.phrase .chain) (bodyAhead callOnInstance 0)
      (bodyAhead callOnInstance 4) :=
    between_phrase.mpr (instance'.append (between_many.mpr (.inl rfl)))
  have named : Between .reference (.optional (.phrase .chain ++ .token .dot) ++ name)
      (bodyAhead callOnInstance 0) (bodyAhead callOnInstance 6) :=
    (between_optional.mpr (.inl (chain.append (Between.token rfl (by decide))))).append
      (Between.token rfl (by decide))
  have call : Between .reference (.phrase .call) (bodyAhead callOnInstance 0)
      (bodyAhead callOnInstance 8) :=
    between_phrase.mpr (between_or.mpr (.inl (named.append args)))
  apply derives_mainTokens
  exact between_phrase.mpr (between_or.mpr (.inr (call.append (Between.token rfl (by decide)))))

/-- A name that no argument list follows is an operand. -/
theorem between_operand_name {spelled : String} :
    Between dialect (.phrase .operand) ((.identifier, spelled) :: rest) rest := by
  have word : Between dialect name ((.identifier, spelled) :: rest) rest :=
    Between.token rfl (by decide)
  have named : Between dialect (.phrase .nameOrCall) ((.identifier, spelled) :: rest) rest :=
    between_phrase.mpr (word.append (between_optional.mpr (.inr rfl)))
  exact between_phrase.mpr (by simp [Phrase.rule, named])

/-- So is an assignment to a field of a sum. -/
theorem derives_fieldOfSum : Derives .reference (.phrase .program)
    ((mainTokens fieldOfSum).map Token.content) := by
  have plus : Between .reference (.phrase .operator) (bodyAhead fieldOfSum 1)
      (bodyAhead fieldOfSum 2) := by
    rw [between_phrase]
    simp [Phrase.rule, bodyAhead, fieldOfSum, Token.unplaced, Token.content, between_token]
  have added : Between .reference (.phrase .suffix) (bodyAhead fieldOfSum 1)
      (bodyAhead fieldOfSum 3) :=
    between_phrase.mpr (between_or.mpr (.inl (between_or.mpr (.inl
      (plus.append between_operand_name)))))
  have sum : Between .reference (.phrase .expr) (bodyAhead fieldOfSum 0)
      (bodyAhead fieldOfSum 3) :=
    between_phrase.mpr (between_operand_name.append
      (between_many.mpr (.inr ⟨_, added, between_many.mpr (.inl rfl)⟩)))
  have target : Between .reference (.phrase .fieldTarget) (bodyAhead fieldOfSum 0)
      (bodyAhead fieldOfSum 5) :=
    between_phrase.mpr ((sum.append (Between.token rfl (by decide))).append
      (Between.token rfl (by decide)))
  have one : Between .reference (.phrase .operand) (bodyAhead fieldOfSum 6)
      (bodyAhead fieldOfSum 7) := by
    have number : Between .reference (.token .number) (bodyAhead fieldOfSum 6)
        (bodyAhead fieldOfSum 7) :=
      between_number.mpr ⟨rfl, "1", rfl, by decide⟩
    exact between_phrase.mpr (by simp [Phrase.rule, number])
  have value : Between .reference (.phrase .expr) (bodyAhead fieldOfSum 6)
      (bodyAhead fieldOfSum 7) :=
    between_phrase.mpr (one.append (between_many.mpr (.inl rfl)))
  have assigned : Between .reference (.phrase .fieldAssign) (bodyAhead fieldOfSum 0)
      (bodyAhead fieldOfSum 8) :=
    between_phrase.mpr (((target.append (Between.token rfl (by decide))).append value).append
      (Between.token rfl (by decide)))
  apply derives_mainTokens
  exact between_phrase.mpr (between_or.mpr (.inl (between_or.mpr (.inr assigned))))

/-- An enumeration without members is not. -/
theorem not_derives_emptyEnumeration : ¬ Derives .reference (.phrase .program)
    (emptyEnumeration.map Token.content) := by
  have noMembers (behind : List TokenContent) :
      ¬ Between .reference (.phrase .members) [(TokenKind.closeCurly, "\x7d")] behind :=
    (Begins.phrase (Begins.append (Begins.append Begins.token))).excludes rfl (by decide)
  rw [derives_program_iff, between_many]
  rintro (impossible | ⟨middle, item, -⟩)
  · cases impossible
  · have found : headKind (emptyEnumeration.map Token.content) = .enumWord := rfl
    have enumeration : Between .reference (.phrase .enumeration)
        (emptyEnumeration.map Token.content) middle := by
      have parts := between_phrase.mp item
      simpa [Phrase.rule, begins_inclusion.excludes found (by decide),
        begins_interface.excludes found (by decide), begins_classDecl.excludes found (by decide),
        begins_function.excludes found (by decide), begins_varDecl.excludes found (by decide)]
        using parts
    rw [between_phrase, Phrase.rule] at enumeration
    simp [emptyEnumeration, Token.unplaced, Token.content, between_token, name, noMembers]
      at enumeration

/-- Between the word for integers and a name stands a type. -/
theorem between_int_iff {word named : String} :
    Between dialect (.phrase .type) ((.intWord, word) :: (.identifier, named) :: rest) behind ↔
      (.identifier, named) :: rest = behind := by
  rw [between_phrase]
  simp [Phrase.rule, between_token, name]

/-- A variable is declared without a value. -/
theorem between_intDecl_iff {word named mark : String} :
    Between dialect (.phrase .varDecl)
        ((.intWord, word) :: (.identifier, named) :: (.semicolon, mark) :: rest) behind ↔
      rest = behind := by
  rw [between_phrase]
  simp only [Phrase.rule, between_append_assoc]
  rw [between_append]
  simp [between_int_iff, between_token, name]

/-- A literal in front of a semicolon is a whole expression. -/
theorem between_true_iff {word mark : String} :
    Between dialect (.phrase .expr) ((.trueWord, word) :: (.semicolon, mark) :: rest) behind ↔
      (.semicolon, mark) :: rest = behind := by
  have notName (behind : List TokenContent) : ¬ Between dialect (.phrase .nameOrCall)
      ((.trueWord, word) :: (.semicolon, mark) :: rest) behind :=
    fun named => absurd (begins_nameOrCall _ _ named) (by simp)
  have operand (behind : List TokenContent) : Between dialect (.phrase .operand)
      ((.trueWord, word) :: (.semicolon, mark) :: rest) behind ↔
        (.semicolon, mark) :: rest = behind := by
    rw [between_phrase]
    simp [Phrase.rule, between_token, between_number, name, notName]
  have ended (behind : List TokenContent) :
      ¬ Between dialect (.phrase .suffix) ((.semicolon, mark) :: rest) behind :=
    fun suffix => absurd (begins_suffix _ _ suffix) (by simp [suffixKinds, operatorKinds])
  rw [between_phrase, Phrase.rule, between_append]
  simp only [operand, exists_eq_left']
  rw [between_many]
  simp [ended]

/-- The head of a loop cannot be derived if its update begins like an assignment
to an array element. -/
theorem not_between_elementUpdate :
    ¬ Between .reference (.phrase .forHead) (elementUpdate.map Token.content ++ rest) behind := by
  have notAssigned {named mark : String} {rest : List TokenContent} (behind : List TokenContent) :
      ¬ Between .reference (.phrase .update)
        ((.identifier, named) :: (.openBracket, mark) :: rest) behind := by
    rw [between_phrase, Phrase.rule, between_phrase]
    simp [Phrase.rule, between_token, name]
  rw [between_phrase]
  simp only [Phrase.rule, between_append_assoc]
  simp [elementUpdate, Token.unplaced, Token.content, between_token, between_intDecl_iff,
    between_true_iff, notAssigned]

/-- A statement of the reference dialect that begins like a loop is one. -/
theorem Between.forLoop_of_forWord (found : headKind ahead = .forWord)
    (between : Between .reference (.phrase .statement) ahead behind) :
    Between .reference (.phrase .forLoop) ahead behind := by
  have field : Begins .reference (.phrase .fieldAssign) exprKinds :=
    .phrase (.append (.append (.append (.phrase (.append (.append begins_expr))))))
  have chain : Begins .reference (.phrase .chain) exprKinds := .phrase (.append begins_operand)
  have call : Begins .reference (.phrase .call)
      (exprKinds ++ [TokenKind.identifier] ++ [TokenKind.openParen]) :=
    .phrase (.or (.append (.optionalAppend (.append chain) .token)) (.append (.append .token)))
  have condition : Begins .reference (.phrase .conditional) [.ifWord] :=
    .phrase (.append (.append (.append .token)))
  have whileLoop : Begins .reference (.phrase .whileLoop) [.whileWord] :=
    .phrase (.append (.append .token))
  simpa [Phrase.rule, begins_block.excludes found (by decide),
    condition.excludes found (by decide), whileLoop.excludes found (by decide),
    begins_ret.excludes found (by decide), begins_assign.append.excludes found (by decide),
    begins_arrayAssign.append.excludes found (by decide), field.excludes found (by decide),
    call.append.excludes found (by decide)] using between_phrase.mp between

/-- Nor is a loop whose update assigns to an array element. -/
theorem not_derives_elementUpdate : ¬ Derives .reference (.phrase .program)
    ((mainTokens elementUpdate).map Token.content) := by
  have notItem (behind : List TokenContent) :
      ¬ Between .reference (.phrase .bodyItem) (bodyAhead elementUpdate 0) behind := by
    intro item
    rcases between_or.mp (between_phrase.mp item) with declaration | statement
    · exact begins_varDecl.excludes (headKind_cons _ _) (by decide) declaration
    · have loop := between_phrase.mp (statement.forLoop_of_forWord rfl)
      rw [Phrase.rule, between_append] at loop
      rcases loop with ⟨middle, head, -⟩
      exact not_between_elementUpdate head
  rw [derives_program_iff, between_many]
  rintro (impossible | ⟨middle, item, -⟩)
  · cases impossible
  · have found : headKind ((mainTokens elementUpdate).map Token.content) = .fnWord := rfl
    have function : Between .reference (.phrase .function)
        ((mainTokens elementUpdate).map Token.content) middle := by
      have parts := between_phrase.mp item
      simpa [Phrase.rule, begins_inclusion.excludes found (by decide),
        begins_enumeration.excludes found (by decide), begins_interface.excludes found (by decide),
        begins_classDecl.excludes found (by decide), begins_varDecl.excludes found (by decide)]
        using parts
    rw [mainTokens_contents, between_mainFunction_iff] at function
    rcases function with ⟨further, items, closed, -⟩
    rcases between_many.mp items with rfl | ⟨_, first, -⟩
    · exact absurd closed (by decide)
    · exact notItem _ first

end Grammar

/-- A call on an instance and an assignment to a field of a sum are derived in
the reference dialect and not read; an enumeration without members and a loop
whose update assigns to an array element are read and not derived. -/
theorem Program.ofTokens_isOk_ne_derives_reference :
    ((Program.ofTokens "" (mainTokens callOnInstance ++ [.unplaced .eof "EOF"])).isOk = false ∧
        Derives .reference (.phrase .program) ((mainTokens callOnInstance).map Token.content)) ∧
      ((Program.ofTokens "" (mainTokens fieldOfSum ++ [.unplaced .eof "EOF"])).isOk = false ∧
        Derives .reference (.phrase .program) ((mainTokens fieldOfSum).map Token.content)) ∧
      ((Program.ofTokens "" (emptyEnumeration ++ [.unplaced .eof "EOF"])).isOk = true ∧
        ¬ Derives .reference (.phrase .program) (emptyEnumeration.map Token.content)) ∧
      ((Program.ofTokens "" (mainTokens elementUpdate ++ [.unplaced .eof "EOF"])).isOk = true ∧
        ¬ Derives .reference (.phrase .program)
          ((mainTokens elementUpdate).map Token.content)) := by
  refine ⟨⟨?_, Grammar.derives_callOnInstance⟩, ⟨?_, Grammar.derives_fieldOfSum⟩,
    ⟨?_, Grammar.not_derives_emptyEnumeration⟩, ⟨?_, Grammar.not_derives_elementUpdate⟩⟩
  all_goals decide +kernel

end KnightFront
