import KnightFront.Proofs.Parse.Stacks
import KnightFront.Proofs.Printing.Tokens

namespace KnightFront

/-!
# Reading printed expressions

In front of tokens that do not go on with an expression, the tokens of a
printed expression are read completely, and what they read back as has the
shape that `Expr.reread` says.
-/

open KnightFront.Parser (Yields)

namespace Parser

/-- Phrases that are read one by one are read with commas between them. -/
theorem yields_commaSeparated {α β γ : Type} {phrase : Parser α} {tokens : β → List TokenContent}
    {found : α → γ} {expected : β → γ} {after : List TokenContent} (ends : headKind after ≠ .comma)
    {listed : List β} (some : listed ≠ []) {cursor : Cursor}
    (reads : ∀ element ∈ listed, ∀ inner rest, inner.remaining ≤ cursor.remaining →
      headKind rest = .comma ∨ rest = after → inner.contents = tokens element ++ rest →
      Yields phrase inner fun value behind =>
        found value = expected element ∧ behind.contents = rest)
    (ahead : cursor.contents = commaTokens (listed.map tokens) ++ after) :
    Yields (commaSeparated phrase) cursor fun values behind =>
      values.map found = listed.map expected ∧ behind.contents = after := by
  refine yields_rounds_of_invariant
    (fun collected inner => ∃ others ≠ [], (∀ element ∈ others, element ∈ listed) ∧
      collected.reverse.map found ++ others.map expected = listed.map expected ∧
      inner.contents = commaTokens (others.map tokens) ++ after ∧
      inner.remaining ≤ cursor.remaining)
    ?_ ⟨listed, some, fun _ member => member, rfl, ahead, Nat.le_refl _⟩
  rintro collected inner ⟨others, notEmpty, within, agreeing, front, fits⟩
  simp only [yields_bind]
  cases others with
  | nil => exact absurd rfl notEmpty
  | cons first others =>
      cases others with
      | nil =>
          refine (reads first (within first List.mem_cons_self) inner after fits (.inr rfl)
            (by simpa using front)).mono fun value behind facts => ?_
          rcases facts with ⟨agrees, same⟩
          simpa [same, ends, agrees] using agreeing
      | cons second more =>
          simp only [List.map_cons, commaTokens_cons_cons, List.append_assoc,
            List.cons_append] at front
          refine (reads first (within first List.mem_cons_self) inner _ fits (.inl rfl)
            front).mono fun value behind facts => ?_
          rcases facts with ⟨agrees, same⟩
          have shorter : behind.advance.remaining < inner.remaining := by
            simp only [Cursor.remaining_eq, Cursor.contents_advance, same, front, List.tail_cons,
              List.length_append, List.length_cons]
            omega
          simp only [yields_currentKind, same, headKind_cons, if_true, yields_bind, yields_take,
            yields_pure]
          refine ⟨shorter, second :: more, by simp, ?_, ?_, by simp [same], by omega⟩
          · exact fun element member => within element (List.mem_cons_of_mem first member)
          · simpa [agrees] using agreeing

/-- A natural number written in decimal is read back. -/
theorem natural?_toString (number : Nat) : natural? (toString number).toList = some number := by
  have digits : (toString number).toList = Nat.toDigits 10 number := by simp
  have value : (toString number).toList.foldl
      (fun total digit => 10 * total + (digit.toNat - '0'.toNat)) 0 = number := by
    rw [digits, ← Nat.ofDigitChars_eq_foldl]
    exact Nat.ofDigitChars_ten_toDigits
  have allDigits : (toString number).toList.all Char.isDigit = true :=
    List.all_eq_true.mpr (isDigit_of_mem_toString number)
  have notEmpty : (toString number).toList.isEmpty = false := by simp
  simp only [natural?, notEmpty, allDigits, Bool.not_true, Bool.or_self, Bool.false_eq_true,
    if_false, value]

/-- A number that needs no sign is read back unless it is too large. -/
theorem decimal?_toString {number : Int} (nonneg : 0 ≤ number) (fits : number ≤ largestNumber) :
    decimal? (toString number).toList = some number := by
  rcases Int.eq_ofNat_of_zero_le nonneg with ⟨size, rfl⟩
  have spelled : integer? (toString size).toList = some (size : Int) :=
    calc
      integer? (toString size).toList
          = (natural? (toString size).toList).map fun size : Nat => (size : Int) :=
        integer?_of_isDigit (isDigit_of_mem_toString size)
      _ = some (size : Int) := by rw [natural?_toString, Option.map_some]
  have negative : smallestNumber ≤ 0 := by decide
  exact decimal?_eq_some_iff.mpr ⟨spelled, Int.le_trans negative nonneg, fits⟩

end Parser

/-- Whether no expression goes on with these tokens. -/
def Stops (rest : List TokenContent) : Prop :=
  BinaryOp.ofToken? (headKind rest) = none ∧ headKind rest ∉ [.dot, .openBracket, .openParen]

instance (rest : List TokenContent) : Decidable (Stops rest) :=
  inferInstanceAs (Decidable (_ ∧ _))

theorem stops_cons {kind : TokenKind} {value : String} {rest : List TokenContent} :
    Stops ((kind, value) :: rest) ↔
      BinaryOp.ofToken? kind = none ∧ kind ∉ [.dot, .openBracket, .openParen] := Iff.rfl

namespace Expr

/-- The tokens inside the parentheses of a printed binary expression.  Any
other expression is printed without parentheses. -/
def levelTokens : Expr → List TokenContent
  | binary _ op left right => left.tokens ++ (op.token, op.symbol) :: right.tokens
  | expr => expr.tokens

/-- The kinds that begin a printed expression. -/
def firstKinds : List TokenKind :=
  [.number, .string, .trueWord, .falseWord, .identifier, .openParen, .openBracket, .newWord]

theorem headKind_tokens_mem : (expr : Expr) → (rest : List TokenContent) →
    headKind (expr.tokens ++ rest) ∈ firstKinds
  | int .., _ => by simp [tokens, firstKinds]
  | string .., _ => by simp [tokens, firstKinds]
  | bool _ value, _ => by cases value <;> simp [tokens, firstKinds]
  | name .., _ => by simp [tokens, firstKinds]
  | binary .., _ => by simp [tokens, firstKinds]
  | call .., _ => by simp [tokens, firstKinds]
  | methodCall _ receiver _ _, rest => by
      simpa only [tokens, List.append_assoc] using headKind_tokens_mem receiver _
  | field _ receiver _, rest => by
      simpa only [tokens, List.append_assoc] using headKind_tokens_mem receiver _
  | newInstance .., _ => by simp [tokens, firstKinds]
  | newArray .., _ => by simp [tokens, firstKinds]
  | index _ base _, rest => by
      simpa only [tokens, List.append_assoc] using headKind_tokens_mem base _
  | array .., _ => by simp [tokens, firstKinds]

theorem tokensOfList_eq (exprs : List Expr) : tokensOfList exprs = commaTokens (exprs.map tokens) := by
  induction exprs with
  | nil => rfl
  | cons first rest inductionHypothesis =>
      cases rest with
      | nil => simp [tokensOfList]
      | cons second more => simp [tokensOfList, inductionHypothesis]

end Expr

/-- In front of the tokens of a printed expression, a condition that holds of
what it reads back as and of what follows. -/
def ExprSpec (cursor : Cursor) (post : Expr → Cursor → Prop) : Prop :=
  ∃ (expr : Expr) (rest : List TokenContent), expr.Written ∧ Stops rest ∧
    (cursor.contents = expr.tokens ++ rest ∨ cursor.contents = expr.levelTokens ++ rest) ∧
    ∀ value behind, value.bare = expr.reread → behind.contents = rest → post value behind

/-- A reader reads printed expressions wherever fewer tokens are left than a
limit. -/
def ReadsBelow (nested : Parser Expr) (limit : Nat) : Prop :=
  ∀ inner post, inner.remaining < limit → ExprSpec inner post → Yields nested inner post

variable {nested : Parser Expr} {cursor : Cursor} {rest : List TokenContent}

theorem ReadsBelow.expr {limit : Nat} (reads : ReadsBelow nested limit)
    (shorter : cursor.remaining < limit) {expr : Expr} (written : expr.Written) (stops : Stops rest)
    (ahead : cursor.contents = expr.tokens ++ rest) :
    Yields nested cursor fun value behind =>
      value.bare = expr.reread ∧ behind.contents = rest :=
  reads cursor _ shorter
    ⟨expr, rest, written, stops, .inl ahead, fun _ _ shape same => ⟨shape, same⟩⟩

theorem ReadsBelow.level {limit : Nat} (reads : ReadsBelow nested limit)
    (shorter : cursor.remaining < limit) {expr : Expr} (written : expr.Written) (stops : Stops rest)
    (ahead : cursor.contents = expr.levelTokens ++ rest) :
    Yields nested cursor fun value behind =>
      value.bare = expr.reread ∧ behind.contents = rest :=
  reads cursor _ shorter
    ⟨expr, rest, written, stops, .inr ahead, fun _ _ shape same => ⟨shape, same⟩⟩

/-- Expressions with commas between them are read up to the token that closes
their list. -/
theorem ReadsBelow.list {limit : Nat} (reads : ReadsBelow nested limit)
    (shorter : cursor.remaining < limit) {close : TokenContent}
    (stops : Stops [close]) (closes : close.1 ∉ Expr.firstKinds) (ends : close.1 ≠ .comma)
    {exprs : List Expr} (written : Expr.WrittenList exprs)
    (ahead : cursor.contents = Expr.tokensOfList exprs ++ close :: rest) :
    Yields (Parser.listUpTo close.1 nested) cursor fun values behind =>
      Expr.bareList values = Expr.rereadList exprs ∧ behind.contents = close :: rest := by
  rw [Expr.tokensOfList_eq] at ahead
  simp only [Parser.listUpTo, Parser.yields_bind, Parser.yields_currentKind]
  cases exprs with
  | nil => simp [ahead, Expr.bareList, Expr.rereadList]
  | cons first others =>
      have opens : headKind cursor.contents ≠ close.1 := by
        intro same
        rw [ahead, ← Expr.tokensOfList_eq] at same
        have begins : ∃ more, Expr.tokensOfList (first :: others) ++ close :: rest =
            first.tokens ++ more := by
          cases others <;> simp [Expr.tokensOfList]
        rcases begins with ⟨more, begins⟩
        rw [begins] at same
        exact closes (same ▸ first.headKind_tokens_mem more)
      simp only [opens, if_false]
      simp only [Expr.bareList_eq_map, Expr.rereadList_eq_map]
      refine Parser.yields_commaSeparated (show headKind (close :: rest) ≠ .comma from ends)
        (by simp) (fun element member inner after fits follows front => ?_) ahead
      have stopsAfter : Stops after := by
        rcases follows with comma | rfl
        · simp [Stops, comma, BinaryOp.ofToken?]
        · exact stops
      exact reads.expr (by omega) (Expr.writtenList_iff.mp written element member) stopsAfter front

/-- Arguments are read with their parentheses. -/
theorem ReadsBelow.arguments {limit : Nat} (reads : ReadsBelow nested limit)
    (shorter : cursor.remaining ≤ limit) {args : List Expr} (written : Expr.WrittenList args)
    (ahead : cursor.contents =
      (.openParen, "(") :: (Expr.tokensOfList args ++ (.closeParen, ")") :: rest)) :
    Yields (Parser.arguments nested) cursor fun values behind =>
      Expr.bareList values = Expr.rereadList args ∧ behind.contents = rest := by
  have fewer : cursor.advance.remaining < limit := by
    simp only [Cursor.remaining_eq, Cursor.contents_advance, ahead, List.tail_cons,
      List.length_cons] at shorter ⊢
    omega
  have inside : cursor.advance.contents =
      Expr.tokensOfList args ++ (.closeParen, ")") :: rest := by
    simp [ahead]
  simp only [Parser.arguments, Parser.yields_bind, Parser.yields_expect, ahead, headKind_cons,
    true_and]
  refine (reads.list fewer (stops_cons.mpr (by decide)) (by decide) (by decide) written
    inside).mono fun values behind facts => ?_
  rcases facts with ⟨shapes, same⟩
  simp [same, shapes]

/-- A name in front of arguments is read as a call. -/
theorem ReadsBelow.call {limit : Nat} (reads : ReadsBelow nested limit)
    (shorter : cursor.remaining ≤ limit) {args : List Expr} (written : Expr.WrittenList args)
    (ahead : cursor.contents =
      (.openParen, "(") :: (Expr.tokensOfList args ++ (.closeParen, ")") :: rest))
    (id : NodeId) (token : Token) :
    Yields (Parser.nameOrCall nested id token) cursor fun value behind =>
      (∃ info values, value = .call info { text := token.value, span := token.span } values ∧
        Expr.bareList values = Expr.rereadList args) ∧ behind.contents = rest := by
  simp only [Parser.nameOrCall, Parser.yields_bind, Parser.yields_currentKind, ahead,
    headKind_cons, if_true]
  refine (reads.arguments shorter written ahead).mono fun values behind facts => ?_
  simp only [Parser.yields_spanFrom, Parser.yields_pure]
  exact ⟨⟨_, values, rfl, facts.1⟩, facts.2⟩

/-- A name in front of anything else is read as a name. -/
theorem yields_nameOrCall_name (plain : headKind cursor.contents ≠ .openParen) (id : NodeId)
    (token : Token) :
    Yields (Parser.nameOrCall nested id token) cursor fun value behind =>
      (∃ info, value = .name info { text := token.value, span := token.span }) ∧ behind = cursor := by
  simp only [Parser.nameOrCall, Parser.yields_bind, Parser.yields_currentKind, plain, if_false,
    Parser.yields_pure, and_true]
  exact ⟨_, rfl⟩

/-! ## One operator -/

open ExprStacks (Represents Settled)

section Rounds

variable {base state : ExprStacks} {shape : Expr}

/-- Behind a dot, the expression is settled and a name or call is read. -/
theorem yields_operatorRound_dot (represents : Represents base shape state) {name : String}
    {after : List TokenContent}
    (ahead : cursor.contents = (.dot, ".") :: (.identifier, name) :: after)
    {post : Parser.Round ExprStacks Expr → Cursor → Prop}
    (continues : ∀ settled inner id token, Settled base shape settled → inner.contents = after →
      token.value = name →
      Yields (Parser.nameOrCall nested id token) inner fun right behind =>
        post (.again ⟨.member :: settled.operators, right :: settled.operands⟩) behind) :
    Yields (Parser.operatorRound nested state) cursor post := by
  simp only [Parser.operatorRound, Parser.yields_bind, Parser.yields_currentKind, ahead,
    headKind_cons, BinaryOp.ofToken?, if_true, Parser.yields_take, ExprStacks.pushOperator]
  refine (represents cursor.advance).mono fun settled behind facts => ?_
  rcases facts with ⟨holds, same⟩
  rw [Cursor.contents_advance, ahead, List.tail_cons] at same
  simp only [Parser.yields_pure, Parser.yields_bind, Parser.member, Parser.yields_freshId,
    Parser.yields_expectOr, Cursor.contents_withNextId, same, headKind_cons, true_and]
  refine (continues settled _ _ _ holds ?_ (Cursor.current_value (by simpa using same))).mono
    fun right further holds => by simpa [ExprStacks.pushOperand] using holds
  simp [same]

/-- Behind a bracket, the expression is completed and a position is read. -/
theorem yields_operatorRound_bracket (opened : base.Open) (represents : Represents base shape state)
    {limit : Nat} (reads : ReadsBelow nested limit) (shorter : cursor.remaining ≤ limit)
    {position : Expr} (written : position.Written)
    (ahead : cursor.contents =
      (.openBracket, "[") :: (position.tokens ++ (.closeBracket, "]") :: rest))
    {post : Parser.Round ExprStacks Expr → Cursor → Prop}
    (continues : ∀ next behind, Represents base (.index .bare shape position.reread) next →
      behind.contents = rest → post (.again next) behind) :
    Yields (Parser.operatorRound nested state) cursor post := by
  simp only [Parser.operatorRound, Parser.yields_bind, Parser.yields_currentKind, ahead,
    headKind_cons, BinaryOp.ofToken?, reduceCtorEq, if_false, if_true, Parser.yields_take]
  refine represents.complete (by decide) fun outer behind bare same => ?_
  rw [Cursor.contents_advance, ahead, List.tail_cons] at same
  rw [opened.reduce_index, Parser.yields_pure]
  have fewer : behind.remaining < limit := by
    simp only [Cursor.remaining_eq, ahead, same, List.length_cons] at shorter ⊢
    omega
  refine (reads.expr fewer written (stops_cons.mpr (by decide)) same).mono fun inner further facts => ?_
  rcases facts with ⟨innerBare, rest⟩
  simp only [rest, Parser.yields_expect, Parser.yields_pure, headKind_cons, true_and]
  exact continues _ _ (bare ▸ innerBare ▸ .index _ outer inner) (by simp [rest])

end Rounds

/-! ## One level -/

/-- An operand and the operators that print it without parentheses are read on
top of waiting binary operators.  What a repetition yields from the stacks
that represent the operand, it yields from the beginning. -/
def ReadsOperand (nested : Parser Expr) (expr : Expr) : Prop :=
  ∀ (base : ExprStacks), base.Open → ∀ (cursor : Cursor) (rest : List TokenContent),
    cursor.contents = expr.tokens ++ rest → headKind rest ≠ .openParen →
    ReadsBelow nested cursor.remaining → ∀ (post : Expr → Cursor → Prop),
    (∀ state behind, Represents base expr.reread state → behind.contents = rest →
      Yields (Parser.rounds (Parser.operatorRound nested) state) behind post) →
    Yields (Parser.operand nested base) cursor fun state behind =>
      behind.remaining < cursor.remaining ∧
        Yields (Parser.rounds (Parser.operatorRound nested) state) behind post

section Operands

variable {info : ExprInfo}

/-- A number is read. -/
theorem readsOperand_int {value : Int} (written : (Expr.int info value).Written) :
    ReadsOperand nested (.int info value) := by
  intro base opened cursor rest ahead _ reads post continues
  rcases Expr.written_int.mp written with ⟨nonneg, fits⟩
  simp only [Expr.tokens, List.cons_append, List.nil_append] at ahead
  have spelled := Parser.decimal?_toString nonneg fits
  rw [← Cursor.current_value ahead] at spelled
  simp only [Parser.operand, Parser.yields_bind, Parser.yields_freshId, Parser.yields_currentKind,
    Parser.numberLiteral, Cursor.contents_withNextId, ahead, headKind_cons, Parser.yields_take,
    Cursor.current_withNextId, spelled, Parser.yields_pure]
  refine ⟨by simp [Cursor.remaining_eq, ahead], continues _ _ (.operand opened rfl rfl) ?_⟩
  simp [ahead]

/-- A string is read. -/
theorem readsOperand_string {value : String} : ReadsOperand nested (.string info value) := by
  intro base opened cursor rest ahead _ reads post continues
  simp only [Expr.tokens, List.cons_append, List.nil_append] at ahead
  have spelled := Cursor.current_value ahead
  simp only [Parser.operand, Parser.yields_bind, Parser.yields_freshId, Parser.yields_currentKind,
    Cursor.contents_withNextId, ahead, headKind_cons, Parser.yields_take,
    Cursor.current_withNextId, spelled, Parser.yields_pure]
  refine ⟨by simp [Cursor.remaining_eq, ahead], continues _ _ (.operand opened rfl rfl) ?_⟩
  simp [ahead]

/-- A truth value is read. -/
theorem readsOperand_bool {value : Bool} : ReadsOperand nested (.bool info value) := by
  intro base opened cursor rest ahead _ reads post continues
  cases value <;>
  · simp only [Expr.tokens, if_true, Bool.false_eq_true, if_false, List.cons_append,
      List.nil_append] at ahead
    simp only [Parser.operand, Parser.yields_bind, Parser.yields_freshId,
      Parser.yields_currentKind, Cursor.contents_withNextId, ahead, headKind_cons,
      Parser.yields_take, Parser.yields_pure]
    refine ⟨by simp [Cursor.remaining_eq, ahead], continues _ _ (.operand opened rfl rfl) ?_⟩
    simp [ahead]

/-- A name is read. -/
theorem readsOperand_name {used : NameUse} : ReadsOperand nested (.name info used) := by
  intro base opened cursor rest ahead plain reads post continues
  simp only [Expr.tokens, List.cons_append, List.nil_append] at ahead
  have spelled := Cursor.current_value ahead
  simp only [Parser.operand, Parser.yields_bind, Parser.yields_freshId, Parser.yields_currentKind,
    Cursor.contents_withNextId, ahead, headKind_cons, Parser.yields_take]
  refine (yields_nameOrCall_name (by simpa [ahead] using plain) _ _).mono
    fun value behind facts => ?_
  rcases facts with ⟨⟨info, rfl⟩, rfl⟩
  rw [Parser.yields_pure]
  refine ⟨by simp [Cursor.remaining_eq, ahead], continues _ _ (.operand opened rfl ?_) ?_⟩
  · exact congrArg _ (NameUse.bare_eq_iff.mpr spelled)
  · simp [ahead]

/-- A binary expression is read as a level between parentheses. -/
theorem readsOperand_binary {op : BinaryOp} {left right : Expr}
    (written : (Expr.binary info op left right).Written) :
    ReadsOperand nested (.binary info op left right) := by
  intro base opened cursor rest ahead _ reads post continues
  simp only [Expr.tokens, List.cons_append, List.append_assoc, List.nil_append] at ahead
  simp only [Parser.operand, Parser.yields_bind, Parser.yields_freshId, Parser.yields_currentKind,
    Cursor.contents_withNextId, ahead, headKind_cons, Parser.yields_take]
  have inside : Cursor.contents (Cursor.advance { cursor with nextId := cursor.nextId + 1 }) =
      (Expr.binary info op left right).levelTokens ++ (.closeParen, ")") :: rest := by
    simp [ahead, Expr.levelTokens]
  refine (reads.level (by simp [Cursor.remaining_eq, ahead]) written
    (stops_cons.mpr (by decide)) inside).mono fun value behind facts => ?_
  rcases facts with ⟨bare, same⟩
  simp only [Parser.yields_expect, same, headKind_cons, Parser.yields_pure, true_and]
  refine ⟨by simp [Cursor.remaining_eq, same, ahead]; omega,
    continues _ _ (.operand opened ?_ bare) (by simp [same])⟩
  rw [← Expr.isIndex_bare, bare]
  rfl

/-- A call is read with its arguments. -/
theorem readsOperand_call {callee : NameUse} {args : List Expr}
    (written : (Expr.call info callee args).Written) :
    ReadsOperand nested (.call info callee args) := by
  intro base opened cursor rest ahead _ reads post continues
  rw [Expr.written_call] at written
  simp only [Expr.tokens, List.cons_append, List.append_assoc, List.nil_append] at ahead
  have spelled := Cursor.current_value ahead
  simp only [Parser.operand, Parser.yields_bind, Parser.yields_freshId, Parser.yields_currentKind,
    Cursor.contents_withNextId, ahead, headKind_cons, Parser.yields_take]
  refine (reads.call (by simp [Cursor.remaining_eq, ahead]) written.2 (by simp [ahead]; rfl)
    _ _).mono fun value behind facts => ?_
  rcases facts with ⟨⟨info, values, rfl, shapes⟩, same⟩
  rw [Parser.yields_pure]
  refine ⟨by simp [Cursor.remaining_eq, same, ahead]; omega,
    continues _ _ (.operand opened rfl ?_) same⟩
  simp only [Expr.bare, Expr.reread, shapes]
  exact congrArg (Expr.call _ · _) (NameUse.bare_eq_iff.mpr spelled)

/-- Behind its receiver, the call of a method is read. -/
theorem readsOperand_methodCall {receiver : Expr} {callee : NameUse} {args : List Expr}
    (written : (Expr.methodCall info receiver callee args).Written)
    (front : ReadsOperand nested receiver) :
    ReadsOperand nested (.methodCall info receiver callee args) := by
  intro base opened cursor rest ahead _ reads post continues
  rw [Expr.written_methodCall] at written
  simp only [Expr.tokens, List.cons_append, List.append_assoc, List.nil_append] at ahead
  refine front base opened cursor _ ahead (by simp) reads post
    fun state behind represents same => Parser.yields_rounds ?_
  refine yields_operatorRound_dot represents same
    fun settled inner id token holds after spelled => ?_
  have fits : inner.remaining ≤ cursor.remaining ∧ inner.remaining < behind.remaining := by
    simp only [Cursor.remaining_eq, ahead, same, after, List.length_append, List.length_cons]
    omega
  refine (reads.call fits.1 written.2.2 after id token).mono fun right further facts => ?_
  rcases facts with ⟨⟨info, values, rfl, shapes⟩, follows⟩
  refine ⟨?_, continues _ _ (Represents.member opened holds (fun _ _ => rfl) (fun _ => rfl)
    fun inner => ?_) follows⟩
  · simp only [Cursor.remaining_eq, same, follows, List.length_append, List.length_cons]
    omega
  · simp only [Expr.bare, shapes]
    exact congrArg (Expr.methodCall _ _ · _) (NameUse.bare_eq_iff.mpr spelled)

/-- Behind its receiver, a field is read. -/
theorem readsOperand_field {receiver : Expr} {used : NameUse}
    (front : ReadsOperand nested receiver) : ReadsOperand nested (.field info receiver used) := by
  intro base opened cursor rest ahead plain reads post continues
  simp only [Expr.tokens, List.cons_append, List.append_assoc, List.nil_append] at ahead
  refine front base opened cursor _ ahead (by simp) reads post
    fun state behind represents same => Parser.yields_rounds ?_
  refine yields_operatorRound_dot represents same
    fun settled inner id token holds after spelled => ?_
  refine (yields_nameOrCall_name (after ▸ plain) id token).mono fun right further facts => ?_
  rcases facts with ⟨⟨info, rfl⟩, rfl⟩
  refine ⟨?_, continues _ _ (Represents.member opened holds (fun _ _ => rfl) (fun _ => rfl)
    fun inner => ?_) after⟩
  · simp only [Cursor.remaining_eq, same, after, List.length_cons]
    omega
  · exact congrArg (Expr.field _ _ ·) (NameUse.bare_eq_iff.mpr spelled)

/-- A new instance is read, its keyword as an operator. -/
theorem readsOperand_newInstance {className : NameUse} :
    ReadsOperand nested (.newInstance info className) := by
  intro base opened cursor rest ahead _ reads post continues
  simp only [Expr.tokens, List.cons_append, List.nil_append] at ahead
  have spelled : cursor.advance.current.value = className.text :=
    Cursor.current_value (by rw [Cursor.contents_advance, ahead]; rfl)
  have pushed (keyword : Span) :
      base.pushOperator (.instantiation keyword) =
        pure { base with operators := .instantiation keyword :: base.operators } := by
    have unchanged : base.reduce .instantiation = pure base :=
      ExprStacks.reduce_of_lt fun top first => Nat.lt_trans (opened top first) (by decide)
    simp [ExprStacks.pushOperator, StackedOperator.priority, unchanged]
  simp only [Parser.operand, Parser.yields_bind, Parser.yields_freshId, Parser.yields_currentKind,
    Cursor.contents_withNextId, Cursor.advance_withNextId, Cursor.contents_advance, ahead,
    headKind_cons, List.tail_cons, Parser.creation, Parser.yields_expect, Parser.yields_take,
    Parser.yields_spanFrom, pushed, Parser.yields_pure, true_and]
  refine ⟨?_, continues _ _ (.instantiation opened spelled) (by simp [ahead])⟩
  simp only [Cursor.remaining_eq, Cursor.contents_withNextId, Cursor.contents_advance, ahead,
    List.tail_cons, List.length_cons]
  omega

/-- A new array is read with its length. -/
theorem readsOperand_newArray {element : ElementTy} {length : Expr}
    (written : (Expr.newArray info element length).Written) :
    ReadsOperand nested (.newArray info element length) := by
  intro base opened cursor rest ahead _ reads post continues
  rw [Expr.written_newArray] at written
  have read (word : TokenContent) (typed : element.ty.tokens = [word]) :
      Yields (Parser.arrayInstance nested cursor.nextId cursor.current.span.start element)
        { cursor.advance with nextId := cursor.nextId + 1 } fun value behind =>
          behind.remaining < cursor.remaining ∧
            Yields (Parser.rounds (Parser.operatorRound nested) (base.pushOperand value)) behind
              post := by
    simp only [Expr.tokens, typed, List.cons_append, List.append_assoc, List.nil_append] at ahead
    have inside : Cursor.contents
        { cursor.advance.advance.advance with nextId := cursor.nextId + 1 } =
          length.tokens ++ (.closeBracket, "]") :: rest := by
      simp [ahead]
    have fewer : Cursor.remaining
        { cursor.advance.advance.advance with nextId := cursor.nextId + 1 } <
          cursor.remaining := by
      simp only [Cursor.remaining_eq, inside, ahead, List.length_cons]
      omega
    simp only [Parser.arrayInstance, Parser.yields_bind, Parser.yields_take,
      Parser.yields_expect, Cursor.advance_withNextId, Cursor.contents_withNextId,
      Cursor.contents_advance, ahead, List.tail_cons, headKind_cons, true_and]
    refine (reads.expr fewer written (stops_cons.mpr (by decide)) inside).mono
      fun value behind facts => ?_
    rcases facts with ⟨bare, same⟩
    simp only [same, headKind_cons, Parser.yields_spanFrom, Parser.yields_pure, true_and]
    refine ⟨?_, continues _ _ (.operand opened rfl (congrArg _ bare)) (by simp [same])⟩
    simp only [Cursor.remaining_eq, Cursor.contents_advance, same, ahead, List.tail_cons,
      List.length_append, List.length_cons]
    omega
  cases element with
  | int =>
      simp only [Expr.tokens, ElementTy.ty, Ty.tokens, List.cons_append] at ahead
      simp only [Parser.operand, Parser.yields_bind, Parser.yields_freshId,
        Parser.yields_currentKind, Cursor.contents_withNextId, Cursor.advance_withNextId,
        Cursor.contents_advance, ahead, headKind_cons, List.tail_cons, Parser.creation,
        Parser.yields_expect, Parser.yields_pure, true_and]
      exact read _ rfl
  | string =>
      simp only [Expr.tokens, ElementTy.ty, Ty.tokens, List.cons_append] at ahead
      simp only [Parser.operand, Parser.yields_bind, Parser.yields_freshId,
        Parser.yields_currentKind, Cursor.contents_withNextId, Cursor.advance_withNextId,
        Cursor.contents_advance, ahead, headKind_cons, List.tail_cons, Parser.creation,
        Parser.yields_expect, Parser.yields_pure, true_and]
      exact read _ rfl

/-- Behind its base, a position is read. -/
theorem readsOperand_index {outer position : Expr}
    (written : (Expr.index info outer position).Written) (front : ReadsOperand nested outer) :
    ReadsOperand nested (.index info outer position) := by
  intro base opened cursor rest ahead _ reads post continues
  rw [Expr.written_index] at written
  simp only [Expr.tokens, List.cons_append, List.append_assoc, List.nil_append] at ahead
  refine front base opened cursor _ ahead (by simp) reads post
    fun state behind represents same => Parser.yields_rounds ?_
  have fits : behind.remaining ≤ cursor.remaining := by
    simp only [Cursor.remaining_eq, ahead, same, List.length_append, List.length_cons]
    omega
  refine yields_operatorRound_bracket opened represents reads fits written.2 same
    fun next further holds follows => ⟨?_, continues next further holds follows⟩
  simp only [Cursor.remaining_eq, same, follows, List.length_append, List.length_cons]
  omega

/-- An array is read with its items. -/
theorem readsOperand_array {items : List Expr} (written : (Expr.array info items).Written) :
    ReadsOperand nested (.array info items) := by
  intro base opened cursor rest ahead _ reads post continues
  rw [Expr.written_array] at written
  simp only [Expr.tokens, List.cons_append, List.append_assoc, List.nil_append] at ahead
  simp only [Parser.operand, Parser.yields_bind, Parser.yields_freshId, Parser.yields_currentKind,
    Cursor.contents_withNextId, ahead, headKind_cons, Parser.arrayLiteral, Parser.yields_position,
    Parser.yields_take]
  have inside : Cursor.contents (Cursor.advance { cursor with nextId := cursor.nextId + 1 }) =
      Expr.tokensOfList items ++ (.closeBracket, "]") :: rest := by
    simp [ahead]
  refine (reads.list (by simp [Cursor.remaining_eq, ahead]) (stops_cons.mpr (by decide))
    (by decide) (by decide) written inside).mono fun values behind facts => ?_
  rcases facts with ⟨shapes, same⟩
  simp only [Parser.yields_expect, same, headKind_cons, Parser.yields_spanFrom,
    Parser.yields_pure, true_and]
  refine ⟨by simp [Cursor.remaining_eq, same, ahead]; omega,
    continues _ _ (.operand opened rfl (congrArg _ shapes)) (by simp [same])⟩

end Operands

/-- Every printed expression is read as an operand. -/
theorem yields_operand : (expr : Expr) → expr.Written → ReadsOperand nested expr
  | .int .. => readsOperand_int
  | .string .. => fun _ => readsOperand_string
  | .bool .. => fun _ => readsOperand_bool
  | .name .. => fun _ => readsOperand_name
  | .newInstance .. => fun _ => readsOperand_newInstance
  | .binary .. => readsOperand_binary
  | .call .. => readsOperand_call
  | .newArray .. => readsOperand_newArray
  | .array .. => readsOperand_array
  | .methodCall _ receiver _ _ => fun written =>
      readsOperand_methodCall written
        (yields_operand receiver (Expr.written_methodCall.mp written).2.1)
  | .field _ receiver _ => fun written =>
      readsOperand_field (yields_operand receiver (Expr.written_field.mp written).2)
  | .index _ outer _ => fun written =>
      readsOperand_index written (yields_operand outer (Expr.written_index.mp written).1)

/-- In front of tokens that do not go on with an expression, the level ends
with what the stacks come down to. -/
theorem yields_rounds_of_stops {state : ExprStacks} {post : Expr → Cursor → Prop}
    (stops : Stops cursor.contents)
    (result : Yields state.result cursor post) :
    Yields (Parser.rounds (Parser.operatorRound nested) state) cursor post := by
  rcases stops with ⟨noOperator, others⟩
  have noDot : headKind cursor.contents ≠ .dot := fun same => others (by simp [same])
  have noBracket : headKind cursor.contents ≠ .openBracket := fun same => others (by simp [same])
  apply Parser.yields_rounds
  simp only [Parser.operatorRound, Parser.yields_bind, Parser.yields_currentKind, noOperator, noDot,
    noBracket, if_false, Parser.yields_pure]
  exact result

/-- An expression that is printed without parentheses is read by a level. -/
theorem yields_exprLevel_tokens {expr : Expr} (written : expr.Written) (stops : Stops rest)
    (ahead : cursor.contents = expr.tokens ++ rest) (reads : ReadsBelow nested cursor.remaining) :
    Yields (Parser.exprLevel nested) cursor fun value behind =>
      value.bare = expr.reread ∧ behind.contents = rest := by
  have plain : headKind rest ≠ .openParen := fun same => stops.2 (by simp [same])
  have opened : ExprStacks.empty.Open := by simp [ExprStacks.Open, ExprStacks.empty]
  simp only [Parser.exprLevel, Parser.yields_bind]
  refine (yields_operand expr written .empty opened cursor rest ahead plain reads _
    fun state behind represents same => yields_rounds_of_stops (same ▸ stops) ?_).mono
    fun _ _ facts => facts.2
  simp only [ExprStacks.result, Parser.yields_bind]
  refine represents.complete (by decide) fun value further bare follows => ?_
  simp [ExprStacks.reduce, ExprStacks.reduceList, ExprStacks.empty, bare, follows, same]

/-- What stands between the parentheses of a binary expression is read by a
level. -/
theorem yields_exprLevel_binary {info : ExprInfo} {op : BinaryOp} {left right : Expr}
    (written : (Expr.binary info op left right).Written) (stops : Stops rest)
    (ahead : cursor.contents = left.tokens ++ (op.token, op.symbol) :: (right.tokens ++ rest))
    (reads : ReadsBelow nested cursor.remaining) :
    Yields (Parser.exprLevel nested) cursor fun value behind =>
      value.bare = (Expr.binary info op left right).reread ∧ behind.contents = rest := by
  rw [Expr.written_binary] at written
  have plain : headKind rest ≠ .openParen := fun same => stops.2 (by simp [same])
  have isOperator : op.token ≠ .openParen := by cases op <;> decide
  have opened : ExprStacks.empty.Open := by simp [ExprStacks.Open, ExprStacks.empty]
  simp only [Parser.exprLevel, Parser.yields_bind]
  refine (yields_operand left written.1 .empty opened cursor _ ahead isOperator reads _
    fun state behind represents same => Parser.yields_rounds ?_).mono fun _ _ facts => facts.2
  simp only [Parser.operatorRound, Parser.yields_bind, Parser.yields_currentKind, same,
    headKind_cons, BinaryOp.ofToken?_eq_some_iff.mpr rfl, Parser.yields_take,
    ExprStacks.pushOperator, StackedOperator.priority]
  refine represents.complete (Nat.le_of_lt op.priority_lt_index) fun first further bare follows => ?_
  rw [Cursor.contents_advance, same, List.tail_cons] at follows
  have openedAgain : ExprStacks.Open ⟨[.binary op], [first]⟩ := by
    simpa [ExprStacks.Open, StackedOperator.priority] using op.priority_lt_index
  have shorter : further.remaining < behind.remaining ∧ further.remaining ≤ cursor.remaining := by
    simp only [Cursor.remaining_eq, same, follows, ahead, List.length_append, List.length_cons]
    omega
  have readsOn : ReadsBelow nested further.remaining := fun inner post fewer spec =>
    reads inner post (by omega) spec
  simp only [ExprStacks.reduce, ExprStacks.reduceList, ExprStacks.empty, Parser.yields_pure]
  refine (yields_operand right written.2 ⟨[.binary op], [first]⟩ openedAgain further rest follows
    plain readsOn _ fun state last represents same => yields_rounds_of_stops (same ▸ stops) ?_).mono
    fun state last facts => ⟨by omega, facts.2⟩
  simp only [ExprStacks.result, Parser.yields_bind]
  refine represents.complete (by decide) fun second final bareSecond ends => ?_
  have lowest : Priority.sentinel ≤ (StackedOperator.binary op).priority := Nat.zero_le _
  rw [ExprStacks.reduce_cons_of_le lowest]
  simp [ExprStacks.apply, ExprStacks.reduce, ExprStacks.reduceList, same, ends, Expr.bare,
    Expr.reread, bare, bareSecond]

/-- The tokens of a printed expression are read back with the shape that
`Expr.reread` says. -/
theorem yields_expr {expr : Expr} (written : expr.Written) (stops : Stops rest)
    (ahead : cursor.contents = expr.tokens ++ rest) :
    Yields Parser.expr cursor fun value behind =>
      value.bare = expr.reread ∧ behind.contents = rest := by
  refine Parser.yields_nesting ExprSpec ?_ cursor _
    ⟨expr, rest, written, stops, .inl ahead, fun _ _ shape same => ⟨shape, same⟩⟩
  rintro cursor nested reads post ⟨expr, rest, written, stops, ahead, implies⟩
  suffices level : Yields (Parser.exprLevel nested) cursor fun value behind =>
      value.bare = expr.reread ∧ behind.contents = rest from
    level.mono fun value behind facts => implies value behind facts.1 facts.2
  rcases ahead with tokens | inside
  · exact yields_exprLevel_tokens written stops tokens reads
  · cases expr with
    | binary info op left right =>
        exact yields_exprLevel_binary written stops (by simpa [Expr.levelTokens] using inside) reads
    | _ => exact yields_exprLevel_tokens written stops inside reads

end KnightFront
