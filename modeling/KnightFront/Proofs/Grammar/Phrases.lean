import KnightFront.Parse.Expr
import KnightFront.Proofs.Parse.Rules

namespace KnightFront
namespace Grammar

/-!
# The grammar

The language as a set of rules, apart from any reader.  A rule gives a phrase
a form, and forms are put together from tokens and phrases by sequence, choice
and repetition.  Priorities do not enter: an expression is a row of operands
with operators, brackets and members between them, and what belongs to what is
not a matter of the grammar.

There are three dialects.  The reference dialect is the wide one where it
speaks of statements: an assigned field and a call may stand behind any
expression.  The reader decides by the first token of a statement, so in the
intended dialect both begin with a name, behind which members and indices
follow.  In turn an enumeration may have no members, and the update of a loop
may assign to an array element.  The accepted dialect is the part of the
intended one in which no index stands in front of the member that such a
statement ends in.
-/

/-- A phrase that has a rule of its own. -/
inductive Phrase where
  | program
  | item
  | inclusion
  | enumeration
  | members
  | interface
  | classDecl
  | function
  | head
  | params
  | type
  | varDecl
  | bodyItem
  | statement
  | block
  | conditional
  | condition
  | whileLoop
  | forLoop
  | forHead
  | update
  | ret
  | assign
  | arrayAssign
  | fieldAssign
  | fieldTarget
  | call
  | chain
  | expr
  | suffix
  | operator
  | operand
  | nameOrCall
  | args

/-- What a stretch of tokens can be. -/
inductive Form where
  | nothing
  | token (kind : TokenKind)
  | phrase (phrase : Phrase)
  | seq (first second : Form)
  | either (first second : Form)
  | many (body : Form)

namespace Form

instance : Append Form := ⟨seq⟩

instance : OrOp Form := ⟨either⟩

/-- A form that may be missing. -/
def optional (body : Form) : Form := body ||| nothing

/-- One or more phrases with commas between them. -/
def listed (body : Form) : Form := body ++ many (token .comma ++ body)

/-- A name. -/
def name : Form := token .identifier

/-- A member behind its dot. -/
def dotted : Form := token .dot ++ phrase .nameOrCall

/-- A member, or an index between its brackets. -/
def linked : Form := dotted ||| token .openBracket ++ phrase .expr ++ token .closeBracket

end Form

/-- Which of the languages is meant. -/
inductive Dialect where
  | reference
  | intended
  | accepted

open Form in
/-- The form of a phrase. -/
def Phrase.rule (dialect : Dialect) : Phrase → Form
  | program => many (phrase .item)
  | item =>
      phrase .inclusion ||| phrase .enumeration ||| phrase .interface ||| phrase .classDecl |||
        phrase .function ||| phrase .varDecl
  | inclusion => token .includeWord ++ token .less ++ name ++ token .greater
  | enumeration =>
      token .enumWord ++ name ++ token .openCurly ++ phrase .members ++ token .closeCurly
  | members =>
      match dialect with
      | .reference => listed name ++ optional (token .comma)
      | .intended | .accepted => optional (listed name ++ optional (token .comma))
  | interface =>
      token .interfaceWord ++ name ++ optional (token .extWord ++ listed name) ++
        token .openCurly ++ many (phrase .head ++ token .semicolon) ++ token .closeCurly
  | classDecl =>
      token .classWord ++ name ++ optional (token .extWord ++ name) ++
        optional (token .useWord ++ listed name) ++ token .openCurly ++
          many (phrase .varDecl ||| phrase .function) ++ token .closeCurly
  | function =>
      phrase .head ++ token .openCurly ++ many (phrase .bodyItem) ++ token .closeCurly
  | head => token .fnWord ++ name ++ phrase .params ++ token .colon ++ phrase .type
  | params =>
      token .openParen ++ optional (listed (phrase .type ++ name)) ++ token .closeParen
  | type =>
      (token .intWord ||| token .stringWord) ++
          optional (token .openBracket ++ token .closeBracket) |||
        token .boolWord ||| token .voidWord ||| name
  | varDecl =>
      phrase .type ++ name ++ optional (token .assignment ++ phrase .expr) ++ token .semicolon
  | bodyItem => phrase .varDecl ||| phrase .statement
  | statement =>
      phrase .block ||| phrase .conditional ||| phrase .whileLoop ||| phrase .forLoop |||
        phrase .ret ||| phrase .assign ++ token .semicolon |||
          phrase .arrayAssign ++ token .semicolon ||| phrase .fieldAssign |||
            phrase .call ++ token .semicolon
  | block => token .openCurly ++ many (phrase .bodyItem) ++ token .closeCurly
  | conditional =>
      token .ifWord ++ phrase .condition ++ phrase .statement ++
        optional (token .elseWord ++ phrase .statement)
  | condition => token .openParen ++ phrase .expr ++ token .closeParen
  | whileLoop => token .whileWord ++ phrase .condition ++ phrase .statement
  | forLoop => phrase .forHead ++ phrase .statement
  | forHead =>
      token .forWord ++ token .openParen ++ phrase .varDecl ++ phrase .expr ++
        token .semicolon ++ phrase .update ++ token .closeParen
  | update =>
      match dialect with
      | .reference => phrase .assign
      | .intended | .accepted => phrase .assign ||| phrase .arrayAssign
  | ret => token .retWord ++ optional (phrase .expr) ++ token .semicolon
  | assign => name ++ token .assignment ++ phrase .expr
  | arrayAssign =>
      name ++ token .openBracket ++ phrase .expr ++ token .closeBracket ++ token .assignment ++
        phrase .expr
  | fieldAssign =>
      phrase .fieldTarget ++ token .assignment ++ phrase .expr ++ token .semicolon
  | fieldTarget =>
      match dialect with
      | .reference => phrase .expr ++ token .dot ++ name
      | .intended | .accepted => phrase .chain ++ token .dot ++ name
  | call =>
      match dialect with
      | .reference =>
          optional (phrase .chain ++ token .dot) ++ name ++ phrase .args |||
            token .openParen ++ phrase .call ++ token .closeParen
      | .intended | .accepted => optional (phrase .chain ++ token .dot) ++ name ++ phrase .args
  | chain =>
      match dialect with
      | .reference => phrase .operand ++ many linked
      | .intended => phrase .nameOrCall ++ many linked
      | .accepted => phrase .nameOrCall ++ many dotted
  | expr => phrase .operand ++ many (phrase .suffix)
  | suffix =>
      phrase .operator ++ phrase .operand |||
        token .openBracket ++ phrase .expr ++ token .closeBracket ||| dotted
  | operator =>
      token .or ||| token .and ||| token .equals ||| token .notEquals ||| token .less |||
        token .lessEquals ||| token .greater ||| token .greaterEquals ||| token .plus |||
          token .dash ||| token .percent ||| token .star ||| token .slash
  | operand =>
      token .number ||| token .string ||| token .trueWord ||| token .falseWord |||
        phrase .nameOrCall ||| token .openParen ++ phrase .expr ++ token .closeParen |||
          token .openBracket ++ optional (listed (phrase .expr)) ++ token .closeBracket |||
            token .newWord ++ name ++ token .openParen ++ token .closeParen |||
              token .newWord ++ (token .intWord ||| token .stringWord) ++
                token .openBracket ++ phrase .expr ++ token .closeBracket
  | nameOrCall => name ++ optional (phrase .args)
  | args => token .openParen ++ optional (listed (phrase .expr)) ++ token .closeParen

/-- Tokens have a form.  A number has to fit; what other tokens are spelled
like plays no part. -/
inductive Derives (dialect : Dialect) : Form → List TokenContent → Prop where
  | nothing : Derives dialect .nothing []
  | token {kind : TokenKind} {value : String}
      (fits : kind = .number → (Parser.decimal? value.toList).isSome = true) :
      Derives dialect (.token kind) [(kind, value)]
  | phrase {phrase : Phrase} {tokens : List TokenContent}
      (derives : Derives dialect (phrase.rule dialect) tokens) :
      Derives dialect (.phrase phrase) tokens
  | seq {first second : Form} {front back : List TokenContent}
      (firstDerives : Derives dialect first front) (secondDerives : Derives dialect second back) :
      Derives dialect (first ++ second) (front ++ back)
  | left {first second : Form} {tokens : List TokenContent}
      (derives : Derives dialect first tokens) : Derives dialect (first ||| second) tokens
  | right {first second : Form} {tokens : List TokenContent}
      (derives : Derives dialect second tokens) : Derives dialect (first ||| second) tokens
  | none {body : Form} : Derives dialect (.many body) []
  | more {body : Form} {front back : List TokenContent}
      (firstDerives : Derives dialect body front)
      (restDerives : Derives dialect (.many body) back) :
      Derives dialect (.many body) (front ++ back)

/-! ## Stretches of a token list -/

/-- Between two places of a token list, the second further behind, stands a
form. -/
def Between (dialect : Dialect) (form : Form) (ahead behind : List TokenContent) : Prop :=
  ∃ tokens, Derives dialect form tokens ∧ ahead = tokens ++ behind

section Between

variable {dialect : Dialect} {ahead middle behind : List TokenContent}
variable {first second body : Form}

/-- A list has a form if the form stands between it and its end. -/
theorem between_nil_iff {form : Form} :
    Between dialect form ahead [] ↔ Derives dialect form ahead := by
  simp [Between]

@[simp]
theorem between_nothing : Between dialect .nothing ahead behind ↔ ahead = behind := by
  constructor
  · rintro ⟨_, ⟨⟩, rfl⟩
    rfl
  · rintro rfl
    exact ⟨[], .nothing, rfl⟩

/-- A token other than a number is there if it is the next one. -/
theorem between_token {kind : TokenKind} (more : kind ≠ .eof) (plain : kind ≠ .number) :
    Between dialect (.token kind) ahead behind ↔ headKind ahead = kind ∧ ahead.tail = behind := by
  constructor
  · rintro ⟨_, derives, rfl⟩
    cases derives with
    | token => exact ⟨rfl, rfl⟩
  · rintro ⟨found, rfl⟩
    cases ahead with
    | nil => exact absurd found.symm more
    | cons first rest =>
        obtain rfl : first.1 = kind := found
        exact ⟨[first], .token fun number => absurd number plain, rfl⟩

theorem Between.token {kind : TokenKind} (found : headKind ahead = kind)
    (plain : kind ≠ .eof ∧ kind ≠ .number) : Between dialect (.token kind) ahead ahead.tail :=
  (between_token plain.1 plain.2).mpr ⟨found, rfl⟩

/-- A number is there if it is the next token and fits. -/
theorem between_number :
    Between dialect (.token .number) ahead behind ↔
      headKind ahead = .number ∧ ∃ value, ahead = (.number, value) :: behind ∧
        (Parser.decimal? value.toList).isSome = true := by
  constructor
  · rintro ⟨_, derives, rfl⟩
    cases derives with
    | token fits => exact ⟨rfl, _, rfl, fits rfl⟩
  · rintro ⟨-, value, rfl, fits⟩
    exact ⟨[(.number, value)], .token fun _ => fits, rfl⟩

theorem between_phrase {phrase : Phrase} :
    Between dialect (.phrase phrase) ahead behind ↔
      Between dialect (phrase.rule dialect) ahead behind := by
  constructor
  · rintro ⟨tokens, derives, rfl⟩
    cases derives with
    | phrase derives => exact ⟨tokens, derives, rfl⟩
  · rintro ⟨tokens, derives, rfl⟩
    exact ⟨tokens, .phrase derives, rfl⟩

@[simp]
theorem between_append :
    Between dialect (first ++ second) ahead behind ↔
      ∃ middle, Between dialect first ahead middle ∧ Between dialect second middle behind := by
  constructor
  · rintro ⟨_, derives, rfl⟩
    cases derives with
    | @seq _ _ front back firstDerives secondDerives =>
        exact ⟨back ++ behind, ⟨front, firstDerives, by simp⟩, ⟨back, secondDerives, rfl⟩⟩
  · rintro ⟨_, ⟨front, firstDerives, rfl⟩, back, secondDerives, rfl⟩
    exact ⟨front ++ back, .seq firstDerives secondDerives, by simp⟩

theorem between_append_assoc {third : Form} :
    Between dialect (first ++ second ++ third) ahead behind ↔
      Between dialect (first ++ (second ++ third)) ahead behind := by
  simp only [between_append]
  constructor
  · rintro ⟨_, ⟨_, front, middle⟩, back⟩
    exact ⟨_, front, _, middle, back⟩
  · rintro ⟨_, front, _, middle, back⟩
    exact ⟨_, ⟨_, front, middle⟩, back⟩

@[simp]
theorem between_or :
    Between dialect (first ||| second) ahead behind ↔
      Between dialect first ahead behind ∨ Between dialect second ahead behind := by
  constructor
  · rintro ⟨_, derives, rfl⟩
    cases derives with
    | left derives => exact .inl ⟨_, derives, rfl⟩
    | right derives => exact .inr ⟨_, derives, rfl⟩
  · rintro (⟨_, derives, rfl⟩ | ⟨_, derives, rfl⟩)
    · exact ⟨_, .left derives, rfl⟩
    · exact ⟨_, .right derives, rfl⟩

@[simp]
theorem between_optional :
    Between dialect (.optional body) ahead behind ↔
      Between dialect body ahead behind ∨ ahead = behind := by
  simp [Form.optional]

theorem between_optional_append :
    Between dialect (.optional body ++ second) ahead behind ↔
      Between dialect (body ++ second) ahead behind ∨ Between dialect second ahead behind := by
  simp only [between_append, between_optional, or_and_right, exists_or, exists_eq_left']

/-- A repetition is left empty, or goes on behind its first member. -/
theorem between_many :
    Between dialect (.many body) ahead behind ↔
      ahead = behind ∨
        ∃ middle, Between dialect body ahead middle ∧
          Between dialect (.many body) middle behind := by
  constructor
  · rintro ⟨_, derives, rfl⟩
    cases derives with
    | none => exact .inl rfl
    | @more _ front back firstDerives restDerives =>
        exact .inr ⟨back ++ behind, ⟨front, firstDerives, by simp⟩, ⟨back, restDerives, rfl⟩⟩
  · rintro (rfl | ⟨_, ⟨front, firstDerives, rfl⟩, back, restDerives, rfl⟩)
    · exact ⟨[], .none, rfl⟩
    · exact ⟨front ++ back, .more firstDerives restDerives, by simp⟩

theorem Between.append (firstBetween : Between dialect first ahead middle)
    (secondBetween : Between dialect second middle behind) :
    Between dialect (first ++ second) ahead behind :=
  between_append.mpr ⟨middle, firstBetween, secondBetween⟩

/-- A form read one more time extends a repetition at its end. -/
theorem Between.snoc (several : Between dialect (.many body) ahead middle)
    (last : Between dialect body middle behind) : Between dialect (.many body) ahead behind := by
  rcases several with ⟨tokens, derives, rfl⟩
  generalize isMany : Form.many body = form at derives
  induction derives with
  | none =>
      cases isMany
      exact between_many.mpr (.inr ⟨behind, last, between_many.mpr (.inl rfl)⟩)
  | @more _ front back firstDerives _ _ inductionHypothesis =>
      cases isMany
      refine between_many.mpr (.inr ⟨back ++ middle, ⟨front, firstDerives, by simp⟩, ?_⟩)
      exact inductionHypothesis rfl
  | _ => cases isMany

theorem Between.length_le {form : Form} (between : Between dialect form ahead behind) :
    behind.length ≤ ahead.length := by
  rcases between with ⟨tokens, -, rfl⟩
  simp

end Between

/-- Whether a form always begins with a token of one of these kinds. -/
def Begins (dialect : Dialect) (form : Form) (kinds : List TokenKind) : Prop :=
  ∀ ahead behind, Between dialect form ahead behind → headKind ahead ∈ kinds

namespace Begins

variable {dialect : Dialect} {first second : Form} {kinds others : List TokenKind}

theorem token {kind : TokenKind} : Begins dialect (.token kind) [kind] := by
  rintro _ behind ⟨_, derives, rfl⟩
  cases derives with
  | token => exact List.mem_singleton_self kind

theorem append (begins : Begins dialect first kinds) : Begins dialect (first ++ second) kinds := by
  intro ahead behind between
  rcases between_append.mp between with ⟨middle, front, -⟩
  exact begins ahead middle front

theorem or (firstBegins : Begins dialect first kinds) (secondBegins : Begins dialect second others) :
    Begins dialect (first ||| second) (kinds ++ others) := by
  intro ahead behind between
  rcases between_or.mp between with front | back
  · exact List.mem_append_left _ (firstBegins ahead behind front)
  · exact List.mem_append_right _ (secondBegins ahead behind back)

/-- A form that may be missing can begin, or what stands behind it. -/
theorem optionalAppend (firstBegins : Begins dialect first kinds)
    (secondBegins : Begins dialect second others) :
    Begins dialect (.optional first ++ second) (kinds ++ others) := by
  intro ahead behind between
  rcases between_optional_append.mp between with front | back
  · exact List.mem_append_left _ (firstBegins.append ahead behind front)
  · exact List.mem_append_right _ (secondBegins ahead behind back)

theorem phrase {phrase : Phrase} (begins : Begins dialect (phrase.rule dialect) kinds) :
    Begins dialect (.phrase phrase) kinds :=
  fun ahead behind between => begins ahead behind (between_phrase.mp between)

theorem mono (begins : Begins dialect first kinds) (within : ∀ kind ∈ kinds, kind ∈ others) :
    Begins dialect first others :=
  fun ahead behind between => within _ (begins ahead behind between)

theorem excludes {ahead behind : List TokenContent} {kind : TokenKind}
    (begins : Begins dialect first kinds) (found : headKind ahead = kind) (other : kind ∉ kinds) :
    ¬ Between dialect first ahead behind :=
  fun between => other (found ▸ begins ahead behind between)

/-- A form that begins with a token is not empty. -/
theorem length_lt {ahead behind : List TokenContent} (begins : Begins dialect first kinds)
    (notEnd : .eof ∉ kinds) (between : Between dialect first ahead behind) :
    behind.length < ahead.length := by
  rcases between with ⟨tokens, derives, rfl⟩
  cases tokens with
  | nil => exact absurd (begins [] [] (between_nil_iff.mpr derives)) notEnd
  | cons token tokens =>
      rw [List.cons_append, List.length_cons, List.length_append]
      omega

/-- What may follow a form if another one stands behind it. -/
theorem fits {inside follow : TokenKind → Prop} (begins : Begins dialect first kinds)
    (allowed : ∀ kind ∈ kinds, inside kind) (ahead behind : List TokenContent)
    (between : Between dialect first ahead behind) (_ : follow (headKind behind)) :
    inside (headKind ahead) :=
  allowed _ (begins ahead behind between)

end Begins

end Grammar
end KnightFront
