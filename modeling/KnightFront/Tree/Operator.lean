import KnightFront.Token.Kind

namespace KnightFront

/-!
# Binary operators

The thirteen binary operators, their spelling, their priorities and the
groups in which they are typed.  A remainder binds like a sum, not like a
product.
-/

/-- A binary operator. -/
inductive BinaryOp where
  | or
  | and
  | equals
  | notEquals
  | less
  | lessEquals
  | greater
  | greaterEquals
  | plus
  | minus
  | modulus
  | times
  | divide
deriving DecidableEq, Repr, Inhabited

/-- How strongly an operator binds.  Besides the binary operators, an index,
a member and a class instance have places in the order; the sentinel stands
below all of them, at the bottom of an expression. -/
inductive Priority where
  | sentinel
  | or
  | and
  | relational
  | additive
  | multiplicative
  | index
  | member
  | instantiation
deriving DecidableEq, Repr, Inhabited

namespace Priority

/-- The place of a priority, lowest first. -/
def rank : Priority → Nat
  | sentinel => 0
  | or => 1
  | and => 2
  | relational => 3
  | additive => 4
  | multiplicative => 5
  | index => 6
  | member => 7
  | instantiation => 8

instance : LE Priority := ⟨fun first second => first.rank ≤ second.rank⟩

instance : LT Priority := ⟨fun first second => first.rank < second.rank⟩

instance (first second : Priority) : Decidable (first ≤ second) :=
  inferInstanceAs (Decidable (first.rank ≤ second.rank))

instance (first second : Priority) : Decidable (first < second) :=
  inferInstanceAs (Decidable (first.rank < second.rank))

/-- The name of a priority. -/
def name : Priority → String
  | sentinel => "Sentinel"
  | or => "Or"
  | and => "And"
  | relational => "Relational"
  | additive => "Additive"
  | multiplicative => "Multiplicative"
  | index => "Index"
  | member => "Member"
  | instantiation => "New"

end Priority

namespace BinaryOp

/-- Every operator once. -/
def all : List BinaryOp :=
  [or, and, equals, notEquals, less, lessEquals, greater, greaterEquals, plus, minus, modulus,
    times, divide]

/-- The spelling of an operator in printed source. -/
def symbol : BinaryOp → String
  | or => "||"
  | and => "&&"
  | equals => "=="
  | notEquals => "!="
  | less => "<"
  | lessEquals => "<="
  | greater => ">"
  | greaterEquals => ">="
  | plus => "+"
  | minus => "-"
  | modulus => "%"
  | times => "*"
  | divide => "/"

/-- The token that writes an operator. -/
def token : BinaryOp → TokenKind
  | or => .or
  | and => .and
  | equals => .equals
  | notEquals => .notEquals
  | less => .less
  | lessEquals => .lessEquals
  | greater => .greater
  | greaterEquals => .greaterEquals
  | plus => .plus
  | minus => .dash
  | modulus => .percent
  | times => .star
  | divide => .slash

/-- The operator that a token writes. -/
def ofToken? : TokenKind → Option BinaryOp
  | .or => some or
  | .and => some and
  | .equals => some equals
  | .notEquals => some notEquals
  | .less => some less
  | .lessEquals => some lessEquals
  | .greater => some greater
  | .greaterEquals => some greaterEquals
  | .plus => some plus
  | .dash => some minus
  | .percent => some modulus
  | .star => some times
  | .slash => some divide
  | _ => none

/-- Reading an operator's token gives the operator back. -/
theorem ofToken?_eq_some_iff {kind : TokenKind} {op : BinaryOp} :
    ofToken? kind = some op ↔ kind = op.token := by
  constructor
  · intro read
    cases kind <;> cases read <;> rfl
  · rintro rfl
    cases op <;> rfl

/-- How strongly an operator binds. -/
def priority : BinaryOp → Priority
  | or => .or
  | and => .and
  | equals | notEquals | less | lessEquals | greater | greaterEquals => .relational
  | plus | minus | modulus => .additive
  | times | divide => .multiplicative

/-- Every binary operator binds less than an index. -/
theorem priority_lt_index (op : BinaryOp) : op.priority < .index := by
  cases op <;> decide

/-- The operators on truth values. -/
def isLogical : BinaryOp → Bool
  | or | and => true
  | _ => false

/-- The operators that compare any two values of fitting types. -/
def isEquality : BinaryOp → Bool
  | equals | notEquals => true
  | _ => false

/-- The operators that compare two numbers by size. -/
def isOrdering : BinaryOp → Bool
  | less | lessEquals | greater | greaterEquals => true
  | _ => false

/-- The operators on numbers alone.  The plus sign is not one of them, since
it also joins strings. -/
def isArithmetic : BinaryOp → Bool
  | minus | modulus | times | divide => true
  | _ => false

end BinaryOp

end KnightFront
