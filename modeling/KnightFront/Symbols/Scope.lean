import KnightFront.Symbols.Entity

namespace KnightFront

/-!
# Lexical scopes

Scopes are kept side by side in a list and refer to their parents by index.
A list of scopes only grows, so an index that was handed out stays good.  A
name is looked up from a scope outwards.
-/

/-- The index of a scope. -/
abbrev ScopeId := Nat

/-- What opened a scope: a parameter list, or a function body, block or
loop. -/
inductive ScopeKind where
  | parameters
  | block
deriving DecidableEq, Repr, Inhabited

/-- The variables declared in one construct. -/
structure Scope where
  parent : Option ScopeId
  kind : ScopeKind
  entries : Table Variable
deriving Inhabited

namespace Scope

/-- A scope without variables. -/
def opened (parent : Option ScopeId) (kind : ScopeKind) : Scope := ⟨parent, kind, .empty⟩

/-- The scope with one more variable, unless its name is taken there. -/
def declare (scope : Scope) (entity : Variable) : Scope :=
  { scope with entries := scope.entries.add entity }

end Scope

namespace Scopes

/-- Whether a scope declares a name itself. -/
def declares (scopes : List Scope) (identity : ScopeId) (name : String) : Bool :=
  match scopes[identity]? with
  | none => false
  | some scope => scope.entries.contains name

/-- Declare a variable in a scope of the list. -/
def declare (scopes : List Scope) (identity : ScopeId) (entity : Variable) : List Scope :=
  scopes.modify identity fun scope => scope.declare entity

/-- The search behind `lookup`, through at most `steps` scopes. -/
def lookupWithin (scopes : List Scope) (name : String) :
    Nat → ScopeId → Option (Variable × ScopeKind)
  | 0, _ => none
  | steps + 1, identity =>
      match scopes[identity]? with
      | none => none
      | some scope =>
          match scope.entries.find? name with
          | some entity => some (entity, scope.kind)
          | none => scope.parent.bind (lookupWithin scopes name steps)

/-- The nearest variable of a name, from a scope outwards, and the kind of the
scope that declares it.  A way outwards that is longer than the list has come
back to a scope without the name, so the search stops there. -/
def lookup (scopes : List Scope) (identity : ScopeId) (name : String) :
    Option (Variable × ScopeKind) :=
  lookupWithin scopes name scopes.length identity

end Scopes

end KnightFront
