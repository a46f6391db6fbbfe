import KnightFront.Parse.Item

namespace KnightFront

/-!
# What readers inherit from their steps

A reader goes forward in single steps: it looks at the tokens ahead, takes one of
them, asks for a place or stops.  What is true of all these steps, whatever they
give, and is kept where one reader goes on behind another, is true of the readers
that are made of them.  Those of types, of the heads of declarations and of whole
inclusions, enumerations and interfaces are made of nothing else.
-/

namespace Parser

/-- A property that the single steps of readers have, and that readers in sequence
and in rounds keep. -/
structure Compositional (holds : {α : Type} → Parser α → Prop) : Prop where
  pure {α : Type} (value : α) : holds (Pure.pure value)
  bind {α β : Type} {parser : Parser α} {next : α → Parser β} (first : holds parser)
    (second : ∀ value, holds (next value)) : holds (parser >>= next)
  rounds {σ α : Type} {round : σ → Parser (Round σ α)} (step : ∀ state, holds (round state))
    (state : σ) : holds (rounds round state)
  currentKind : holds currentKind
  nextKind : holds Parser.nextKind
  position : holds position
  take : holds take
  expect (kind : TokenKind) : holds (expect kind)
  spanFrom (start : Position) : holds (spanFrom start)
  misplaced {α : Type} (requirement : String) : holds (misplaced requirement : Parser α)

namespace Compositional

variable {holds : {α : Type} → Parser α → Prop} (rules : Compositional holds)

include rules

theorem commaSeparated {α : Type} {phrase : Parser α} (inside : holds phrase) :
    holds (commaSeparated phrase) := by
  apply rules.rounds
  intro collected
  refine rules.bind inside fun found => ?_
  refine rules.bind rules.currentKind fun kind => ?_
  split
  · exact rules.bind rules.take fun comma => rules.pure _
  · exact rules.pure _

theorem listUpTo {α : Type} {phrase : Parser α} (close : TokenKind) (inside : holds phrase) :
    holds (listUpTo close phrase) := by
  refine rules.bind rules.currentKind fun kind => ?_
  split
  · exact rules.pure _
  · exact rules.commaSeparated inside

theorem arraySuffix (element : ElementTy) : holds (arraySuffix element) := by
  refine rules.bind rules.currentKind fun kind => ?_
  split
  · refine rules.bind rules.take fun bracket => ?_
    refine rules.bind (rules.expect .closeBracket) fun close => ?_
    exact rules.pure _
  · exact rules.pure _

theorem typeName : holds typeName := by
  refine rules.bind rules.position fun start => ?_
  refine rules.bind rules.currentKind fun kind => ?_
  have closing (ty : Ty) : holds (do return (ty, ← Parser.spanFrom start)) :=
    rules.bind (rules.spanFrom start) fun span => rules.pure _
  -- Every alternative gives a type, and the span is taken behind it.
  dsimp only
  split
  · exact rules.bind rules.take fun word => rules.bind (rules.arraySuffix .int) closing
  · exact rules.bind rules.take fun word => rules.bind (rules.arraySuffix .string) closing
  · exact rules.bind rules.take fun word => rules.bind (rules.pure Ty.bool) closing
  · exact rules.bind rules.take fun word => rules.bind (rules.pure Ty.void) closing
  · exact rules.bind rules.take fun name => rules.bind (rules.pure (Ty.named name.value)) closing
  · exact rules.bind (rules.misplaced "expected a type") closing

theorem startsDeclaration : holds startsDeclaration := by
  refine rules.bind rules.currentKind fun kind => ?_
  split
  case h_5 => exact rules.bind rules.nextKind fun next => rules.pure _
  all_goals exact rules.pure _

theorem param : holds param := by
  refine rules.bind rules.typeName fun ty => ?_
  refine rules.bind (rules.expect .identifier) fun name => ?_
  exact rules.pure _

theorem params : holds params := by
  refine rules.bind (rules.expect .openParen) fun opening => ?_
  refine rules.bind (rules.listUpTo .closeParen rules.param) fun found => ?_
  refine rules.bind (rules.expect .closeParen) fun closing => ?_
  exact rules.pure _

theorem functionHead : holds functionHead := by
  refine rules.bind (rules.expect .fnWord) fun keyword => ?_
  refine rules.bind (rules.expect .identifier) fun name => ?_
  refine rules.bind rules.params fun params => ?_
  refine rules.bind (rules.expect .colon) fun colon => ?_
  refine rules.bind rules.typeName fun returned => ?_
  exact rules.pure _

theorem inclusion : holds inclusion := by
  refine rules.bind (rules.expect .includeWord) fun keyword => ?_
  refine rules.bind (rules.expect .less) fun opening => ?_
  refine rules.bind (rules.expect .identifier) fun name => ?_
  refine rules.bind (rules.expect .greater) fun closing => ?_
  refine rules.bind (rules.spanFrom keyword.span.start) fun span => ?_
  exact rules.pure _

theorem enumMembers : holds enumMembers := by
  apply rules.rounds
  intro collected
  refine rules.bind rules.currentKind fun kind => ?_
  split
  · refine rules.bind rules.take fun member => ?_
    refine rules.bind rules.currentKind fun next => ?_
    split
    · exact rules.bind rules.take fun comma => rules.pure _
    · exact rules.pure _
  · exact rules.pure _

theorem enumeration : holds enumeration := by
  refine rules.bind (rules.expect .enumWord) fun keyword => ?_
  refine rules.bind (rules.expect .identifier) fun name => ?_
  refine rules.bind (rules.expect .openCurly) fun opening => ?_
  refine rules.bind rules.enumMembers fun members => ?_
  refine rules.bind (rules.expect .closeCurly) fun closing => ?_
  exact rules.pure _

theorem nameUse : holds nameUse := by
  refine rules.bind (rules.expect .identifier) fun token => ?_
  exact rules.pure _

theorem nameClause (keyword : TokenKind) : holds (nameClause keyword) := by
  refine rules.bind rules.currentKind fun kind => ?_
  split
  · exact rules.bind rules.take fun word => rules.commaSeparated rules.nameUse
  · exact rules.pure _

theorem interfaceMethods : holds interfaceMethods := by
  apply rules.rounds
  intro collected
  refine rules.bind rules.currentKind fun kind => ?_
  split
  · refine rules.bind rules.functionHead fun head => ?_
    exact rules.bind (rules.expect .semicolon) fun semicolon => rules.pure _
  · exact rules.pure _

theorem interface : holds interface := by
  refine rules.bind (rules.expect .interfaceWord) fun keyword => ?_
  refine rules.bind (rules.expect .identifier) fun name => ?_
  refine rules.bind (rules.nameClause .extWord) fun bases => ?_
  refine rules.bind (rules.expect .openCurly) fun opening => ?_
  refine rules.bind rules.interfaceMethods fun methods => ?_
  refine rules.bind (rules.expect .closeCurly) fun closing => ?_
  exact rules.pure _

theorem parentClause : holds parentClause := by
  refine rules.bind rules.currentKind fun kind => ?_
  split
  · refine rules.bind rules.take fun word => ?_
    exact rules.bind rules.nameUse fun parent => rules.pure _
  · exact rules.pure _

end Compositional

end Parser

end KnightFront
