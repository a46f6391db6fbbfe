namespace KnightFront

/-!
# Positions and spans

A position names a file, a line and a column.  Lines and columns count from
one, and a column counts characters.  Only the line feed ends a line; a
carriage return before it is an ordinary character of the line.
-/

/-- A place in a source file. -/
structure Position where
  line : Nat
  column : Nat
  file : String
deriving DecidableEq, Repr, Inhabited

namespace Position

/-- The place before the first character of a file. -/
def start (file : String) : Position := ⟨1, 1, file⟩

/-- The place of what stands in no file, such as a builtin function. -/
def nowhere : Position := ⟨0, 0, "<null>"⟩

/-- The place behind one more character. -/
def advance (position : Position) (character : Char) : Position :=
  if character = '\n' then { position with line := position.line + 1, column := 1 }
  else { position with column := position.column + 1 }

/-- The place behind a text that begins at `position`. -/
def after (position : Position) (text : List Char) : Position :=
  text.foldl advance position

@[simp]
theorem after_nil (position : Position) : position.after [] = position := rfl

@[simp]
theorem after_cons (position : Position) (character : Char) (text : List Char) :
    position.after (character :: text) = (position.advance character).after text := rfl

theorem after_append (position : Position) (first second : List Char) :
    position.after (first ++ second) = (position.after first).after second := by
  simp [after]

/-- The written form, `file:line:column`. -/
def describe (position : Position) : String :=
  position.file ++ ":" ++ toString position.line ++ ":" ++ toString position.column

end Position

/-- A stretch of source text, from the place before its first character to
the place behind its last one. -/
structure Span where
  start : Position
  finish : Position
deriving DecidableEq, Repr, Inhabited

namespace Span

/-- The span of what stands in no file. -/
def nowhere : Span := ⟨.nowhere, .nowhere⟩

/-- The span without characters at a place. -/
def empty (position : Position) : Span := ⟨position, position⟩

/-- From the start of one span to the end of another.  Nothing requires the
second span to lie behind the first. -/
def through (first second : Span) : Span := ⟨first.start, second.finish⟩

end Span

end KnightFront
