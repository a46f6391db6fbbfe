import KnightFront.Source.Position

namespace KnightFront

/-!
# Source text by bytes and by lines

A source text is addressed in two ways besides character by character: by
byte offset, counted in UTF-8, and by line number.  Byte offsets are turned
into positions; a line is fetched to be shown below an error.
-/

/-- The characters that lie wholly within the first `bytes` bytes. -/
def charactersWithin (bytes : Nat) : List Char → List Char
  | [] => []
  | character :: rest =>
      if character.utf8Size ≤ bytes then
        character :: charactersWithin (bytes - character.utf8Size) rest
      else []

/-- What is left behind the characters within the first `bytes` bytes. -/
def charactersBeyond (bytes : Nat) : List Char → List Char
  | [] => []
  | character :: rest =>
      if character.utf8Size ≤ bytes then charactersBeyond (bytes - character.utf8Size) rest
      else character :: rest

/-- What follows the given number of line feeds.  A text with fewer of them
has nothing there. -/
def afterLines : Nat → List Char → Option (List Char)
  | 0, text => some text
  | number + 1, text =>
      match text.dropWhile (· ≠ '\n') with
      | [] => none
      | _ :: rest => afterLines number rest

/-- The text of a line, counted from one, without the carriage returns at its
end.  Every line feed ends a line, so a text that ends in one has an empty
last line, and the empty text has one empty line.  Line zero and lines behind
the last one do not exist. -/
def lineText? (source : String) (line : Nat) : Option (List Char) :=
  match line with
  | 0 => none
  | number + 1 =>
      (afterLines number source.toList).map fun rest =>
        ((rest.takeWhile (· ≠ '\n')).reverse.dropWhile (· = '\r')).reverse

/-- A source file read up to some byte offset.  The offset may lie behind the
end of the text, where there is nothing left to read. -/
structure SourceReader where
  file : String
  text : String
  offset : Nat := 0

namespace SourceReader

/-- The position of a byte offset that lies on a character boundary. -/
def positionAt (reader : SourceReader) (offset : Nat) : Position :=
  (Position.start reader.file).after (charactersWithin offset reader.text.toList)

/-- The span of the next `bytes` bytes. -/
def spanOf (reader : SourceReader) (bytes : Nat) : Span :=
  ⟨reader.positionAt reader.offset, reader.positionAt (reader.offset + bytes)⟩

/-- What has not been read yet. -/
def remainder (reader : SourceReader) : List Char :=
  charactersBeyond reader.offset reader.text.toList

/-- The next character, or the null character when there is none. -/
def current (reader : SourceReader) : Char :=
  reader.remainder.headD '\x00'

/-- Read over the next `bytes` bytes. -/
def advance (reader : SourceReader) (bytes : Nat) : SourceReader :=
  { reader with offset := reader.offset + bytes }

/-- Whether everything has been read. -/
def atEnd (reader : SourceReader) : Bool :=
  decide (reader.text.utf8ByteSize ≤ reader.offset)

end SourceReader

end KnightFront
