import KnightFront.Token.Basic

namespace KnightFront

/-!
# Token streams

A stream holds the tokens that are still to be read and the end of input
behind them.  Reading past the last token yields the end of input again and
again, so a reader never runs out of tokens.
-/

/-- Tokens to be read, and the end of input that follows them for ever. -/
structure TokenStream where
  ahead : List Token
  finish : Token
  finish_kind : finish.kind = .eof

namespace TokenStream

/-- The stream of a token list.  When the list does not close with the end of
input, one is supplied behind its last token. -/
def ofTokens (tokens : List Token) : TokenStream :=
  match tokens.getLast? with
  | none => ⟨[], ⟨.eof, "EOF", .nowhere⟩, rfl⟩
  | some final =>
      if closed : final.kind = .eof then ⟨tokens.dropLast, final, closed⟩
      else ⟨tokens, .endOfInput final.span.finish, rfl⟩

/-- The token that is read next. -/
def current (stream : TokenStream) : Token :=
  stream.ahead.headD stream.finish

/-- The stream behind its current token.  The end of input stays. -/
def tail (stream : TokenStream) : TokenStream :=
  { stream with ahead := stream.ahead.tail }

/-- How many tokens stand before the end of input. -/
def size (stream : TokenStream) : Nat := stream.ahead.length

/-- Reading a token other than the end of input makes the stream shorter. -/
theorem size_tail_lt {stream : TokenStream} (more : stream.current.kind ≠ .eof) :
    stream.tail.size < stream.size := by
  cases tokens : stream.ahead with
  | nil => exact absurd stream.finish_kind (by simpa [current, tokens] using more)
  | cons token rest => simp [size, tail, tokens]

theorem size_tail_le (stream : TokenStream) : stream.tail.size ≤ stream.size := by
  simp [size, tail]

end TokenStream

end KnightFront
