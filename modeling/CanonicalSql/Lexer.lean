import CanonicalSql.Lexeme

/-! The lexer: tokens with their places, read from the front of a text. -/

namespace CanonicalSql

/-- What is left of a text, and the place where it starts. -/
structure Lexer where
  rest : List Char
  position : Position

namespace Lexer

/-- The lexer in front of a whole text. -/
def ofText (text : String) : Lexer := ⟨text.toList, .start⟩

/-- The lexer behind a piece. -/
def behind (lexer : Lexer) (piece : Lexeme) : Lexer :=
  ⟨piece.rest, lexer.position.across piece.strides⟩

/-- The next token or error among the first `pieces` pieces.  An error leaves the lexer behind the
characters that the faulty piece passed over, and the end of the text is found again and again. -/
def nextWithin : (pieces : Nat) → Lexer → Except LexError Token × Lexer
  | 0, lexer => (.ok (.endMark lexer.position), lexer)
  | pieces + 1, lexer =>
    let piece := Lexeme.scan lexer.rest
    match piece.content with
    | .layout => nextWithin pieces (lexer.behind piece)
    | .token kind =>
      (.ok ⟨kind, String.ofList piece.text, lexer.position⟩, lexer.behind piece)
    | .fault fault => (.error ⟨fault, lexer.position⟩, lexer.behind piece)
    | .finish => (.ok (.endMark lexer.position), lexer)

/-- The next token or error.  No piece of layout is empty, so a text has at most as many pieces
before its end as characters. -/
def next (lexer : Lexer) : Except LexError Token × Lexer :=
  nextWithin (lexer.rest.length + 1) lexer

/-- The first `count` tokens up to the end of the text, or the first error among them.  Each piece
of the text takes a character at least, so as many pieces as tokens are enough to look at. -/
def tokensWithin : (count : Nat) → Lexer → Except LexError (List Token)
  | 0, _ => .ok []
  | count + 1, lexer =>
    match lexer.nextWithin (count + 1) with
    | (.error e, _) => .error e
    | (.ok token, lexer) =>
      if token.kind = .eof then .ok [token]
      else (tokensWithin count lexer).map (token :: ·)

/-- The tokens that are left, the mark of the end last, or the first error.  No token but the mark
is empty, so there are at most as many others as characters. -/
def tokens (lexer : Lexer) : Except LexError (List Token) :=
  tokensWithin (lexer.rest.length + 1) lexer

end Lexer

/-- The tokens of a text, the mark of the end last, or its first lexical error. -/
def tokenize (text : String) : Except LexError (List Token) := (Lexer.ofText text).tokens

end CanonicalSql
