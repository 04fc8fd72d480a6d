import CanonicalSql.Lexer
import CanonicalSql.Parser.Statement
import CanonicalSql.Printed.Statement

/-! Documents: statements with semicolons between them, from their text to their canonical text.  A
text is looked at as tokens as a whole before anything is parsed, so a lexical error anywhere in it
comes before all others. -/

namespace CanonicalSql

/-- The number of levels that may be open if nothing else is said. -/
def defaultLimit : Nat := 128

/-- The parser at the start of a token vector. -/
def Parser.ofTokens (tokens : List Token) (limit : Nat := defaultLimit) : Parser :=
  ⟨.ofTokens tokens, 0, limit⟩

namespace Parse

/-- The outcome of `x` and the parser behind it. -/
def outcome {α : Type} (x : Parse α) (p : Parser) : Except ParseError α × Parser :=
  match x p with
  | .ok a p => (.ok a, p)
  | .error e p => (.error e, p)

/-- What `x` makes of a whole text. -/
def ofText {α : Type} (x : Parse α) (text : String) (limit : Nat) : Except ParseError α :=
  match tokenize text with
  | .error e => .error (.lexical e)
  | .ok tokens => (x.outcome (.ofTokens tokens limit)).1

/-- An expression and nothing behind it but one semicolon. -/
def wholeExpr : Parse Expr := do
  let e ← expr
  discard (accept Symbol.semicolon)
  unless ← atEnd do fail .expressionEnd
  return e

end Parse

/-- The statements of a document. -/
def parseDocument (text : String) (limit : Nat := defaultLimit) :
    Except ParseError (List Statement) :=
  Parse.statements.ofText text limit

/-- The expression that a text is. -/
def parseExpr (text : String) (limit : Nat := defaultLimit) : Except ParseError Expr :=
  Parse.wholeExpr.ofText text limit

/-- The canonical text of a document. -/
def canonicalize (text : String) : Except ParseError String := (parseDocument text).map format

end CanonicalSql
