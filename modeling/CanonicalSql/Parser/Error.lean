import CanonicalSql.LexError
import CanonicalSql.Parser.Expectation

/-! Why a source cannot be parsed. -/

namespace CanonicalSql

/-- The errors of a parse. -/
inductive ParseError where
  /-- The source does not fall into tokens. -/
  | lexical (error : LexError)
  /-- The grammar does not go on with the token `found`. -/
  | unexpected (found : Token) (expected : Expectation)
  /-- Constructs are nested deeper than `limit` levels. -/
  | tooDeep (position : Position) (limit : Nat)
  deriving DecidableEq

namespace ParseError

/-- The place that an error is about. -/
def position : ParseError → Position
  | .lexical e => e.position
  | .unexpected found _ => found.position
  | .tooDeep p _ => p

/-- The text of an error. -/
def message : ParseError → String
  | .lexical e => e.message
  | .unexpected found expected =>
    "syntax error at " ++ found.position.describe ++ ": expected " ++ expected.describe ++
      ", found " ++ found.describe
  | .tooDeep p limit =>
    "nesting depth exceeds limit of " ++ toString limit ++ " at " ++ p.describe

end ParseError

end CanonicalSql
