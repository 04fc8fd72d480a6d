import CanonicalSql.Parser.Parse
import CanonicalSql.Tree.Statement

/-! The grammar as a whole.  Rules refer to constructs inside constructs through a `Grammar`, a
parser for each kind of construct that can hold itself, so each rule is free of recursion. -/

namespace CanonicalSql

/-- A parser for each kind of construct that can stand inside another of its kind. -/
structure Grammar where
  /-- An expression whose operators bind at least as tightly as the level. -/
  expr : (level : Nat) → Parse Expr
  query : Parse Query
  /-- The body of a query whose set operations bind at least as tightly as the level. -/
  body : (level : Nat) → Parse QueryBody
  dataType : Parse DataType
  statement : Parse Statement

namespace Grammar

/-- The grammar that parses nothing. -/
def empty : Grammar where
  expr _ := Parse.fail .expression
  query := Parse.fail .queryBody
  body _ := Parse.fail .queryBody
  dataType := Parse.fail .dataType
  statement := Parse.fail .statement

end Grammar

end CanonicalSql
