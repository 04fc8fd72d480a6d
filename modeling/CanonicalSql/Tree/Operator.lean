/-! Operators and how tightly they bind.  The parser takes its binding powers from the same levels
that tell the printer where parentheses are needed. -/

namespace CanonicalSql

namespace Precedence

/-! The levels of expressions, from the loosest to the tightest. -/

def disjunction : Nat := 1
def conjunction : Nat := 2
/-- The level of the operator `NOT` in front of its operand. -/
def negation : Nat := 3
/-- The level of comparisons and of the tests `IS NULL`, `LIKE`, `IN` and `BETWEEN`. -/
def comparison : Nat := 4
def concatenation : Nat := 5
def additive : Nat := 6
def multiplicative : Nat := 7
/-- The level of a sign in front of its operand. -/
def signed : Nat := 8
def subscript : Nat := 9
/-- The level of everything that is closed on both sides. -/
def atom : Nat := 10

/-- The level of operands that end before an `AND` or a comparison: the bounds of `BETWEEN`, the
pattern of `LIKE`, the value of `INTERVAL` and the offset of a frame. -/
def operand : Nat := comparison + 1

end Precedence

/-- The operators with an operand on either side. -/
inductive BinaryOp where
  | or | and
  | equal | notEqual | less | lessEqual | greater | greaterEqual
  | concat
  | plus | minus
  | multiply | divide | modulo
  deriving DecidableEq

/-- How tightly the operator binds. -/
def BinaryOp.precedence : BinaryOp → Nat
  | .or => Precedence.disjunction
  | .and => Precedence.conjunction
  | .equal | .notEqual | .less | .lessEqual | .greater | .greaterEqual => Precedence.comparison
  | .concat => Precedence.concatenation
  | .plus | .minus => Precedence.additive
  | .multiply | .divide | .modulo => Precedence.multiplicative

/-- The operators in front of their operand. -/
inductive UnaryOp where
  | not | minus | plus
  deriving DecidableEq

/-- How tightly the operator binds. -/
def UnaryOp.precedence : UnaryOp → Nat
  | .not => Precedence.negation
  | .minus | .plus => Precedence.signed

/-- Whether the operator is a sign. -/
def UnaryOp.isSign : UnaryOp → Bool
  | .not => false
  | .minus | .plus => true

/-- Pattern matching that minds letter case, and pattern matching that does not. -/
inductive LikeOp where
  | like | ilike
  deriving DecidableEq

/-- The operators that combine queries. -/
inductive SetOp where
  | union | intersect | except
  deriving DecidableEq

/-- How tightly the operator binds: intersections before unions and differences. -/
def SetOp.precedence : SetOp → Nat
  | .union | .except => 1
  | .intersect => 2

/-- What a combination of queries does with equal rows, if it says so. -/
inductive SetQuantifier where
  | unstated | all | distinct
  deriving DecidableEq

end CanonicalSql
