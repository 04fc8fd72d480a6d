import CanonicalSql.Token
import CanonicalSql.Tree.Operator

/-! The operators that can stand behind an operand, as the tokens announce them. -/

namespace CanonicalSql

/-- What continues an expression behind its first operand. -/
inductive Continuation where
  | subscript
  | binary (op : BinaryOp)
  | nullTest
  | between (negated : Bool)
  | member (negated : Bool)
  | like (op : LikeOp) (negated : Bool)
  deriving DecidableEq

namespace Continuation

/-- The test that the keyword `k` announces, behind `NOT` if it is `negated`. -/
def test? (negated : Bool) : Keyword → Option Continuation
  | .LIKE => some (.like .like negated)
  | .ILIKE => some (.like .ilike negated)
  | .BETWEEN => some (.between negated)
  | .IN => some (.member negated)
  | _ => none

/-- The operator that the keyword `k` announces in front of a token of the kind `next`: `NOT` is an
operator only where a test follows that it can negate. -/
def ofKeyword? (k : Keyword) (next : Token.Kind) : Option Continuation :=
  match k, next with
  | .OR, _ => some (.binary .or)
  | .AND, _ => some (.binary .and)
  | .IS, _ => some .nullTest
  | .NOT, .keyword test => test? true test
  | k, _ => test? false k

/-- The operator that a symbol announces. -/
def ofSymbol? : Symbol → Option Continuation
  | .leftBracket => some .subscript
  | .equal | .doubleEqual => some (.binary .equal)
  | .bangEqual | .lessGreater => some (.binary .notEqual)
  | .less => some (.binary .less)
  | .lessEqual => some (.binary .lessEqual)
  | .greater => some (.binary .greater)
  | .greaterEqual => some (.binary .greaterEqual)
  | .doubleBar => some (.binary .concat)
  | .plus => some (.binary .plus)
  | .minus => some (.binary .minus)
  | .star => some (.binary .multiply)
  | .slash => some (.binary .divide)
  | .percent => some (.binary .modulo)
  | _ => none

/-- The operator that two successive tokens announce, if they announce one. -/
def ofKinds? (first next : Token.Kind) : Option Continuation :=
  match first with
  | .keyword k => ofKeyword? k next
  | .symbol s => ofSymbol? s
  | _ => none

/-- How tightly the operator binds. -/
def precedence : Continuation → Nat
  | .subscript => Precedence.subscript
  | .binary op => op.precedence
  | .nullTest | .between _ | .member _ | .like _ _ => Precedence.comparison

/-- The number of tokens that announce the operator. -/
def width : Continuation → Nat
  | .between true | .member true | .like _ true => 2
  | _ => 1

end Continuation

end CanonicalSql
