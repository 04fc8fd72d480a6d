import CanonicalSql.Tree.Statement

/-! The choices that have no content: their names in JSON, and all of their values. -/

namespace CanonicalSql

def BinaryOp.values : List BinaryOp :=
  [.or, .and, .equal, .notEqual, .less, .lessEqual, .greater, .greaterEqual, .concat, .plus,
    .minus, .multiply, .divide, .modulo]

def BinaryOp.name : BinaryOp → String
  | .or => "Or"
  | .and => "And"
  | .equal => "Eq"
  | .notEqual => "NotEq"
  | .less => "Lt"
  | .lessEqual => "LtEq"
  | .greater => "Gt"
  | .greaterEqual => "GtEq"
  | .concat => "Concat"
  | .plus => "Plus"
  | .minus => "Minus"
  | .multiply => "Multiply"
  | .divide => "Divide"
  | .modulo => "Modulo"

def UnaryOp.values : List UnaryOp := [.not, .minus, .plus]

def UnaryOp.name : UnaryOp → String
  | .not => "Not"
  | .minus => "Minus"
  | .plus => "Plus"

def LikeOp.values : List LikeOp := [.like, .ilike]

def LikeOp.name : LikeOp → String
  | .like => "Like"
  | .ilike => "ILike"

def SetOp.values : List SetOp := [.union, .intersect, .except]

def SetOp.name : SetOp → String
  | .union => "Union"
  | .intersect => "Intersect"
  | .except => "Except"

def SetQuantifier.values : List SetQuantifier := [.unstated, .all, .distinct]

def SetQuantifier.name : SetQuantifier → String
  | .unstated => "None"
  | .all => "All"
  | .distinct => "Distinct"

def FrameUnit.values : List FrameUnit := [.rows, .range]

def FrameUnit.name : FrameUnit → String
  | .rows => "Rows"
  | .range => "Range"

def SortDirection.values : List SortDirection := [.ascending, .descending]

def SortDirection.name : SortDirection → String
  | .ascending => "Asc"
  | .descending => "Desc"

def NullsOrder.values : List NullsOrder := [.first, .last]

def NullsOrder.name : NullsOrder → String
  | .first => "First"
  | .last => "Last"

def JoinKind.values : List JoinKind := [.comma, .inner, .left, .right, .full, .cross]

def JoinKind.name : JoinKind → String
  | .comma => "Comma"
  | .inner => "Inner"
  | .left => "Left"
  | .right => "Right"
  | .full => "Full"
  | .cross => "Cross"

def ObjectKind.values : List ObjectKind := [.table, .view, .database, .index]

def ObjectKind.name : ObjectKind → String
  | .table => "Table"
  | .view => "View"
  | .database => "Database"
  | .index => "Index"

def ExplainStage.values : List ExplainStage := [.tree, .normalized, .plan, .pipeline]

def ExplainStage.name : ExplainStage → String
  | .tree => "Ast"
  | .normalized => "Syntax"
  | .plan => "Plan"
  | .pipeline => "Pipeline"

end CanonicalSql
