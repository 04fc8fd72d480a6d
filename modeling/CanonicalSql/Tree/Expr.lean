import CanonicalSql.Tree.DataType
import CanonicalSql.Tree.Name
import CanonicalSql.Tree.Operator

/-! Expressions and queries.  Each can hold the other, so their types are declared together.  A tree
records structure only: it has no places, and no parentheses where they are just grouping. -/

namespace CanonicalSql

/-- A constant. -/
inductive Literal where
  /-- A number, kept as written. -/
  | number (text : String)
  | string (value : String)
  | boolean (value : Bool)
  | null
  deriving DecidableEq

/-- A parameter that is bound when the statement runs. -/
inductive Placeholder where
  /-- The parameter `?`. -/
  | anonymous
  /-- A parameter such as `?2`. -/
  | numbered (number : UInt32)
  /-- A parameter such as `:name`. -/
  | named (name : String)
  /-- A parameter such as `$name`. -/
  | dollar (name : String)
  deriving DecidableEq

/-- What a window frame counts in. -/
inductive FrameUnit where
  | rows | range
  deriving DecidableEq

inductive SortDirection where
  | ascending | descending
  deriving DecidableEq

/-- Where a sort puts missing values. -/
inductive NullsOrder where
  | first | last
  deriving DecidableEq

inductive JoinKind where
  /-- Two relations with a comma between them. -/
  | comma
  | inner | left | right | full | cross
  deriving DecidableEq

mutual

inductive Expr where
  | literal (value : Literal)
  | column (column : ColumnRef)
  | placeholder (placeholder : Placeholder)
  | binary (left : Expr) (op : BinaryOp) (right : Expr)
  | unary (op : UnaryOp) (operand : Expr)
  | between (value low high : Expr) (negated : Bool)
  | member (value : Expr) (set : MemberSet) (negated : Bool)
  | like (value : Expr) (op : LikeOp) (pattern : Expr) (negated : Bool)
  | isNull (value : Expr) (negated : Bool)
  | cases (operand : Option Expr) (arms : List CaseArm) (otherwise : Option Expr)
  | cast (value : Expr) (type : DataType)
  | existence (query : Query)
  | subquery (query : Query)
  | call (call : Call)
  | tuple (items : List Expr)
  | array (items : List Expr)
  | subscript (base index : Expr)
  | interval (value : Expr) (unit : String)

/-- The right side of `IN`. -/
inductive MemberSet where
  | list (items : List Expr)
  | query (query : Query)

/-- The arm `WHEN condition THEN result`. -/
structure CaseArm where
  condition : Expr
  result : Expr

/-- A function call, over a window if it has one. -/
structure Call where
  name : String
  args : CallArgs
  distinct : Bool
  window : Option Window

/-- The arguments of a call; the star stands alone. -/
inductive CallArgs where
  | star
  | list (items : List Expr)

structure Window where
  partitionBy : List Expr
  orderBy : List OrderItem
  frame : Option Frame

/-- The frame of a window; one with an end is written with `BETWEEN`. -/
structure Frame where
  unit : FrameUnit
  start : FrameBound
  finish : Option FrameBound

inductive FrameBound where
  | unboundedPreceding
  | preceding (offset : Expr)
  | currentRow
  | following (offset : Expr)
  | unboundedFollowing

/-- A term of a sort order. -/
structure OrderItem where
  expr : Expr
  direction : Option SortDirection
  nulls : Option NullsOrder

/-- A query with everything around its body. -/
structure Query where
  tables : Option WithClause
  body : QueryBody
  orderBy : List OrderItem
  limit : Option Limit
  settings : List Setting
  format : Option String

/-- The tree of set operations of a query. -/
inductive QueryBody where
  | block (block : SelectBlock)
  /-- A whole query between parentheses. -/
  | nested (query : Query)
  | compound (op : SetOp) (quantifier : SetQuantifier) (left right : QueryBody)

/-- The named queries in front of a query. -/
structure WithClause where
  recursive : Bool
  tables : List CommonTable

/-- A named query. -/
structure CommonTable where
  name : String
  columns : List String
  query : Query

/-- A single `SELECT` with its clauses up to `HAVING`. -/
structure SelectBlock where
  distinct : Bool
  items : List SelectItem
  source : Option FromClause
  selection : Option Expr
  groupBy : List Expr
  having : Option Expr

/-- A column of the result, or all columns of one table or of all. -/
inductive SelectItem where
  | wildcard
  | tableWildcard (table : QualifiedName)
  | expr (expr : Expr) (asName : Option String)

structure FromClause where
  relation : Relation
  joins : List Join

/-- Where rows come from. -/
inductive Relation where
  | table (name : QualifiedName) (asName : Option String)
  | function (name : String) (args : List Expr) (asName : Option String)
  | derived (query : Query) (asName : Option String)

/-- A relation joined to those before it. -/
structure Join where
  kind : JoinKind
  relation : Relation
  constraint : Option JoinConstraint

inductive JoinConstraint where
  | on (condition : Expr)
  | using (columns : List String)

/-- The greatest number of rows, and the number of rows left out before them. -/
structure Limit where
  count : Expr
  offset : Option Expr

/-- A setting and its value. -/
structure Setting where
  name : String
  value : Expr

end

namespace Expr

/-- How tightly the outermost construct binds. -/
def precedence : Expr → Nat
  | .binary _ op _ => op.precedence
  | .unary op _ => op.precedence
  | .between .. | .member .. | .like .. | .isNull .. => Precedence.comparison
  | .subscript .. => Precedence.subscript
  | _ => Precedence.atom

/-- Whether the expression is a sign and its operand. -/
def isSigned : Expr → Bool
  | .unary op _ => op.isSign
  | _ => false

/-- The number written `text`. -/
def number (text : String) : Expr := .literal (.number text)

/-- The string `value`. -/
def string (value : String) : Expr := .literal (.string value)

/-- The column `name`, without a table. -/
def bareColumn (name : String) : Expr := .column ⟨none, name⟩

end Expr

/-- How tightly the outermost set operation binds; anything else binds tighter than all of them. -/
def QueryBody.precedence : QueryBody → Nat
  | .compound op _ _ _ => op.precedence
  | .block _ | .nested _ => 3

/-- A query that is nothing but its body. -/
def Query.ofBody (body : QueryBody) : Query := ⟨none, body, [], none, [], none⟩

end CanonicalSql
