import CanonicalSql.Printed.Piece

/-! The canonical text of expressions and queries.  Parentheses stand exactly where the levels of
`Precedence` ask for them: around an operand that binds less tightly than its place needs. -/

namespace CanonicalSql

open Keyword Word

/-- The name of a table. -/
def QualifiedName.pieces (n : QualifiedName) : List Piece :=
  match n.database with
  | none => [.name n.name]
  | some database => [.name database, .symbol .dot, .name n.name]

/-- The name of a column. -/
def ColumnRef.pieces (c : ColumnRef) : List Piece :=
  match c.table with
  | none => [.name c.column]
  | some table => table.pieces ++ [.symbol .dot, .name c.column]

/-- A constant. -/
def Literal.piece : Literal → Piece
  | .number t => .number t
  | .string value => .string value
  | .boolean true => TRUE
  | .boolean false => FALSE
  | .null => NULL

mutual

/-- A type with its arguments. -/
def DataType.pieces : DataType → List Piece
  | ⟨type, args⟩ => .typeName type :: Piece.optionalParens (DataTypeArg.each args)

/-- An argument of a type. -/
def DataTypeArg.pieces : DataTypeArg → List Piece
  | .number t => [.number t]
  | .string value => [.string value]
  | .type type => type.pieces

/-- The arguments one by one. -/
def DataTypeArg.each : List DataTypeArg → List (List Piece)
  | [] => []
  | arg :: args => arg.pieces :: DataTypeArg.each args

end

/-- The sign or word of an operator. -/
def BinaryOp.piece : BinaryOp → Piece
  | .or => OR
  | .and => AND
  | .equal => .symbol .equal
  | .notEqual => .symbol .bangEqual
  | .less => .symbol .less
  | .lessEqual => .symbol .lessEqual
  | .greater => .symbol .greater
  | .greaterEqual => .symbol .greaterEqual
  | .concat => .symbol .doubleBar
  | .plus => .symbol .plus
  | .minus => .symbol .minus
  | .multiply => .symbol .star
  | .divide => .symbol .slash
  | .modulo => .symbol .percent

/-- An operator in front of its operand: a sign touches it, and the word does not. -/
def UnaryOp.pieces : UnaryOp → List Piece
  | .not => Piece.ahead [NOT]
  | .minus => [.symbol .minus]
  | .plus => [.symbol .plus]

/-- The word of a match against a pattern. -/
def LikeOp.piece : LikeOp → Piece
  | .like => LIKE
  | .ilike => ILIKE

/-- The word of a frame's unit. -/
def FrameUnit.piece : FrameUnit → Piece
  | .rows => ROWS
  | .range => RANGE

/-- The word of a set operation. -/
def SetOp.piece : SetOp → Piece
  | .union => UNION
  | .intersect => INTERSECT
  | .except => EXCEPT

/-- What follows the word of a set operation. -/
def SetQuantifier.pieces : SetQuantifier → List Piece
  | .unstated => []
  | .all => Piece.behind [ALL]
  | .distinct => Piece.behind [DISTINCT]

/-- The direction of a sort behind its term. -/
def SortDirection.clause : Option SortDirection → List Piece
  | none => []
  | some .ascending => Piece.behind [ASC]
  | some .descending => Piece.behind [DESC]

/-- The place of missing values behind the term of a sort. -/
def NullsOrder.clause : Option NullsOrder → List Piece
  | none => []
  | some .first => Piece.behind [NULLS, FIRST]
  | some .last => Piece.behind [NULLS, LAST]

/-- What stands between a relation and the one that is joined to it. -/
def JoinKind.pieces : JoinKind → List Piece
  | .comma => [.symbol .comma, .space]
  | .inner => Piece.behind [INNER, JOIN] ++ [.space]
  | .left => Piece.behind [LEFT, JOIN] ++ [.space]
  | .right => Piece.behind [RIGHT, JOIN] ++ [.space]
  | .full => Piece.behind [FULL, JOIN] ++ [.space]
  | .cross => Piece.behind [CROSS, JOIN] ++ [.space]

/-- The word of a test behind the tested value, with `NOT` if the test is `negated`. -/
def testWords (negated : Bool) (test : Piece) : List Piece :=
  .space :: Piece.flag negated [NOT] ++ [test, .space]

/-- An expression, printed as `pieces`, in a place that needs at least `level`. -/
def Expr.placed (e : Expr) (level : Nat) (pieces : List Piece) : List Piece :=
  Piece.parensIf (e.precedence < level) pieces

mutual

/-- An expression. -/
def Expr.pieces : Expr → List Piece
  | .literal value => [value.piece]
  | .column column => column.pieces
  | .placeholder p => [.placeholder p]
  | .binary left op right =>
    left.placed op.precedence left.pieces ++ Piece.spaced op.piece ++
      right.placed (op.precedence + 1) right.pieces
  | .unary op operand =>
    op.pieces ++
      Piece.parensIf ((op.isSign && operand.isSigned) || operand.precedence < op.precedence)
        operand.pieces
  | .between value low high negated =>
    value.placed Precedence.comparison value.pieces ++
      testWords negated BETWEEN ++
      low.placed Precedence.operand low.pieces ++ Piece.spaced AND ++
      high.placed Precedence.operand high.pieces
  | .member value set negated =>
    value.placed Precedence.comparison value.pieces ++ testWords negated IN ++
      Piece.parens set.pieces
  | .like value op pattern negated =>
    value.placed Precedence.comparison value.pieces ++
      testWords negated op.piece ++
      pattern.placed Precedence.operand pattern.pieces
  | .isNull value negated =>
    value.placed Precedence.comparison value.pieces ++ Piece.spaced IS ++
      Piece.flag negated [NOT] ++ [↑NULL]
  | .cases operand arms otherwise =>
    [↑CASE] ++ (match operand with | none => [] | some e => .space :: e.pieces) ++
      CaseArm.allPieces arms ++
      (match otherwise with | none => [] | some e => Piece.clause [ELSE] e.pieces) ++
      Piece.behind [END]
  | .cast value type => [↑CAST] ++ Piece.parens (value.pieces ++ Piece.clause [AS] type.pieces)
  | .existence query => Piece.ahead [EXISTS] ++ Piece.parens query.pieces
  | .subquery query => Piece.parens query.pieces
  | .call call => call.pieces
  | .tuple items => Piece.parens (Piece.commas (Expr.each items))
  | .array items =>
    [.symbol .leftBracket] ++ Piece.commas (Expr.each items) ++ [.symbol .rightBracket]
  | .subscript base index =>
    base.placed Precedence.subscript base.pieces ++ [.symbol .leftBracket] ++
      index.pieces ++ [.symbol .rightBracket]
  | .interval value u =>
    Piece.ahead [INTERVAL] ++ value.placed Precedence.operand value.pieces ++
      [.space, .unit u]

/-- The expressions one by one. -/
def Expr.each : List Expr → List (List Piece)
  | [] => []
  | e :: es => e.pieces :: Expr.each es

/-- What stands between the parentheses behind `IN`. -/
def MemberSet.pieces : MemberSet → List Piece
  | .list items => Piece.commas (Expr.each items)
  | .query query => query.pieces

/-- The arm of a case distinction. -/
def CaseArm.pieces : CaseArm → List Piece
  | ⟨condition, result⟩ =>
    Piece.clause [WHEN] condition.pieces ++ Piece.clause [THEN] result.pieces

/-- The arms one after the other. -/
def CaseArm.allPieces : List CaseArm → List Piece
  | [] => []
  | arm :: arms => arm.pieces ++ CaseArm.allPieces arms

/-- A function call. -/
def Call.pieces : Call → List Piece
  | ⟨function, args, distinct, window⟩ =>
    [.functionName function] ++ Piece.parens (Piece.flag distinct [DISTINCT] ++ args.pieces) ++
      (match window with
        | none => []
        | some window => Piece.clause [OVER] (Piece.parens window.pieces))

/-- The arguments of a call. -/
def CallArgs.pieces : CallArgs → List Piece
  | .star => [.symbol .star]
  | .list items => Piece.commas (Expr.each items)

/-- A window: the parts that it has, with spaces between them. -/
def Window.pieces : Window → List Piece
  | ⟨partitionBy, orderBy, frame⟩ =>
    List.intercalate [.space] <|
      (if partitionBy.isEmpty then []
        else [Piece.ahead [PARTITION, BY] ++ Piece.commas (Expr.each partitionBy)]) ++
      (if orderBy.isEmpty then []
        else [Piece.ahead [ORDER, BY] ++ Piece.commas (OrderItem.each orderBy)]) ++
      (match frame with | none => [] | some frame => [frame.pieces])

/-- The frame of a window. -/
def Frame.pieces : Frame → List Piece
  | ⟨unit, start, finish⟩ =>
    [unit.piece, .space] ++
      (match finish with
        | none => start.pieces
        | some finish => Piece.ahead [BETWEEN] ++ start.pieces ++ Piece.clause [AND] finish.pieces)

/-- The bound of a frame. -/
def FrameBound.pieces : FrameBound → List Piece
  | .unboundedPreceding => Piece.phrase [UNBOUNDED, PRECEDING]
  | .preceding offset =>
    offset.placed Precedence.operand offset.pieces ++ Piece.behind [PRECEDING]
  | .currentRow => Piece.phrase [CURRENT, ROW]
  | .following offset =>
    offset.placed Precedence.operand offset.pieces ++ Piece.behind [FOLLOWING]
  | .unboundedFollowing => Piece.phrase [UNBOUNDED, FOLLOWING]

/-- A term of a sort order. -/
def OrderItem.pieces : OrderItem → List Piece
  | ⟨expr, direction, nulls⟩ =>
    expr.pieces ++ SortDirection.clause direction ++ NullsOrder.clause nulls

/-- The terms one by one. -/
def OrderItem.each : List OrderItem → List (List Piece)
  | [] => []
  | item :: items => item.pieces :: OrderItem.each items

/-- A query with everything around its body. -/
def Query.pieces : Query → List Piece
  | ⟨tables, body, orderBy, limit, settings, format⟩ =>
    (match tables with | none => [] | some tables => tables.pieces ++ [.space]) ++
      body.pieces ++
      Piece.listClause [ORDER, BY] (OrderItem.each orderBy) ++
      (match limit with | none => [] | some limit => limit.pieces) ++
      Piece.listClause [SETTINGS] (Setting.each settings) ++
      (match format with | none => [] | some format => Piece.clause [FORMAT] [.label format])

/-- The body of a query.  A set operation groups to the left, so its right operand needs
parentheses already where it binds equally tightly. -/
def QueryBody.pieces : QueryBody → List Piece
  | .block block => block.pieces
  | .nested query => Piece.parens query.pieces
  | .compound op quantifier left right =>
    Piece.parensIf (left.precedence < op.precedence) left.pieces ++ Piece.behind [op.piece] ++
      quantifier.pieces ++ [.space] ++
      Piece.parensIf (right.precedence ≤ op.precedence) right.pieces

/-- The named queries in front of a query. -/
def WithClause.pieces : WithClause → List Piece
  | ⟨recursive, tables⟩ =>
    Piece.ahead [WITH] ++ Piece.flag recursive [RECURSIVE] ++ Piece.commas (CommonTable.each tables)

/-- A named query. -/
def CommonTable.pieces : CommonTable → List Piece
  | ⟨table, columns, query⟩ =>
    [.name table] ++ Piece.nameList columns ++ Piece.clause [AS] (Piece.parens query.pieces)

/-- The named queries one by one. -/
def CommonTable.each : List CommonTable → List (List Piece)
  | [] => []
  | table :: tables => table.pieces :: CommonTable.each tables

/-- A single `SELECT` with its clauses. -/
def SelectBlock.pieces : SelectBlock → List Piece
  | ⟨distinct, items, source, selection, groupBy, having⟩ =>
    Piece.ahead [SELECT] ++ Piece.flag distinct [DISTINCT] ++
      Piece.commas (SelectItem.each items) ++
      (match source with | none => [] | some source => Piece.clause [FROM] source.pieces) ++
      (match selection with | none => [] | some e => Piece.clause [WHERE] e.pieces) ++
      Piece.listClause [GROUP, BY] (Expr.each groupBy) ++
      (match having with | none => [] | some e => Piece.clause [HAVING] e.pieces)

/-- A column of the result. -/
def SelectItem.pieces : SelectItem → List Piece
  | .wildcard => [.symbol .star]
  | .tableWildcard table => table.pieces ++ [.symbol .dot, .symbol .star]
  | .expr expr asName => expr.pieces ++ Piece.aliasClause asName

/-- The columns of the result one by one. -/
def SelectItem.each : List SelectItem → List (List Piece)
  | [] => []
  | item :: items => item.pieces :: SelectItem.each items

/-- A relation and those joined to it. -/
def FromClause.pieces : FromClause → List Piece
  | ⟨relation, joins⟩ => relation.pieces ++ Join.allPieces joins

/-- A relation. -/
def Relation.pieces : Relation → List Piece
  | .table table asName => table.pieces ++ Piece.aliasClause asName
  | .function function args asName =>
    [.name function] ++ Piece.parens (Piece.commas (Expr.each args)) ++ Piece.aliasClause asName
  | .derived query asName => Piece.parens query.pieces ++ Piece.aliasClause asName

/-- A join, with what separates it from the relations before it. -/
def Join.pieces : Join → List Piece
  | ⟨kind, relation, constraint⟩ =>
    kind.pieces ++ relation.pieces ++
      (match constraint with | none => [] | some constraint => constraint.pieces)

/-- The joins one after the other. -/
def Join.allPieces : List Join → List Piece
  | [] => []
  | join :: joins => join.pieces ++ Join.allPieces joins

/-- The condition of a join behind its relation. -/
def JoinConstraint.pieces : JoinConstraint → List Piece
  | .on condition => Piece.clause [ON] condition.pieces
  | .using columns => Piece.clause [USING] (Piece.parens (Piece.names columns))

/-- The limit of a query behind its body. -/
def Limit.pieces : Limit → List Piece
  | ⟨count, offset⟩ =>
    Piece.clause [LIMIT] count.pieces ++
      (match offset with | none => [] | some offset => Piece.clause [OFFSET] offset.pieces)

/-- A setting and its value. -/
def Setting.pieces : Setting → List Piece
  | ⟨setting, value⟩ => [.name setting] ++ Piece.clause [.symbol .equal] value.pieces

/-- The settings one by one. -/
def Setting.each : List Setting → List (List Piece)
  | [] => []
  | setting :: settings => setting.pieces :: Setting.each settings

end

instance : Printed QualifiedName := ⟨QualifiedName.pieces⟩
instance : Printed ColumnRef := ⟨ColumnRef.pieces⟩
instance : Printed Literal := ⟨fun l => [l.piece]⟩
instance : Printed Placeholder := ⟨fun p => [.placeholder p]⟩
instance : Printed DataType := ⟨DataType.pieces⟩
instance : Printed DataTypeArg := ⟨DataTypeArg.pieces⟩
instance : Printed BinaryOp := ⟨fun op => [op.piece]⟩
instance : Printed Expr := ⟨Expr.pieces⟩
instance : Printed Call := ⟨Call.pieces⟩
instance : Printed Window := ⟨Window.pieces⟩
instance : Printed Frame := ⟨Frame.pieces⟩
instance : Printed FrameBound := ⟨FrameBound.pieces⟩
instance : Printed OrderItem := ⟨OrderItem.pieces⟩
instance : Printed Query := ⟨Query.pieces⟩
instance : Printed QueryBody := ⟨QueryBody.pieces⟩
instance : Printed WithClause := ⟨WithClause.pieces⟩
instance : Printed CommonTable := ⟨CommonTable.pieces⟩
instance : Printed SelectBlock := ⟨SelectBlock.pieces⟩
instance : Printed SelectItem := ⟨SelectItem.pieces⟩
instance : Printed FromClause := ⟨FromClause.pieces⟩
instance : Printed Relation := ⟨Relation.pieces⟩
instance : Printed Join := ⟨Join.pieces⟩
instance : Printed Setting := ⟨Setting.pieces⟩

end CanonicalSql
