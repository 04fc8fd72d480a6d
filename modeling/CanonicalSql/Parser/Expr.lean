import CanonicalSql.Parser.DataType
import CanonicalSql.Parser.Operator

/-! Rules for expressions.  An expression is an operand and the operators that continue it; a rule
that asks for a level stops in front of the first operator that binds less tightly. -/

namespace CanonicalSql

open Keyword Word CanonicalSql.Symbol

/-- Whether a token of this kind starts a query that is not between parentheses. -/
def Token.Kind.startsQuery : Token.Kind → Bool
  | .keyword k => k = SELECT || k = WITH
  | _ => false

namespace Grammar

open Parse

/-- A whole expression: operators of every level belong to it. -/
def anyExpr (g : Grammar) : Parse Expr := g.expr 0

/-- The direction of a sort, if it is given. -/
def sortDirection : Parse (Option SortDirection) := do
  if ← accept ASC then return some .ascending
  else if ← accept DESC then return some .descending
  else return none

/-- A term of a sort order. -/
def orderItem (g : Grammar) : Parse OrderItem := do
  let expr ← g.anyExpr
  let direction ← sortDirection
  let nulls ← optional NULLS do
    if ← accept FIRST then return .first
    else if ← accept LAST then return .last
    else fail .nullsPlace
  return ⟨expr, direction, nulls⟩

/-- The terms of a sort order, from behind its first word. -/
def orderItems (g : Grammar) : Parse (List OrderItem) := do
  expect BY
  commaList g.orderItem

/-- The bound of a frame. -/
def frameBound (g : Grammar) : Parse FrameBound := do
  if ← accept UNBOUNDED then
    if ← accept PRECEDING then return .unboundedPreceding
    else
      expect FOLLOWING
      return .unboundedFollowing
  else if ← accept CURRENT then
    expect ROW
    return .currentRow
  else
    let offset ← g.expr Precedence.operand
    if ← accept PRECEDING then return .preceding offset
    else if ← accept FOLLOWING then return .following offset
    else fail .frameDirection

/-- The frame of a window, from behind its unit. -/
def frame (g : Grammar) (unit : FrameUnit) : Parse Frame := do
  if ← accept BETWEEN then
    let start ← g.frameBound
    expect AND
    let finish ← g.frameBound
    return ⟨unit, start, some finish⟩
  else
    return ⟨unit, ← g.frameBound, none⟩

/-- What a frame counts in, if there is a frame. -/
def frameUnit : Parse (Option FrameUnit) := do
  if ← accept ROWS then return some .rows
  else if ← accept RANGE then return some .range
  else return none

/-- The parts of a window. -/
def windowParts (g : Grammar) : Parse Window := do
  let partitionBy ← optionalList PARTITION do
    expect BY
    commaList g.anyExpr
  let orderBy ← optionalList ORDER g.orderItems
  match ← frameUnit with
  | some unit => return ⟨partitionBy, orderBy, some (← g.frame unit)⟩
  | none => return ⟨partitionBy, orderBy, none⟩

/-- A window. -/
def window (g : Grammar) : Parse Window := between leftParen rightParen g.windowParts

/-- The arguments of a call, and whether `DISTINCT` stands before them. -/
def callArgs (g : Grammar) : Parse (CallArgs × Bool) := do
  if ← accept star then return (.star, false)
  else if ← sees rightParen then return (.list [], false)
  else
    let distinct ← accept DISTINCT
    return (.list (← commaList g.anyExpr), distinct)

/-- A call of the function `name`, from behind its name. -/
def call (g : Grammar) (name : String) : Parse Expr := do
  let (args, distinct) ← between leftParen rightParen g.callArgs
  let window ← optional OVER g.window
  return .call ⟨name, args, distinct, window⟩

/-- What a name starts, from behind the name: a call where a parenthesis follows, and otherwise a
column with as many parts as there are dots. -/
def named (g : Grammar) (first : String) : Parse Expr := do
  if ← sees leftParen then g.call first
  else if ← accept dot then
    let second ← identifier
    if ← accept dot then
      let column ← identifier
      return .column ⟨some ⟨some first, second⟩, column⟩
    else
      return .column ⟨some (.bare first), second⟩
  else
    return .bareColumn first

/-- At most `count` arms of a case distinction. -/
def caseArms (g : Grammar) : (count : Nat) → Parse (List CaseArm)
  | 0 => return []
  | count + 1 => do
    if ← accept WHEN then
      let condition ← g.anyExpr
      expect THEN
      let result ← g.anyExpr
      let others ← g.caseArms count
      return ⟨condition, result⟩ :: others
    else return []

/-- A case distinction, from behind its first word.  It has an arm at least. -/
def cases (g : Grammar) : Parse Expr := do
  let operand ← if ← sees WHEN then pure none else some <$> g.anyExpr
  let arms ← g.caseArms (← remaining)
  if arms.isEmpty then fail .caseArm
  let otherwise ← optional ELSE g.anyExpr
  expect END
  return .cases operand arms otherwise

/-- A cast, from behind its first word. -/
def cast (g : Grammar) : Parse Expr :=
  between leftParen rightParen do
    let value ← g.anyExpr
    expect AS
    let type ← g.dataType
    return .cast value type

/-- An interval, from behind its first word.  Its unit is a bare word. -/
def interval (g : Grammar) : Parse Expr := do
  let value ← g.expr Precedence.operand
  match ← peek with
  | .ident unit =>
    discard advance
    return .interval value (capitals unit)
  | _ => fail .intervalUnit

/-- What stands between parentheses in the place of an operand: a query, a single expression that
they only group, or a tuple. -/
def parenthesized (g : Grammar) : Parse Expr := do
  if (← peek).startsQuery then
    return .subquery (← g.query)
  else
    match ← commaList g.anyExpr with
    | [item] => return item
    | items => return .tuple items

/-- The operand that `token`, a keyword, starts. -/
def keywordOperand (g : Grammar) (token : Token) (k : Keyword) : Parse Expr := do
  match k with
  | TRUE => return .literal (.boolean true)
  | FALSE => return .literal (.boolean false)
  | NULL => return .literal .null
  | CASE => g.cases
  | CAST => g.cast
  | EXISTS => return .existence (← between leftParen rightParen g.query)
  | INTERVAL => g.interval
  | k =>
    if k.namesFunction && (← sees leftParen) then g.call token.text
    else failAt token .expression

/-- The operand that `token`, a symbol, starts. -/
def symbolOperand (g : Grammar) (token : Token) (s : Symbol) : Parse Expr := do
  match s with
  | leftBracket =>
    let items ← commaListUpTo rightBracket g.anyExpr
    expect rightBracket
    return .array items
  | leftParen =>
    let e ← g.parenthesized
    expect rightParen
    return e
  | _ => failAt token .expression

/-- An operand without an operator in front of it.  A token that starts none is passed over. -/
def operand (g : Grammar) : Parse Expr := do
  let token ← advance
  match token.kind with
  | .number t => return .number t
  | .string value => return .string value
  | .question => return .placeholder .anonymous
  | .questionNumber number => return .placeholder (.numbered number)
  | .colonParam name => return .placeholder (.named name)
  | .dollarParam name => return .placeholder (.dollar name)
  | .ident name | .quotedIdent name => g.named name
  | .keyword k => g.keywordOperand token k
  | .symbol s => g.symbolOperand token s
  | .eof => failAt token .expression

/-- The first operand of an expression, with the operators in front of it. -/
def signedOperand (g : Grammar) : Parse Expr := do
  if ← accept NOT then return .unary .not (← g.expr Precedence.negation)
  else if ← accept minus then return .unary .minus (← g.expr Precedence.signed)
  else if ← accept plus then return .unary .plus (← g.expr Precedence.signed)
  else g.operand

/-- What stands between the parentheses behind `IN`. -/
def memberSet (g : Grammar) : Parse MemberSet := do
  if (← peek).startsQuery then return .query (← g.query)
  else return .list (← commaList g.anyExpr)

/-- The expression that the operator `c` makes of `left`, from behind the tokens that announce the
operator.  The right operand of a binary operator has to bind more tightly than it, so operators of
one level group to the left. -/
def continued (g : Grammar) (left : Expr) (c : Continuation) : Parse Expr := do
  match c with
  | .subscript =>
    let index ← g.anyExpr
    expect rightBracket
    return .subscript left index
  | .binary op => return .binary left op (← g.expr (op.precedence + 1))
  | .nullTest =>
    let negated ← accept NOT
    expect NULL
    return .isNull left negated
  | .between negated =>
    let low ← g.expr Precedence.operand
    expect AND
    let high ← g.expr Precedence.operand
    return .between left low high negated
  | .member negated => return .member left (← between leftParen rightParen g.memberSet) negated
  | .like op negated => return .like left op (← g.expr Precedence.operand) negated

/-- The expression that at most `count` operators of at least `level` make of `left`.  Each operator
nests the tree one level deeper, so it is a link of the chain. -/
def operatorChain (g : Grammar) (level : Nat) : (count : Nat) → (left : Expr) → Chain Expr
  | 0, left => return left
  | count + 1, left => do
    match Continuation.ofKinds? (← Chain.lift peek) (← Chain.lift (peekAt 1)) with
    | none => return left
    | some c =>
      if c.precedence < level then return left
      else
        Chain.addLink
        Chain.lift (skip c.width)
        let left ← Chain.lift (g.continued left c)
        g.operatorChain level count left

/-- An expression whose operators bind at least as tightly as `level`. -/
def exprRule (g : Grammar) (level : Nat) : Parse Expr :=
  descend do
    let left ← g.signedOperand
    leftChain (g.operatorChain level (← remaining) left)

end Grammar

end CanonicalSql
