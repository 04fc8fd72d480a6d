import CanonicalSql.Parser.Expr

/-! Rules for queries: the clauses of a `SELECT`, set operations, and what surrounds them. -/

namespace CanonicalSql

open Keyword Word CanonicalSql.Symbol

namespace Grammar

open Parse

/-- A name for the columns of a whole table, if one is ahead: `table.*` or `database.table.*`. -/
def tableWildcard? : Parse (Option QualifiedName) := do
  match (← peek).name? with
  | none => return none
  | some first =>
    if ← seesAllAt 1 [dot, star] then
      skip 3
      return some (.bare first)
    else
      match (← peekAt 2).name? with
      | none => return none
      | some second =>
        if (← seesAt 1 dot) && (← seesAllAt 3 [dot, star]) then
          skip 5
          return some ⟨some first, second⟩
        else return none

/-- A column of the result. -/
def selectItem (g : Grammar) : Parse SelectItem := do
  if ← accept star then return .wildcard
  else
    match ← tableWildcard? with
    | some table => return .tableWildcard table
    | none =>
      let expr ← g.anyExpr
      return .expr expr (← aliasName)

/-- A query between parentheses that a relation starts with, from behind the first of them. -/
def derivedQuery (g : Grammar) : Parse Query := do
  if (← peek).startsQuery || (← sees leftParen) then
    let query ← g.query
    expect rightParen
    return query
  else fail .subquery

/-- A relation. -/
def relation (g : Grammar) : Parse Relation := do
  if ← accept leftParen then
    let query ← g.derivedQuery
    return .derived query (← aliasName)
  else if (← peek).name?.isNone then fail .relation
  else if ← seesAt 1 leftParen then
    let function ← identifier
    let args ← between leftParen rightParen (commaListUpTo rightParen g.anyExpr)
    return .function function args (← aliasName)
  else
    let table ← qualifiedName
    return .table table (← aliasName)

/-- The side of an outer join, with or without `OUTER`, if one is named. -/
def joinSide : Parse (Option JoinKind) := do
  if ← accept LEFT then
    discard (accept OUTER)
    return some .left
  else if ← accept RIGHT then
    discard (accept OUTER)
    return some .right
  else if ← accept FULL then
    discard (accept OUTER)
    return some .full
  else return none

/-- The words of a join up to `JOIN`, if a join follows. -/
def joinKind : Parse (Option JoinKind) := do
  if ← sees JOIN then return some .inner
  else if ← accept INNER then return some .inner
  else if ← accept CROSS then return some .cross
  else joinSide

/-- The condition of a join; a cross join has none, and all others have one. -/
def joinConstraint (g : Grammar) (kind : JoinKind) : Parse (Option JoinConstraint) := do
  if kind = .cross then return none
  else if ← accept ON then return some (.on (← g.anyExpr))
  else if ← accept USING then return some (.using (← nameList))
  else fail .joinCondition

/-- A relation joined to those before it, if one follows. -/
def join (g : Grammar) : Parse (Option Join) := do
  if ← accept comma then return some ⟨.comma, ← g.relation, none⟩
  else
    match ← joinKind with
    | none => return none
    | some kind =>
      expect JOIN
      let relation ← g.relation
      return some ⟨kind, relation, ← g.joinConstraint kind⟩

/-- At most `count` joins. -/
def joins (g : Grammar) : (count : Nat) → Parse (List Join)
  | 0 => return []
  | count + 1 => do
    match ← g.join with
    | none => return []
    | some join => return join :: (← g.joins count)

/-- A relation and those joined to it. -/
def fromClause (g : Grammar) : Parse FromClause := do
  let relation ← g.relation
  return ⟨relation, ← g.joins (← remaining)⟩

/-- A single `SELECT` with its clauses. -/
def selectBlock (g : Grammar) : Parse SelectBlock := do
  expect SELECT
  let distinct ← accept DISTINCT
  unless distinct do discard (accept ALL)
  let items ← commaList g.selectItem
  let source ← optional FROM g.fromClause
  let selection ← optional WHERE g.anyExpr
  let groupBy ← optionalList GROUP do
    expect BY
    commaList g.anyExpr
  let having ← optional HAVING g.anyExpr
  return ⟨distinct, items, source, selection, groupBy, having⟩

/-- An operand of a set operation. -/
def setOperand (g : Grammar) : Parse QueryBody := do
  if ← sees SELECT then return .block (← g.selectBlock)
  else if ← sees leftParen then return .nested (← between leftParen rightParen g.query)
  else fail .queryBody

/-- The set operation that a token announces, if it announces one. -/
def setOp? : Token.Kind → Option SetOp
  | .keyword UNION => some .union
  | .keyword INTERSECT => some .intersect
  | .keyword EXCEPT => some .except
  | _ => none

/-- What a set operation does with equal rows, if it says so. -/
def setQuantifier : Parse SetQuantifier := do
  if ← accept ALL then return .all
  else if ← accept DISTINCT then return .distinct
  else return .unstated

/-- The body that at most `count` set operations of at least `level` make of `left`.  Each operation
nests the tree one level deeper, so it is a link of the chain. -/
def setOperationChain (g : Grammar) (level : Nat) : (count : Nat) → (left : QueryBody) → Chain QueryBody
  | 0, left => return left
  | count + 1, left => do
    match setOp? (← Chain.lift peek) with
    | none => return left
    | some op =>
      if op.precedence < level then return left
      else
        Chain.addLink
        Chain.lift (discard advance)
        let quantifier ← Chain.lift setQuantifier
        let right ← Chain.lift (g.body (op.precedence + 1))
        g.setOperationChain level count (.compound op quantifier left right)

/-- The body of a query whose set operations bind at least as tightly as `level`. -/
def bodyRule (g : Grammar) (level : Nat) : Parse QueryBody := do
  let left ← g.setOperand
  leftChain (g.setOperationChain level (← remaining) left)

/-- A named query. -/
def commonTable (g : Grammar) : Parse CommonTable := do
  let name ← identifier
  let columns ← optionalNameList
  expect AS
  return ⟨name, columns, ← between leftParen rightParen g.query⟩

/-- The named queries in front of a query, from behind their first word. -/
def withClause (g : Grammar) : Parse WithClause := do
  let recursive ← accept RECURSIVE
  return ⟨recursive, ← commaList g.commonTable⟩

/-- A setting and its value. -/
def setting (g : Grammar) : Parse Setting := do
  let name ← identifier
  expect equal
  return ⟨name, ← g.anyExpr⟩

/-- A limit, from behind its first word.  Of two numbers with a comma between them the second is the
limit. -/
def limit (g : Grammar) : Parse Limit := do
  let first ← g.anyExpr
  if ← accept comma then return ⟨← g.anyExpr, some first⟩
  else return ⟨first, ← optional OFFSET g.anyExpr⟩

/-- A query with everything around its body. -/
def queryRule (g : Grammar) : Parse Query :=
  descend do
    let tables ← optional WITH g.withClause
    let body ← g.bodyRule 0
    let orderBy ← optionalList ORDER g.orderItems
    let limit ← optional LIMIT g.limit
    let settings ← optionalList SETTINGS (commaList g.setting)
    let format ← optional FORMAT (label .formatName)
    return ⟨tables, body, orderBy, limit, settings, format⟩

end Grammar

end CanonicalSql
