import CanonicalSql.Parser.Query

/-! Rules for the statements that change data. -/

namespace CanonicalSql

open Keyword Word CanonicalSql.Symbol

namespace Grammar

open Parse

/-- At most `count` further rows of values.  The comma between two rows may be left out. -/
def rows (row : Parse (List Expr)) : (count : Nat) → Parse (List (List Expr))
  | 0 => return []
  | count + 1 => do
    if (← accept comma) || (← sees leftParen) then
      let first ← row
      let others ← rows row count
      return first :: others
    else return []

/-- A row of values. -/
def row (g : Grammar) : Parse (List Expr) := between leftParen rightParen (commaList g.anyExpr)

/-- Where inserted rows come from. -/
def insertSource (g : Grammar) : Parse InsertSource := do
  if ← accept VALUES then
    let first ← g.row
    let others ← rows g.row (← remaining)
    return .values (first :: others)
  else if (← peek).startsQuery || (← sees leftParen) then return .query (← g.query)
  else fail .insertSource

/-- An insertion.  A parenthesis behind the table opens the list of columns, unless a query starts
behind it. -/
def insert (g : Grammar) : Parse Insert := do
  expect INSERT
  expect INTO
  discard (accept TABLE)
  let table ← qualifiedName
  let columns ← if (← peekAt 1).startsQuery then pure [] else optionalNameList
  return ⟨table, columns, ← g.insertSource⟩

/-- A column and its new value. -/
def assignment (g : Grammar) : Parse Assignment := do
  let column ← identifier
  expect equal
  return ⟨column, ← g.anyExpr⟩

/-- An update of rows. -/
def update (g : Grammar) : Parse Update := do
  expect UPDATE
  let table ← qualifiedName
  let asName ← aliasName
  expect SET
  let assignments ← commaList g.assignment
  return ⟨table, asName, assignments, ← optional WHERE g.anyExpr⟩

/-- A deletion of rows. -/
def delete (g : Grammar) : Parse Delete := do
  expect DELETE
  expect FROM
  let table ← qualifiedName
  let cluster ← onCluster
  return ⟨table, cluster, ← optional WHERE g.anyExpr⟩

end Grammar

end CanonicalSql
