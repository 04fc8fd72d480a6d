import CanonicalSql.Parser.DataChange

/-! Rules for the statements that define and alter objects.  The clauses of a table's storage stand
in one fixed order. -/

namespace CanonicalSql

open Keyword Word CanonicalSql.Symbol

namespace Grammar

open Parse

/-- The table that a foreign key refers to, and its columns if they are listed. -/
def foreignReference : Parse ForeignReference := do
  expect REFERENCES
  let table ← qualifiedName
  return ⟨table, ← optionalNameList⟩

/-- An option of a column, if one follows. -/
def columnOption (g : Grammar) : Parse (Option ColumnOption) := do
  if ← accept NULL then return some .null
  else if ← accept NOT then
    expect NULL
    return some .notNull
  else if ← accept DEFAULT then return some (.default (← g.anyExpr))
  else if ← accept MATERIALIZED then return some (.materialized (← g.anyExpr))
  else if ← accept ALIAS then return some (.computed (← g.anyExpr))
  else if ← accept PRIMARY then
    expect KEY
    return some .primaryKey
  else if ← accept UNIQUE then return some .unique
  else if ← accept CHECK then return some (.check (← g.anyExpr))
  else if ← accept COMMENT then return some (.comment (← stringLiteral .comment))
  else if ← sees REFERENCES then return some (.references (← foreignReference))
  else return none

/-- At most `count` options of a column. -/
def columnOptions (g : Grammar) : (count : Nat) → Parse (List ColumnOption)
  | 0 => return []
  | count + 1 => do
    match ← g.columnOption with
    | none => return []
    | some option => return option :: (← g.columnOptions count)

/-- Whether a token of this kind starts the type of a column.  Where the column's place can follow,
the bare words of a place do not. -/
def startsColumnType (beforePlace : Bool) : Token.Kind → Bool
  | .ident name => !(beforePlace && isColumnPlaceWord name)
  | .quotedIdent _ => true
  | _ => false

/-- A column of a table. -/
def columnDefinition (g : Grammar) (beforePlace : Bool) : Parse ColumnDefinition := do
  let name ← identifier
  let type ←
    if startsColumnType beforePlace (← peek) then some <$> g.dataType else pure none
  return ⟨name, type, ← g.columnOptions (← remaining)⟩

/-- What a constraint of a table demands. -/
def constraintKind (g : Grammar) : Parse ConstraintKind := do
  if ← accept PRIMARY then
    expect KEY
    return .primaryKey (← nameList)
  else if ← accept UNIQUE then return .unique (← nameList)
  else if ← accept CHECK then return .check (← g.anyExpr)
  else if ← accept FOREIGN then
    expect KEY
    let columns ← nameList
    return .foreignKey columns (← foreignReference)
  else fail .constraintKind

/-- A constraint of a table. -/
def tableConstraint (g : Grammar) : Parse TableConstraint := do
  let name ← optional CONSTRAINT identifier
  return ⟨name, ← g.constraintKind⟩

/-- Whether a token of this kind starts a constraint of a table. -/
def startsConstraint : Token.Kind → Bool
  | .keyword k => [CONSTRAINT, PRIMARY, UNIQUE, CHECK, FOREIGN].contains k
  | _ => false

/-- A column or a constraint. -/
def tableElement (g : Grammar) : Parse TableElement := do
  if startsConstraint (← peek) then return .constraint (← g.tableConstraint)
  else return .column (← g.columnDefinition false)

/-- An engine, from behind its first word. -/
def engine (g : Grammar) : Parse Engine := do
  discard (accept equal)
  let name ← label .engineName
  let args ← optional leftParen do
    let args ← commaListUpTo rightParen g.anyExpr
    expect rightParen
    return args
  return ⟨name, args⟩

/-- What a table holds: its columns and constraints between parentheses. -/
def tableElements (g : Grammar) : Parse (List TableElement) :=
  optionalList leftParen do
    let elements ← commaList g.tableElement
    expect rightParen
    return elements

/-- The definition of a table, from behind `TABLE`.  It has a list of columns or a query. -/
def createTable (g : Grammar) (orReplace temporary : Bool) : Parse CreateTable := do
  let ifNotExists ← ifNotExists
  let name ← qualifiedName
  let cluster ← onCluster
  let elements ← g.tableElements
  let engine ← optional ENGINE g.engine
  let partitionBy ← if ← acceptAll [PARTITION, BY] then some <$> g.anyExpr else pure none
  let primaryKey ← optional PRIMARY do
    expect KEY
    g.anyExpr
  let orderBy ← optional ORDER do
    expect BY
    g.anyExpr
  let settings ← optionalList SETTINGS (commaList g.setting)
  let comment ← optional COMMENT (stringLiteral .comment)
  let query ← optional AS g.query
  if elements.isEmpty && query.isNone then fail .tableContents
  return {
    orReplace, temporary, ifNotExists, name, cluster, elements, engine, partitionBy, primaryKey
    orderBy, settings, comment, query }

/-- The definition of a view, from behind `VIEW`. -/
def createView (g : Grammar) (orReplace materialized : Bool) : Parse CreateView := do
  let ifNotExists ← ifNotExists
  let name ← qualifiedName
  let cluster ← onCluster
  let target ← optional TO qualifiedName
  let columns ← optionalNameList
  expect AS
  let query ← g.query
  return { orReplace, materialized, ifNotExists, name, cluster, target, columns, query }

/-- A column of an index. -/
def indexColumn (g : Grammar) : Parse IndexColumn := do
  let expr ← g.anyExpr
  return ⟨expr, ← sortDirection⟩

/-- The definition of an index, from behind `INDEX`. -/
def createIndex (g : Grammar) (unique : Bool) : Parse CreateIndex := do
  let ifNotExists ← ifNotExists
  let name ← identifier
  expect ON
  let table ← qualifiedName
  let columns ← between leftParen rightParen (commaList g.indexColumn)
  return { unique, ifNotExists, name, table, columns }

/-- The definition of a database, from behind `DATABASE`. -/
def createDatabase (g : Grammar) : Parse CreateDatabase := do
  let ifNotExists ← ifNotExists
  let name ← identifier
  let cluster ← onCluster
  let engine ← optional ENGINE g.engine
  return { ifNotExists, name, cluster, engine }

/-- A definition.  Tables and views can replace older ones. -/
def create (g : Grammar) : Parse Statement := do
  expect CREATE
  let orReplace ← acceptAll [OR, REPLACE]
  if ← accept TEMPORARY then
    expect TABLE
    return .createTable (← g.createTable orReplace true)
  else if ← accept TABLE then
    return .createTable (← g.createTable orReplace false)
  else if ← accept MATERIALIZED then
    expect VIEW
    return .createView (← g.createView orReplace true)
  else if ← accept VIEW then
    return .createView (← g.createView orReplace false)
  else if orReplace then fail .replacedObject
  else if ← accept UNIQUE then
    expect INDEX
    return .createIndex (← g.createIndex true)
  else if ← accept INDEX then
    return .createIndex (← g.createIndex false)
  else if ← accept DATABASE then
    return .createDatabase (← g.createDatabase)
  else fail .newObject

/-- Where an added column goes, if that is stated. -/
def columnPlace : Parse (Option ColumnPlace) := do
  if ← accept FIRST then return some .first
  else if ← accept AFTER then return some (.after (← identifier))
  else return none

/-- What is added to a table, from behind `ADD`. -/
def addition (g : Grammar) : Parse AlterAction := do
  if ← accept COLUMN then
    let ifNotExists ← ifNotExists
    let column ← g.columnDefinition true
    return .addColumn ifNotExists column (← columnPlace)
  else if ← accept CONSTRAINT then
    let ifNotExists ← ifNotExists
    let name ← identifier
    expect CHECK
    return .addConstraint ifNotExists name (← g.anyExpr)
  else fail .alteredPart

/-- What is taken from a table, from behind `DROP`. -/
def removal : Parse AlterAction := do
  if ← accept COLUMN then
    let ifExists ← ifExists
    return .dropColumn ifExists (← identifier)
  else if ← accept CONSTRAINT then
    let ifExists ← ifExists
    return .dropConstraint ifExists (← identifier)
  else fail .alteredPart

/-- A new name for a table or one of its columns, from behind `RENAME`. -/
def renamedPart : Parse AlterAction := do
  if ← accept TO then return .renameTable (← qualifiedName)
  else
    expect COLUMN
    let ifExists ← ifExists
    let source ← identifier
    expect TO
    return .renameColumn ifExists source (← identifier)

/-- An action on a table. -/
def alterAction (g : Grammar) : Parse AlterAction := do
  if ← accept ADD then g.addition
  else if ← accept DROP then removal
  else if ← accept MODIFY then
    expect COLUMN
    let ifExists ← ifExists
    return .modifyColumn ifExists (← g.columnDefinition false)
  else if ← accept RENAME then renamedPart
  else if ← accept COMMENT then
    expect COLUMN
    let ifExists ← ifExists
    let name ← identifier
    return .commentColumn ifExists name (← stringLiteral .comment)
  else if ← accept DELETE then
    expect WHERE
    return .delete (← g.anyExpr)
  else if ← accept UPDATE then
    let assignments ← commaList g.assignment
    expect WHERE
    return .update assignments (← g.anyExpr)
  else fail .alterAction

/-- Actions on a table. -/
def alterTable (g : Grammar) : Parse AlterTable := do
  expect ALTER
  expect TABLE
  let name ← qualifiedName
  let cluster ← onCluster
  return ⟨name, cluster, ← commaList g.alterAction⟩

/-- The kind of object that is dropped. -/
def droppedKind : Parse ObjectKind := do
  if ← accept TABLE then return .table
  else if ← accept VIEW then return .view
  else if ← accept DATABASE then return .database
  else if ← accept INDEX then return .index
  else fail .droppedObject

/-- The removal of objects. -/
def drop : Parse Drop := do
  expect DROP
  let object ← droppedKind
  let ifExists ← ifExists
  let names ← commaList qualifiedName
  return ⟨object, ifExists, names, ← onCluster⟩

/-- The removal of all rows of a table. -/
def truncate : Parse Truncate := do
  expect TRUNCATE
  discard (accept TABLE)
  let ifExists ← ifExists
  let name ← qualifiedName
  return ⟨ifExists, name, ← onCluster⟩

/-- A table and its new name. -/
def newName : Parse Renaming := do
  let source ← qualifiedName
  expect TO
  return ⟨source, ← qualifiedName⟩

/-- New names for tables. -/
def rename : Parse Rename := do
  expect RENAME
  expect TABLE
  let pairs ← commaList newName
  return ⟨pairs, ← onCluster⟩

end Grammar

end CanonicalSql
