import CanonicalSql.Printed.Expr
import CanonicalSql.Tree.Statement

/-! The canonical text of statements and of documents. -/

namespace CanonicalSql

open Keyword Word

/-- The name of the cluster that a statement runs on. -/
def clusterClause : Option String → List Piece
  | none => []
  | some cluster => Piece.clause [ON, CLUSTER] [.name cluster]

/-- The condition of a change. -/
def whereClause : Option Expr → List Piece
  | none => []
  | some condition => Piece.clause [WHERE] condition.pieces

/-- A row of values. -/
def rowPieces (row : List Expr) : List Piece := Piece.parens (Piece.commas (Expr.each row))

/-- Where inserted rows come from, behind the table. -/
def InsertSource.pieces : InsertSource → List Piece
  | .values rows => Piece.clause [VALUES] (Piece.commas (rows.map rowPieces))
  | .query q => .space :: q.pieces

/-- An insertion: its table, the columns it names, and the rows. -/
def Insert.pieces (i : Insert) : List Piece :=
  Piece.ahead [INSERT, INTO] ++ i.table.pieces ++ Piece.nameList i.columns ++ i.source.pieces

/-- A column and its new value. -/
def Assignment.pieces (a : Assignment) : List Piece :=
  [.name a.column] ++ Piece.clause [.symbol .equal] a.value.pieces

/-- A change of rows: its table, the assignments, and the condition. -/
def Update.pieces (u : Update) : List Piece :=
  Piece.ahead [UPDATE] ++ u.table.pieces ++ Piece.aliasClause u.asName ++
    Piece.clause [SET] (Piece.commas (u.assignments.map Assignment.pieces)) ++
    whereClause u.selection

/-- A removal of rows: its table, the cluster, and the condition. -/
def Delete.pieces (d : Delete) : List Piece :=
  Piece.ahead [DELETE, FROM] ++ d.table.pieces ++ clusterClause d.cluster ++
    whereClause d.selection

/-- The table and the columns that a key refers to. -/
def ForeignReference.pieces (r : ForeignReference) : List Piece :=
  Piece.ahead [REFERENCES] ++ r.table.pieces ++ Piece.nameList r.columns

/-- A condition to check, always between parentheses. -/
def checkPieces (condition : Expr) : List Piece :=
  Piece.ahead [CHECK] ++ Piece.parens condition.pieces

/-- An option of a column behind its type. -/
def ColumnOption.pieces : ColumnOption → List Piece
  | .null => [NULL]
  | .notNull => Piece.phrase [NOT, NULL]
  | .default value => Piece.ahead [DEFAULT] ++ value.pieces
  | .materialized value => Piece.ahead [MATERIALIZED] ++ value.pieces
  | .computed value => Piece.ahead [ALIAS] ++ value.pieces
  | .primaryKey => Piece.phrase [PRIMARY, KEY]
  | .unique => [UNIQUE]
  | .check condition => checkPieces condition
  | .comment c => Piece.phrase [COMMENT, .string c]
  | .references target => target.pieces

/-- A column: its name, its type, and its options in their order. -/
def ColumnDefinition.pieces (c : ColumnDefinition) : List Piece :=
  [.name c.name] ++ (match c.type with | none => [] | some type => .space :: type.pieces) ++
    c.options.flatMap fun option => .space :: option.pieces

/-- What a constraint demands. -/
def ConstraintKind.pieces : ConstraintKind → List Piece
  | .primaryKey columns => Piece.ahead [PRIMARY, KEY] ++ Piece.parens (Piece.names columns)
  | .unique columns => Piece.ahead [UNIQUE] ++ Piece.parens (Piece.names columns)
  | .check condition => checkPieces condition
  | .foreignKey columns target =>
    Piece.ahead [FOREIGN, KEY] ++ Piece.parens (Piece.names columns) ++ .space :: target.pieces

/-- A constraint behind the name it may have. -/
def TableConstraint.pieces (c : TableConstraint) : List Piece :=
  (match c.name with | none => [] | some name => Piece.ahead [CONSTRAINT, .name name]) ++
    c.kind.pieces

/-- A column or a constraint of a table. -/
def TableElement.pieces : TableElement → List Piece
  | .column c => c.pieces
  | .constraint c => c.pieces

/-- An engine; the parentheses stand also around no arguments, if they were written. -/
def Engine.pieces (e : Engine) : List Piece :=
  [.label e.name] ++
    (match e.args with
      | none => []
      | some args => Piece.parens (Piece.commas (Expr.each args)))

/-- The engine of an object behind its name. -/
def engineClause : Option Engine → List Piece
  | none => []
  | some engine => Piece.clause [ENGINE, .symbol .equal] engine.pieces

/-- The words that allow an object to exist already. -/
def ifNotExistsPieces (present : Bool) : List Piece := Piece.flag present [IF, NOT, EXISTS]

/-- The words that allow an object to be missing. -/
def ifExistsPieces (present : Bool) : List Piece := Piece.flag present [IF, EXISTS]

/-- An expression of a table's storage behind its head, if there is one. -/
def storageClause (head : List Piece) : Option Expr → List Piece
  | none => []
  | some e => Piece.clause head e.pieces

/-- A new table: its elements, then the clauses of its storage in one fixed order. -/
def CreateTable.pieces (c : CreateTable) : List Piece :=
  Piece.ahead [CREATE] ++ Piece.flag c.orReplace [OR, REPLACE] ++
    Piece.flag c.temporary [TEMPORARY] ++ Piece.ahead [TABLE] ++ ifNotExistsPieces c.ifNotExists ++
    c.name.pieces ++ clusterClause c.cluster ++
    (if c.elements.isEmpty then []
      else .space :: Piece.parens (Piece.commas (c.elements.map TableElement.pieces))) ++
    engineClause c.engine ++
    storageClause [PARTITION, BY] c.partitionBy ++
    storageClause [PRIMARY, KEY] c.primaryKey ++
    storageClause [ORDER, BY] c.orderBy ++
    Piece.listClause [SETTINGS] (Setting.each c.settings) ++
    (match c.comment with | none => [] | some c => Piece.clause [COMMENT] [.string c]) ++
    (match c.query with | none => [] | some query => Piece.clause [AS] query.pieces)

/-- A new view: where its rows go, the names of its columns, and its query. -/
def CreateView.pieces (c : CreateView) : List Piece :=
  Piece.ahead [CREATE] ++ Piece.flag c.orReplace [OR, REPLACE] ++
    Piece.flag c.materialized [MATERIALIZED] ++ Piece.ahead [VIEW] ++
    ifNotExistsPieces c.ifNotExists ++ c.name.pieces ++ clusterClause c.cluster ++
    (match c.target with | none => [] | some target => Piece.clause [TO] target.pieces) ++
    Piece.nameList c.columns ++ Piece.clause [AS] c.query.pieces

/-- A column of an index. -/
def IndexColumn.pieces (c : IndexColumn) : List Piece :=
  c.expr.pieces ++ SortDirection.clause c.direction

/-- A new index and the columns it covers. -/
def CreateIndex.pieces (c : CreateIndex) : List Piece :=
  Piece.ahead [CREATE] ++ Piece.flag c.unique [UNIQUE] ++ Piece.ahead [INDEX] ++
    ifNotExistsPieces c.ifNotExists ++ [.name c.name] ++ Piece.clause [ON] c.table.pieces ++
    .space :: Piece.parens (Piece.commas (c.columns.map IndexColumn.pieces))

/-- A new database. -/
def CreateDatabase.pieces (c : CreateDatabase) : List Piece :=
  Piece.ahead [CREATE, DATABASE] ++ ifNotExistsPieces c.ifNotExists ++ [.name c.name] ++
    clusterClause c.cluster ++ engineClause c.engine

/-- The place of an added column behind its definition. -/
def ColumnPlace.clause : Option ColumnPlace → List Piece
  | none => []
  | some .first => Piece.behind [FIRST]
  | some (.after column) => Piece.behind [AFTER, .name column]

/-- One change to a table. -/
def AlterAction.pieces : AlterAction → List Piece
  | .addColumn ifNotExists column place =>
    Piece.ahead [ADD, COLUMN] ++ ifNotExistsPieces ifNotExists ++ column.pieces ++
      ColumnPlace.clause place
  | .dropColumn ifExists name =>
    Piece.ahead [DROP, COLUMN] ++ ifExistsPieces ifExists ++ [.name name]
  | .modifyColumn ifExists column =>
    Piece.ahead [ MODIFY, COLUMN] ++ ifExistsPieces ifExists ++ column.pieces
  | .renameColumn ifExists source target =>
    Piece.ahead [RENAME, COLUMN] ++ ifExistsPieces ifExists ++
      Piece.phrase [.name source, TO, .name target]
  | .commentColumn ifExists name comment =>
    Piece.ahead [COMMENT, COLUMN] ++ ifExistsPieces ifExists ++
      Piece.phrase [.name name, .string comment]
  | .addConstraint ifNotExists name check =>
    Piece.ahead [ADD, CONSTRAINT] ++ ifNotExistsPieces ifNotExists ++ [.name name, .space] ++
      checkPieces check
  | .dropConstraint ifExists name =>
    Piece.ahead [DROP, CONSTRAINT] ++ ifExistsPieces ifExists ++ [.name name]
  | .renameTable name => Piece.ahead [RENAME, TO] ++ name.pieces
  | .delete selection => Piece.ahead [DELETE, WHERE] ++ selection.pieces
  | .update assignments selection =>
    Piece.ahead [UPDATE] ++ Piece.commas (assignments.map Assignment.pieces) ++
      Piece.clause [WHERE] selection.pieces

/-- The changes to a table, in their order. -/
def AlterTable.pieces (a : AlterTable) : List Piece :=
  Piece.ahead [ALTER, TABLE] ++ a.name.pieces ++ clusterClause a.cluster ++
    .space :: Piece.commas (a.actions.map AlterAction.pieces)

/-- The word for a kind of object. -/
def ObjectKind.piece : ObjectKind → Piece
  | .table => TABLE
  | .view => VIEW
  | .database => DATABASE
  | .index => INDEX

/-- A removal of objects. -/
def Drop.pieces (d : Drop) : List Piece :=
  Piece.ahead [DROP, d.object.piece] ++ ifExistsPieces d.ifExists ++
    Piece.commas (d.names.map QualifiedName.pieces) ++ clusterClause d.cluster

/-- A removal of all rows of a table. -/
def Truncate.pieces (t : Truncate) : List Piece :=
  Piece.ahead [TRUNCATE, TABLE] ++ ifExistsPieces t.ifExists ++ t.name.pieces ++
    clusterClause t.cluster

/-- An old name and the new one. -/
def Renaming.pieces (r : Renaming) : List Piece :=
  r.source.pieces ++ Piece.clause [TO] r.target.pieces

/-- A change of the names of tables. -/
def Rename.pieces (r : Rename) : List Piece :=
  Piece.ahead [RENAME, TABLE] ++ Piece.commas (r.pairs.map Renaming.pieces) ++
    clusterClause r.cluster

/-- A question for names, or for the statement that makes a table. -/
def Listing.pieces : Listing → List Piece
  | .databases => Piece.phrase [SHOW, DATABASES]
  | .tables database pattern =>
    Piece.phrase [SHOW, TABLES] ++
      (match database with | none => [] | some name => Piece.clause [FROM] [.name name]) ++
      (match pattern with | none => [] | some value => Piece.clause [LIKE] [.string value])
  | .createTable name => Piece.ahead [SHOW, CREATE, TABLE] ++ name.pieces

/-- The word of a stage. -/
def ExplainStage.word : ExplainStage → Word
  | .tree => AST
  | .normalized => SYNTAX
  | .plan => PLAN
  | .pipeline => PIPELINE

/-- A request to merge the parts of a table, into a single one if it is final. -/
def Optimize.pieces (o : Optimize) : List Piece :=
  Piece.ahead [OPTIMIZE, TABLE] ++ o.table.pieces ++ clusterClause o.cluster ++
    (if o.final then Piece.behind [FINAL] else [])

/-- A statement, without the semicolon that ends it. -/
def Statement.pieces : Statement → List Piece
  | .select q => q.pieces
  | .insert i => i.pieces
  | .update u => u.pieces
  | .delete d => d.pieces
  | .createTable c => c.pieces
  | .createView c => c.pieces
  | .createIndex c => c.pieces
  | .createDatabase c => c.pieces
  | .alterTable a => a.pieces
  | .drop d => d.pieces
  | .truncate t => t.pieces
  | .rename r => r.pieces
  | .useDatabase name => Piece.phrase [USE, .name name]
  | .changeSettings settings => Piece.ahead [SET] ++ Piece.commas (Setting.each settings)
  | .listing l => l.pieces
  | .describe table => Piece.ahead [DESCRIBE, TABLE] ++ table.pieces
  | .explain stage statement =>
    Piece.ahead [EXPLAIN] ++
      (match stage with | none => [] | some stage => Piece.ahead [stage.word]) ++
      statement.pieces
  | .optimize o => o.pieces
  | .begin => [BEGIN]
  | .commit => [COMMIT]
  | .rollback => [ROLLBACK]

/-- The statements of a document, each with its semicolon and on a line of its own. -/
def documentPieces (statements : List Statement) : List Piece :=
  statements.flatMap fun statement => statement.pieces ++ [.symbol .semicolon, .lineEnd]

/-- The canonical text of a document. -/
def format (statements : List Statement) : String := Piece.text (documentPieces statements)

instance : Printed Insert := ⟨Insert.pieces⟩
instance : Printed Assignment := ⟨Assignment.pieces⟩
instance : Printed Update := ⟨Update.pieces⟩
instance : Printed Delete := ⟨Delete.pieces⟩
instance : Printed ForeignReference := ⟨ForeignReference.pieces⟩
instance : Printed ColumnOption := ⟨ColumnOption.pieces⟩
instance : Printed ColumnDefinition := ⟨ColumnDefinition.pieces⟩
instance : Printed TableConstraint := ⟨TableConstraint.pieces⟩
instance : Printed TableElement := ⟨TableElement.pieces⟩
instance : Printed Engine := ⟨Engine.pieces⟩
instance : Printed CreateTable := ⟨CreateTable.pieces⟩
instance : Printed CreateView := ⟨CreateView.pieces⟩
instance : Printed CreateIndex := ⟨CreateIndex.pieces⟩
instance : Printed CreateDatabase := ⟨CreateDatabase.pieces⟩
instance : Printed AlterAction := ⟨AlterAction.pieces⟩
instance : Printed AlterTable := ⟨AlterTable.pieces⟩
instance : Printed Drop := ⟨Drop.pieces⟩
instance : Printed Truncate := ⟨Truncate.pieces⟩
instance : Printed Rename := ⟨Rename.pieces⟩
instance : Printed Listing := ⟨Listing.pieces⟩
instance : Printed Optimize := ⟨Optimize.pieces⟩
instance : Printed Statement := ⟨Statement.pieces⟩

end CanonicalSql
