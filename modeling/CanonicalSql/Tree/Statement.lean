import CanonicalSql.Tree.Expr

/-! Statements: what changes data, what defines and alters objects, and what steers a session. -/

namespace CanonicalSql

/-! Changes of data. -/

/-- The rows to insert: written out, or the result of a query. -/
inductive InsertSource where
  | values (rows : List (List Expr))
  | query (query : Query)

structure Insert where
  table : QualifiedName
  columns : List String
  source : InsertSource

/-- A column and its new value. -/
structure Assignment where
  column : String
  value : Expr

structure Update where
  table : QualifiedName
  asName : Option String
  assignments : List Assignment
  selection : Option Expr

structure Delete where
  table : QualifiedName
  cluster : Option String
  selection : Option Expr

/-! Definitions. -/

/-- The table, and perhaps the columns, that a foreign key refers to. -/
structure ForeignReference where
  table : QualifiedName
  columns : List String

inductive ColumnOption where
  | null
  | notNull
  | default (value : Expr)
  | materialized (value : Expr)
  | computed (value : Expr)
  | primaryKey
  | unique
  | check (condition : Expr)
  | comment (text : String)
  | references (target : ForeignReference)

/-- A column of a table: its type, if it states one, and its options in order. -/
structure ColumnDefinition where
  name : String
  type : Option DataType
  options : List ColumnOption

inductive ConstraintKind where
  | primaryKey (columns : List String)
  | unique (columns : List String)
  | check (condition : Expr)
  | foreignKey (columns : List String) (target : ForeignReference)

/-- A constraint of a table, with its name if it has one. -/
structure TableConstraint where
  name : Option String
  kind : ConstraintKind

inductive TableElement where
  | column (column : ColumnDefinition)
  | constraint (constraint : TableConstraint)

/-- A storage engine; `args` is `none` where no parentheses follow its name. -/
structure Engine where
  name : String
  args : Option (List Expr)

structure CreateTable where
  orReplace : Bool
  temporary : Bool
  ifNotExists : Bool
  name : QualifiedName
  cluster : Option String
  elements : List TableElement
  engine : Option Engine
  partitionBy : Option Expr
  primaryKey : Option Expr
  orderBy : Option Expr
  settings : List Setting
  comment : Option String
  query : Option Query

structure CreateView where
  orReplace : Bool
  materialized : Bool
  ifNotExists : Bool
  name : QualifiedName
  cluster : Option String
  /-- The table that a materialized view writes to. -/
  target : Option QualifiedName
  columns : List String
  query : Query

structure IndexColumn where
  expr : Expr
  direction : Option SortDirection

structure CreateIndex where
  unique : Bool
  ifNotExists : Bool
  name : String
  table : QualifiedName
  columns : List IndexColumn

structure CreateDatabase where
  ifNotExists : Bool
  name : String
  cluster : Option String
  engine : Option Engine

/-- Where an added column goes. -/
inductive ColumnPlace where
  | first
  | after (column : String)

inductive AlterAction where
  | addColumn (ifNotExists : Bool) (column : ColumnDefinition) (place : Option ColumnPlace)
  | dropColumn (ifExists : Bool) (name : String)
  | modifyColumn (ifExists : Bool) (column : ColumnDefinition)
  | renameColumn (ifExists : Bool) (source target : String)
  | commentColumn (ifExists : Bool) (name comment : String)
  | addConstraint (ifNotExists : Bool) (name : String) (check : Expr)
  | dropConstraint (ifExists : Bool) (name : String)
  | renameTable (name : QualifiedName)
  | delete (selection : Expr)
  | update (assignments : List Assignment) (selection : Expr)

structure AlterTable where
  name : QualifiedName
  cluster : Option String
  actions : List AlterAction

/-- The kinds of objects that can be dropped. -/
inductive ObjectKind where
  | table | view | database | index
  deriving DecidableEq

structure Drop where
  object : ObjectKind
  ifExists : Bool
  names : List QualifiedName
  cluster : Option String

structure Truncate where
  ifExists : Bool
  name : QualifiedName
  cluster : Option String

structure Renaming where
  source : QualifiedName
  target : QualifiedName

structure Rename where
  pairs : List Renaming
  cluster : Option String

/-! Sessions. -/

/-- What a `SHOW` statement lists. -/
inductive Listing where
  | databases
  | tables (database : Option String) (pattern : Option String)
  | createTable (name : QualifiedName)

/-- The stage of a statement's way that is explained. -/
inductive ExplainStage where
  | tree | normalized | plan | pipeline
  deriving DecidableEq

structure Optimize where
  table : QualifiedName
  cluster : Option String
  final : Bool

inductive Statement where
  | select (query : Query)
  | insert (insert : Insert)
  | update (update : Update)
  | delete (delete : Delete)
  | createTable (create : CreateTable)
  | createView (create : CreateView)
  | createIndex (create : CreateIndex)
  | createDatabase (create : CreateDatabase)
  | alterTable (alter : AlterTable)
  | drop (drop : Drop)
  | truncate (truncate : Truncate)
  | rename (rename : Rename)
  | useDatabase (name : String)
  | changeSettings (settings : List Setting)
  | listing (listing : Listing)
  | describe (table : QualifiedName)
  | explain (stage : Option ExplainStage) (statement : Statement)
  | optimize (optimize : Optimize)
  | begin
  | commit
  | rollback

/-- The coarse kinds of statements. -/
inductive Category where
  /-- A plain `SELECT`, or a change of data. -/
  | dml
  /-- A definition. -/
  | ddl
  /-- A query with named queries, set operations or parentheses around it. -/
  | query
  /-- A statement about the session. -/
  | basic
  deriving DecidableEq

/-- The name of a category. -/
def Category.name : Category → String
  | .dml => "dml"
  | .ddl => "ddl"
  | .query => "query"
  | .basic => "basic"

/-- The category of a query: plain if nothing is named in front of it and its body is a single
block. -/
def Query.category (q : Query) : Category :=
  match q.tables, q.body with
  | none, .block _ => .dml
  | _, _ => .query

/-- The category of a statement. -/
def Statement.category : Statement → Category
  | .select query => query.category
  | .insert _ | .update _ | .delete _ => .dml
  | .createTable _ | .createView _ | .createIndex _ | .createDatabase _ | .alterTable _
  | .drop _ | .truncate _ | .rename _ => .ddl
  | .useDatabase _ | .changeSettings _ | .listing _ | .describe _ | .explain _ _ | .optimize _
  | .begin | .commit | .rollback => .basic

end CanonicalSql
