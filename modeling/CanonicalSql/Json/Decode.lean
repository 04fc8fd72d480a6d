import CanonicalSql.Json.Choice
import CanonicalSql.Json.Value

/-! Reading trees back from their JSON form.  A value of the wrong shape has no reading.  Fields
that a record does not have are passed over, and a missing field is as good as `null` where the
part may be absent. -/

namespace CanonicalSql

namespace Json

/-- The content of a string. -/
def string? : Json → Option String
  | .string value => some value
  | _ => none

/-- A truth value. -/
def bool? : Json → Option Bool
  | .bool value => some value
  | _ => none

/-- A number of 32 bits. -/
def word32? : Json → Option UInt32
  | .natural n => if n < UInt32.size then some (UInt32.ofNat n) else none
  | _ => none

/-- The items of an array, each read by `item?`. -/
def list? {α : Type} (item? : Json → Option α) : Json → Option (List α)
  | .array items => items.mapM item?
  | _ => none

/-- The fields of an object. -/
def fields? : Json → Option (List (String × Json))
  | .object fields => some fields
  | _ => none

/-- A part that has to be there. -/
def field? {α : Type} (fields : List (String × Json)) (name : String) (value? : Json → Option α) :
    Option α := do
  value? (← fields.lookup name)

/-- A part that may be absent. -/
def optionalField? {α : Type} (fields : List (String × Json)) (name : String)
    (value? : Json → Option α) : Option (Option α) :=
  match fields.lookup name with
  | none | some .null => some none
  | some value => (value? value).map some

/-- A choice: its name and its content. -/
def variant? : Json → Option (String × Json)
  | .string name => some (name, .null)
  | .object [(name, content)] => some (name, content)
  | _ => none

/-- One of the choices `values` without content, by its `name`. -/
def choice? {α : Type} (values : List α) (name : α → String) (j : Json) : Option α := do
  match ← j.variant? with
  | (found, .null) => values.find? fun value => name value == found
  | _ => none

end Json

open Json

/-! Names and constants. -/

def QualifiedName.decode? (j : Json) : Option QualifiedName := do
  let r ← j.fields?
  return { database := ← optionalField? r "database" string?, name := ← field? r "name" string? }

def ColumnRef.decode? (j : Json) : Option ColumnRef := do
  let r ← j.fields?
  return {
    table := ← optionalField? r "table" QualifiedName.decode?
    column := ← field? r "column" string? }

def Literal.decode? (j : Json) : Option Literal := do
  match ← j.variant? with
  | ("Number", content) => return .number (← content.string?)
  | ("String", content) => return .string (← content.string?)
  | ("Boolean", content) => return .boolean (← content.bool?)
  | ("Null", .null) => return .null
  | _ => none

def Placeholder.decode? (j : Json) : Option Placeholder := do
  match ← j.variant? with
  | ("Anonymous", .null) => return .anonymous
  | ("Numbered", content) => return .numbered (← content.word32?)
  | ("Named", content) => return .named (← content.string?)
  | ("Dollar", content) => return .dollar (← content.string?)
  | _ => none

def BinaryOp.decode? : Json → Option BinaryOp := choice? BinaryOp.values BinaryOp.name
def UnaryOp.decode? : Json → Option UnaryOp := choice? UnaryOp.values UnaryOp.name
def LikeOp.decode? : Json → Option LikeOp := choice? LikeOp.values LikeOp.name
def SetOp.decode? : Json → Option SetOp := choice? SetOp.values SetOp.name
def SetQuantifier.decode? : Json → Option SetQuantifier :=
  choice? SetQuantifier.values SetQuantifier.name
def FrameUnit.decode? : Json → Option FrameUnit := choice? FrameUnit.values FrameUnit.name
def SortDirection.decode? : Json → Option SortDirection :=
  choice? SortDirection.values SortDirection.name
def NullsOrder.decode? : Json → Option NullsOrder := choice? NullsOrder.values NullsOrder.name
def JoinKind.decode? : Json → Option JoinKind := choice? JoinKind.values JoinKind.name
def ObjectKind.decode? : Json → Option ObjectKind := choice? ObjectKind.values ObjectKind.name
def ExplainStage.decode? : Json → Option ExplainStage :=
  choice? ExplainStage.values ExplainStage.name

/-- A reader for each kind of tree that can stand inside another of its kind. -/
structure TreeReader where
  expr : Json → Option Expr
  query : Json → Option Query
  body : Json → Option QueryBody
  dataType : Json → Option DataType
  statement : Json → Option Statement

namespace TreeReader

/-- The reader that reads nothing. -/
def empty : TreeReader :=
  ⟨fun _ => none, fun _ => none, fun _ => none, fun _ => none, fun _ => none⟩

def dataTypeArg (t : TreeReader) (j : Json) : Option DataTypeArg := do
  match ← j.variant? with
  | ("Number", content) => return .number (← content.string?)
  | ("String", content) => return .string (← content.string?)
  | ("Type", content) => return .type (← t.dataType content)
  | _ => none

def dataTypeRule (t : TreeReader) (j : Json) : Option DataType := do
  let r ← j.fields?
  return { name := ← field? r "name" string?, args := ← field? r "args" (list? t.dataTypeArg) }

/-! Expressions. -/

def exprs (t : TreeReader) : Json → Option (List Expr) := list? t.expr

def orderItem (t : TreeReader) (j : Json) : Option OrderItem := do
  let r ← j.fields?
  return {
    expr := ← field? r "expr" t.expr
    direction := ← optionalField? r "direction" SortDirection.decode?
    nulls := ← optionalField? r "nulls" NullsOrder.decode? }

def frameBound (t : TreeReader) (j : Json) : Option FrameBound := do
  match ← j.variant? with
  | ("UnboundedPreceding", .null) => return .unboundedPreceding
  | ("Preceding", content) => return .preceding (← t.expr content)
  | ("CurrentRow", .null) => return .currentRow
  | ("Following", content) => return .following (← t.expr content)
  | ("UnboundedFollowing", .null) => return .unboundedFollowing
  | _ => none

def frame (t : TreeReader) (j : Json) : Option Frame := do
  let r ← j.fields?
  return {
    unit := ← field? r "units" FrameUnit.decode?
    start := ← field? r "start" t.frameBound
    finish := ← optionalField? r "end" t.frameBound }

def window (t : TreeReader) (j : Json) : Option Window := do
  let r ← j.fields?
  return {
    partitionBy := ← field? r "partition_by" t.exprs
    orderBy := ← field? r "order_by" (list? t.orderItem)
    frame := ← optionalField? r "frame" t.frame }

def callArgs (t : TreeReader) (j : Json) : Option CallArgs := do
  match ← j.variant? with
  | ("Star", .null) => return .star
  | ("List", content) => return .list (← t.exprs content)
  | _ => none

def call (t : TreeReader) (j : Json) : Option Call := do
  let r ← j.fields?
  return {
    name := ← field? r "name" string?
    args := ← field? r "args" t.callArgs
    distinct := ← field? r "distinct" bool?
    window := ← optionalField? r "over" t.window }

def caseArm (t : TreeReader) (j : Json) : Option CaseArm := do
  let r ← j.fields?
  return { condition := ← field? r "condition" t.expr, result := ← field? r "result" t.expr }

def memberSet (t : TreeReader) (j : Json) : Option MemberSet := do
  match ← j.variant? with
  | ("List", content) => return .list (← t.exprs content)
  | ("Subquery", content) => return .query (← t.query content)
  | _ => none

/-- The expressions that are written as records: operators, tests and other forms with parts. -/
def composedExpr (t : TreeReader) (name : String) (content : Json) : Option Expr := do
  let r ← content.fields?
  match name with
  | "BinaryOp" =>
    return .binary (← field? r "left" t.expr) (← field? r "op" BinaryOp.decode?)
      (← field? r "right" t.expr)
  | "UnaryOp" => return .unary (← field? r "op" UnaryOp.decode?) (← field? r "expr" t.expr)
  | "Between" =>
    return .between (← field? r "expr" t.expr) (← field? r "low" t.expr)
      (← field? r "high" t.expr) (← field? r "negated" bool?)
  | "In" =>
    return .member (← field? r "expr" t.expr) (← field? r "set" t.memberSet)
      (← field? r "negated" bool?)
  | "Like" =>
    return .like (← field? r "expr" t.expr) (← field? r "op" LikeOp.decode?)
      (← field? r "pattern" t.expr) (← field? r "negated" bool?)
  | "IsNull" => return .isNull (← field? r "expr" t.expr) (← field? r "negated" bool?)
  | "Case" =>
    return .cases (← optionalField? r "operand" t.expr) (← field? r "whens" (list? t.caseArm))
      (← optionalField? r "else_expr" t.expr)
  | "Cast" => return .cast (← field? r "expr" t.expr) (← field? r "data_type" t.dataType)
  | "Subscript" => return .subscript (← field? r "expr" t.expr) (← field? r "index" t.expr)
  | "Interval" => return .interval (← field? r "value" t.expr) (← field? r "unit" string?)
  | _ => none

def exprRule (t : TreeReader) (j : Json) : Option Expr := do
  match ← j.variant? with
  | ("Literal", content) => return .literal (← Literal.decode? content)
  | ("Column", content) => return .column (← ColumnRef.decode? content)
  | ("Placeholder", content) => return .placeholder (← Placeholder.decode? content)
  | ("Exists", content) => return .existence (← t.query content)
  | ("Subquery", content) => return .subquery (← t.query content)
  | ("Function", content) => return .call (← t.call content)
  | ("Tuple", content) => return .tuple (← t.exprs content)
  | ("Array", content) => return .array (← t.exprs content)
  | (name, content) => t.composedExpr name content

/-! Queries. -/

def selectItem (t : TreeReader) (j : Json) : Option SelectItem := do
  match ← j.variant? with
  | ("Wildcard", .null) => return .wildcard
  | ("QualifiedWildcard", content) => return .tableWildcard (← QualifiedName.decode? content)
  | ("Expr", content) =>
    let r ← content.fields?
    return .expr (← field? r "expr" t.expr) (← optionalField? r "alias" string?)
  | _ => none

def relation (t : TreeReader) (j : Json) : Option Relation := do
  let (name, content) ← j.variant?
  let r ← content.fields?
  let asName ← optionalField? r "alias" string?
  match name with
  | "Table" => return .table (← field? r "name" QualifiedName.decode?) asName
  | "Function" =>
    return .function (← field? r "name" string?) (← field? r "args" t.exprs) asName
  | "Derived" => return .derived (← field? r "subquery" t.query) asName
  | _ => none

def joinConstraint (t : TreeReader) (j : Json) : Option JoinConstraint := do
  match ← j.variant? with
  | ("On", content) => return .on (← t.expr content)
  | ("Using", content) => return .using (← list? string? content)
  | _ => none

def join (t : TreeReader) (j : Json) : Option Join := do
  let r ← j.fields?
  return {
    kind := ← field? r "kind" JoinKind.decode?
    relation := ← field? r "relation" t.relation
    constraint := ← optionalField? r "constraint" t.joinConstraint }

def fromClause (t : TreeReader) (j : Json) : Option FromClause := do
  let r ← j.fields?
  return {
    relation := ← field? r "relation" t.relation
    joins := ← field? r "joins" (list? t.join) }

def selectBlock (t : TreeReader) (j : Json) : Option SelectBlock := do
  let r ← j.fields?
  return {
    distinct := ← field? r "distinct" bool?
    items := ← field? r "projection" (list? t.selectItem)
    source := ← optionalField? r "from" t.fromClause
    selection := ← optionalField? r "selection" t.expr
    groupBy := ← field? r "group_by" t.exprs
    having := ← optionalField? r "having" t.expr }

def bodyRule (t : TreeReader) (j : Json) : Option QueryBody := do
  match ← j.variant? with
  | ("Select", content) => return .block (← t.selectBlock content)
  | ("Nested", content) => return .nested (← t.query content)
  | ("Compound", content) =>
    let r ← content.fields?
    return .compound (← field? r "op" SetOp.decode?) (← field? r "quantifier" SetQuantifier.decode?)
      (← field? r "left" t.body) (← field? r "right" t.body)
  | _ => none

def commonTable (t : TreeReader) (j : Json) : Option CommonTable := do
  let r ← j.fields?
  return {
    name := ← field? r "name" string?
    columns := ← field? r "columns" (list? string?)
    query := ← field? r "query" t.query }

def withClause (t : TreeReader) (j : Json) : Option WithClause := do
  let r ← j.fields?
  return {
    recursive := ← field? r "recursive" bool?, tables := ← field? r "ctes" (list? t.commonTable) }

def limit (t : TreeReader) (j : Json) : Option Limit := do
  let r ← j.fields?
  return { count := ← field? r "limit" t.expr, offset := ← optionalField? r "offset" t.expr }

def setting (t : TreeReader) (j : Json) : Option Setting := do
  let r ← j.fields?
  return { name := ← field? r "name" string?, value := ← field? r "value" t.expr }

def queryRule (t : TreeReader) (j : Json) : Option Query := do
  let r ← j.fields?
  return {
    tables := ← optionalField? r "with" t.withClause
    body := ← field? r "body" t.body
    orderBy := ← field? r "order_by" (list? t.orderItem)
    limit := ← optionalField? r "limit" t.limit
    settings := ← field? r "settings" (list? t.setting)
    format := ← optionalField? r "format" string? }

/-! Statements. -/

def insertSource (t : TreeReader) (j : Json) : Option InsertSource := do
  match ← j.variant? with
  | ("Values", content) => return .values (← list? t.exprs content)
  | ("Select", content) => return .query (← t.query content)
  | _ => none

def insert (t : TreeReader) (j : Json) : Option Insert := do
  let r ← j.fields?
  return {
    table := ← field? r "table" QualifiedName.decode?
    columns := ← field? r "columns" (list? string?)
    source := ← field? r "source" t.insertSource }

def assignment (t : TreeReader) (j : Json) : Option Assignment := do
  let r ← j.fields?
  return { column := ← field? r "column" string?, value := ← field? r "value" t.expr }

def update (t : TreeReader) (j : Json) : Option Update := do
  let r ← j.fields?
  return {
    table := ← field? r "table" QualifiedName.decode?
    asName := ← optionalField? r "alias" string?
    assignments := ← field? r "assignments" (list? t.assignment)
    selection := ← optionalField? r "selection" t.expr }

def delete (t : TreeReader) (j : Json) : Option Delete := do
  let r ← j.fields?
  return {
    table := ← field? r "table" QualifiedName.decode?
    cluster := ← optionalField? r "cluster" string?
    selection := ← optionalField? r "selection" t.expr }

def foreignReference (j : Json) : Option ForeignReference := do
  let r ← j.fields?
  return {
    table := ← field? r "table" QualifiedName.decode?
    columns := ← field? r "columns" (list? string?) }

def columnOption (t : TreeReader) (j : Json) : Option ColumnOption := do
  match ← j.variant? with
  | ("Null", .null) => return .null
  | ("NotNull", .null) => return .notNull
  | ("Default", content) => return .default (← t.expr content)
  | ("Materialized", content) => return .materialized (← t.expr content)
  | ("Alias", content) => return .computed (← t.expr content)
  | ("PrimaryKey", .null) => return .primaryKey
  | ("Unique", .null) => return .unique
  | ("Check", content) => return .check (← t.expr content)
  | ("Comment", content) => return .comment (← content.string?)
  | ("References", content) => return .references (← foreignReference content)
  | _ => none

def columnDefinition (t : TreeReader) (j : Json) : Option ColumnDefinition := do
  let r ← j.fields?
  return {
    name := ← field? r "name" string?
    type := ← optionalField? r "data_type" t.dataType
    options := ← field? r "options" (list? t.columnOption) }

def constraintKind (t : TreeReader) (j : Json) : Option ConstraintKind := do
  match ← j.variant? with
  | ("PrimaryKey", content) => return .primaryKey (← list? string? content)
  | ("Unique", content) => return .unique (← list? string? content)
  | ("Check", content) => return .check (← t.expr content)
  | ("ForeignKey", content) =>
    let r ← content.fields?
    return .foreignKey (← field? r "columns" (list? string?))
      (← field? r "reference" foreignReference)
  | _ => none

def tableConstraint (t : TreeReader) (j : Json) : Option TableConstraint := do
  let r ← j.fields?
  return { name := ← optionalField? r "name" string?, kind := ← field? r "kind" t.constraintKind }

def tableElement (t : TreeReader) (j : Json) : Option TableElement := do
  match ← j.variant? with
  | ("Column", content) => return .column (← t.columnDefinition content)
  | ("Constraint", content) => return .constraint (← t.tableConstraint content)
  | _ => none

def engine (t : TreeReader) (j : Json) : Option Engine := do
  let r ← j.fields?
  return { name := ← field? r "name" string?, args := ← optionalField? r "args" t.exprs }

def createTable (t : TreeReader) (j : Json) : Option CreateTable := do
  let r ← j.fields?
  return {
    orReplace := ← field? r "or_replace" bool?
    temporary := ← field? r "temporary" bool?
    ifNotExists := ← field? r "if_not_exists" bool?
    name := ← field? r "name" QualifiedName.decode?
    cluster := ← optionalField? r "cluster" string?
    elements := ← field? r "elements" (list? t.tableElement)
    engine := ← optionalField? r "engine" t.engine
    partitionBy := ← optionalField? r "partition_by" t.expr
    primaryKey := ← optionalField? r "primary_key" t.expr
    orderBy := ← optionalField? r "order_by" t.expr
    settings := ← field? r "settings" (list? t.setting)
    comment := ← optionalField? r "comment" string?
    query := ← optionalField? r "as_select" t.query }

def createView (t : TreeReader) (j : Json) : Option CreateView := do
  let r ← j.fields?
  return {
    orReplace := ← field? r "or_replace" bool?
    materialized := ← field? r "materialized" bool?
    ifNotExists := ← field? r "if_not_exists" bool?
    name := ← field? r "name" QualifiedName.decode?
    cluster := ← optionalField? r "cluster" string?
    target := ← optionalField? r "to" QualifiedName.decode?
    columns := ← field? r "columns" (list? string?)
    query := ← field? r "query" t.query }

def indexColumn (t : TreeReader) (j : Json) : Option IndexColumn := do
  let r ← j.fields?
  return {
    expr := ← field? r "expr" t.expr
    direction := ← optionalField? r "direction" SortDirection.decode? }

def createIndex (t : TreeReader) (j : Json) : Option CreateIndex := do
  let r ← j.fields?
  return {
    unique := ← field? r "unique" bool?
    ifNotExists := ← field? r "if_not_exists" bool?
    name := ← field? r "name" string?
    table := ← field? r "table" QualifiedName.decode?
    columns := ← field? r "columns" (list? t.indexColumn) }

def createDatabase (t : TreeReader) (j : Json) : Option CreateDatabase := do
  let r ← j.fields?
  return {
    ifNotExists := ← field? r "if_not_exists" bool?
    name := ← field? r "name" string?
    cluster := ← optionalField? r "cluster" string?
    engine := ← optionalField? r "engine" t.engine }

def columnPlace (j : Json) : Option ColumnPlace := do
  match ← j.variant? with
  | ("First", .null) => return .first
  | ("After", content) => return .after (← content.string?)
  | _ => none

/-- The actions on a table that are written as records. -/
def composedAction (t : TreeReader) (name : String) (content : Json) : Option AlterAction := do
  let r ← content.fields?
  match name with
  | "AddColumn" =>
    return .addColumn (← field? r "if_not_exists" bool?) (← field? r "column" t.columnDefinition)
      (← optionalField? r "position" columnPlace)
  | "DropColumn" => return .dropColumn (← field? r "if_exists" bool?) (← field? r "name" string?)
  | "ModifyColumn" =>
    return .modifyColumn (← field? r "if_exists" bool?) (← field? r "column" t.columnDefinition)
  | "RenameColumn" =>
    return .renameColumn (← field? r "if_exists" bool?) (← field? r "from" string?)
      (← field? r "to" string?)
  | "CommentColumn" =>
    return .commentColumn (← field? r "if_exists" bool?) (← field? r "name" string?)
      (← field? r "comment" string?)
  | "AddConstraint" =>
    return .addConstraint (← field? r "if_not_exists" bool?) (← field? r "name" string?)
      (← field? r "check" t.expr)
  | "DropConstraint" =>
    return .dropConstraint (← field? r "if_exists" bool?) (← field? r "name" string?)
  | "Update" =>
    return .update (← field? r "assignments" (list? t.assignment)) (← field? r "selection" t.expr)
  | _ => none

def alterAction (t : TreeReader) (j : Json) : Option AlterAction := do
  match ← j.variant? with
  | ("RenameTable", content) => return .renameTable (← QualifiedName.decode? content)
  | ("Delete", content) => return .delete (← t.expr content)
  | (name, content) => t.composedAction name content

def alterTable (t : TreeReader) (j : Json) : Option AlterTable := do
  let r ← j.fields?
  return {
    name := ← field? r "name" QualifiedName.decode?
    cluster := ← optionalField? r "cluster" string?
    actions := ← field? r "actions" (list? t.alterAction) }

def drop (j : Json) : Option Drop := do
  let r ← j.fields?
  return {
    object := ← field? r "object" ObjectKind.decode?
    ifExists := ← field? r "if_exists" bool?
    names := ← field? r "names" (list? QualifiedName.decode?)
    cluster := ← optionalField? r "cluster" string? }

def truncate (j : Json) : Option Truncate := do
  let r ← j.fields?
  return {
    ifExists := ← field? r "if_exists" bool?
    name := ← field? r "name" QualifiedName.decode?
    cluster := ← optionalField? r "cluster" string? }

def newName (j : Json) : Option Renaming := do
  let r ← j.fields?
  return {
    source := ← field? r "from" QualifiedName.decode?
    target := ← field? r "to" QualifiedName.decode? }

def rename (j : Json) : Option Rename := do
  let r ← j.fields?
  return {
    pairs := ← field? r "pairs" (list? newName), cluster := ← optionalField? r "cluster" string? }

def listing (j : Json) : Option Listing := do
  match ← j.variant? with
  | ("Databases", .null) => return .databases
  | ("Tables", content) =>
    let r ← content.fields?
    return .tables (← optionalField? r "from" string?) (← optionalField? r "like" string?)
  | ("CreateTable", content) => return .createTable (← QualifiedName.decode? content)
  | _ => none

def optimize (j : Json) : Option Optimize := do
  let r ← j.fields?
  return {
    table := ← field? r "table" QualifiedName.decode?
    cluster := ← optionalField? r "cluster" string?
    final := ← field? r "final_merge" bool? }

def explain (t : TreeReader) (j : Json) : Option Statement := do
  let r ← j.fields?
  return .explain (← optionalField? r "kind" ExplainStage.decode?)
    (← field? r "statement" t.statement)

/-- The statements about the session. -/
def sessionStatement (t : TreeReader) (name : String) (content : Json) : Option Statement := do
  match name, content with
  | "Use", content => return .useDatabase (← content.string?)
  | "Set", content => return .changeSettings (← list? t.setting content)
  | "Show", content => return .listing (← listing content)
  | "Describe", content => return .describe (← QualifiedName.decode? content)
  | "Explain", content => t.explain content
  | "Optimize", content => return .optimize (← optimize content)
  | "Begin", .null => return .begin
  | "Commit", .null => return .commit
  | "Rollback", .null => return .rollback
  | _, _ => none

def statementRule (t : TreeReader) (j : Json) : Option Statement := do
  match ← j.variant? with
  | ("Select", content) => return .select (← t.query content)
  | ("Insert", content) => return .insert (← t.insert content)
  | ("Update", content) => return .update (← t.update content)
  | ("Delete", content) => return .delete (← t.delete content)
  | ("CreateTable", content) => return .createTable (← t.createTable content)
  | ("CreateView", content) => return .createView (← t.createView content)
  | ("CreateIndex", content) => return .createIndex (← t.createIndex content)
  | ("CreateDatabase", content) => return .createDatabase (← t.createDatabase content)
  | ("AlterTable", content) => return .alterTable (← t.alterTable content)
  | ("Drop", content) => return .drop (← drop content)
  | ("Truncate", content) => return .truncate (← truncate content)
  | ("Rename", content) => return .rename (← rename content)
  | (name, content) => t.sessionStatement name content

/-- The reader whose parts are read by `t`. -/
def step (t : TreeReader) : TreeReader where
  expr := t.exprRule
  query := t.queryRule
  body := t.bodyRule
  dataType := t.dataTypeRule
  statement := t.statementRule

/-- The reader of trees with at most `count` trees inside one another. -/
def upTo : (count : Nat) → TreeReader
  | 0 => empty
  | count + 1 => step {
      expr j := (upTo count).expr j
      query j := (upTo count).query j
      body j := (upTo count).body j
      dataType j := (upTo count).dataType j
      statement j := (upTo count).statement j }

end TreeReader

/-- Reads a tree from a JSON value.  A tree inside another is a value inside the other's value, so
as many levels as the value has are enough. -/
def Json.read? {α : Type} (reader : TreeReader → Json → Option α) (j : Json) : Option α :=
  reader (.upTo j.depth) j

end CanonicalSql
