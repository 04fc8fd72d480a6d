import CanonicalSql.Proofs.Lexing.Piece

/-! The data of a tree: the texts and parameters that it holds, in their order in the tree.  Everything
else that is printed are words and signs of the grammar. -/

namespace CanonicalSql

/-- A text or a parameter that a tree holds. -/
inductive Datum where
  /-- The value of a string literal, a comment or a pattern. -/
  | string (value : String)
  /-- The name of a table, a column, a type or anything else that is not listed here. -/
  | name (name : String)
  | functionName (name : String)
  /-- The name of an engine or a format. -/
  | label (name : String)
  | unit (unit : String)
  | number (text : String)
  | placeholder (placeholder : Placeholder)
  deriving DecidableEq

/-- Whether a datum that is printed as it is has the right form.  Strings and names are quoted, so they
can be anything. -/
def Datum.Legible : Datum → Prop
  | .unit u => LexesAs u (.ident u)
  | .number t => LexesAs t (.number t)
  | .placeholder p => p.Legible
  | .string _ | .name _ | .functionName _ | .label _ => True

/-- Whether a datum can be part of a tree that was read: as `Datum.Legible`, and units are in
capitals. -/
def Datum.Proper : Datum → Prop
  | .unit u => LexesAs u (.ident u) ∧ capitals u = u
  | d => d.Legible

/-- The data in what an option holds. -/
def dataIn {α : Type} (data : α → List Datum) : Option α → List Datum
  | none => []
  | some a => data a

/-- A name that may be missing. -/
def nameData : Option String → List Datum := dataIn fun n => [.name n]

/-- Names one after the other. -/
def namesData (names : List String) : List Datum := names.map .name

def QualifiedName.data (n : QualifiedName) : List Datum := nameData n.database ++ [.name n.name]

def ColumnRef.data (c : ColumnRef) : List Datum :=
  dataIn QualifiedName.data c.table ++ [.name c.column]

def Literal.data : Literal → List Datum
  | .number t => [.number t]
  | .string value => [.string value]
  | .boolean _ | .null => []

/-! ### Types, expressions and queries -/

mutual

def DataType.data : DataType → List Datum
  | ⟨name, args⟩ => .name name :: DataTypeArg.allData args

def DataTypeArg.data : DataTypeArg → List Datum
  | .number t => [.number t]
  | .string value => [.string value]
  | .type type => type.data

def DataTypeArg.allData : List DataTypeArg → List Datum
  | [] => []
  | arg :: args => arg.data ++ DataTypeArg.allData args

end

mutual

def Expr.data : Expr → List Datum
  | .literal value => value.data
  | .column column => column.data
  | .placeholder p => [.placeholder p]
  | .binary left _ right => left.data ++ right.data
  | .unary _ operand => operand.data
  | .between value low high _ => value.data ++ low.data ++ high.data
  | .member value set _ => value.data ++ set.data
  | .like value _ pattern _ => value.data ++ pattern.data
  | .isNull value _ => value.data
  | .cases operand arms otherwise =>
    (match operand with | none => [] | some e => e.data) ++ CaseArm.allData arms ++
      (match otherwise with | none => [] | some e => e.data)
  | .cast value type => value.data ++ type.data
  | .existence query => query.data
  | .subquery query => query.data
  | .call call => call.data
  | .tuple items => Expr.allData items
  | .array items => Expr.allData items
  | .subscript base index => base.data ++ index.data
  | .interval value unit => value.data ++ [.unit unit]

def Expr.allData : List Expr → List Datum
  | [] => []
  | e :: es => e.data ++ Expr.allData es

def MemberSet.data : MemberSet → List Datum
  | .list items => Expr.allData items
  | .query query => query.data

def CaseArm.data : CaseArm → List Datum
  | ⟨condition, result⟩ => condition.data ++ result.data

def CaseArm.allData : List CaseArm → List Datum
  | [] => []
  | arm :: arms => arm.data ++ CaseArm.allData arms

def Call.data : Call → List Datum
  | ⟨function, args, _, window⟩ =>
    .functionName function :: args.data ++ (match window with | none => [] | some w => w.data)

def CallArgs.data : CallArgs → List Datum
  | .star => []
  | .list items => Expr.allData items

def Window.data : Window → List Datum
  | ⟨partitionBy, orderBy, frame⟩ =>
    Expr.allData partitionBy ++ OrderItem.allData orderBy ++
      (match frame with | none => [] | some frame => frame.data)

def Frame.data : Frame → List Datum
  | ⟨_, start, finish⟩ => start.data ++ (match finish with | none => [] | some b => b.data)

def FrameBound.data : FrameBound → List Datum
  | .preceding offset | .following offset => offset.data
  | .unboundedPreceding | .currentRow | .unboundedFollowing => []

def OrderItem.data : OrderItem → List Datum
  | ⟨expr, _, _⟩ => expr.data

def OrderItem.allData : List OrderItem → List Datum
  | [] => []
  | item :: items => item.data ++ OrderItem.allData items

def Query.data : Query → List Datum
  | ⟨tables, body, orderBy, limit, settings, format⟩ =>
    (match tables with | none => [] | some tables => tables.data) ++ body.data ++
      OrderItem.allData orderBy ++ (match limit with | none => [] | some limit => limit.data) ++
      Setting.allData settings ++ dataIn (fun f => [.label f]) format

def QueryBody.data : QueryBody → List Datum
  | .block block => block.data
  | .nested query => query.data
  | .compound _ _ left right => left.data ++ right.data

def WithClause.data : WithClause → List Datum
  | ⟨_, tables⟩ => CommonTable.allData tables

def CommonTable.data : CommonTable → List Datum
  | ⟨table, columns, query⟩ => .name table :: namesData columns ++ query.data

def CommonTable.allData : List CommonTable → List Datum
  | [] => []
  | table :: tables => table.data ++ CommonTable.allData tables

def SelectBlock.data : SelectBlock → List Datum
  | ⟨_, items, source, selection, groupBy, having⟩ =>
    SelectItem.allData items ++ (match source with | none => [] | some source => source.data) ++
      (match selection with | none => [] | some e => e.data) ++ Expr.allData groupBy ++
      (match having with | none => [] | some e => e.data)

def SelectItem.data : SelectItem → List Datum
  | .wildcard => []
  | .tableWildcard table => table.data
  | .expr expr asName => expr.data ++ nameData asName

def SelectItem.allData : List SelectItem → List Datum
  | [] => []
  | item :: items => item.data ++ SelectItem.allData items

def FromClause.data : FromClause → List Datum
  | ⟨relation, joins⟩ => relation.data ++ Join.allData joins

def Relation.data : Relation → List Datum
  | .table table asName => table.data ++ nameData asName
  | .function function args asName =>
    .name function :: Expr.allData args ++ nameData asName
  | .derived query asName => query.data ++ nameData asName

def Join.data : Join → List Datum
  | ⟨_, relation, constraint⟩ =>
    relation.data ++ (match constraint with | none => [] | some c => c.data)

def Join.allData : List Join → List Datum
  | [] => []
  | join :: joins => join.data ++ Join.allData joins

def JoinConstraint.data : JoinConstraint → List Datum
  | .on condition => condition.data
  | .using columns => namesData columns

def Limit.data : Limit → List Datum
  | ⟨count, offset⟩ => count.data ++ (match offset with | none => [] | some e => e.data)

def Setting.data : Setting → List Datum
  | ⟨setting, value⟩ => .name setting :: value.data

def Setting.allData : List Setting → List Datum
  | [] => []
  | setting :: settings => setting.data ++ Setting.allData settings

end

/-! What may be missing has data only where it is there. -/

theorem Expr.data_cases (operand : Option Expr) (arms : List CaseArm) (otherwise : Option Expr) :
    (Expr.cases operand arms otherwise).data =
      dataIn Expr.data operand ++ CaseArm.allData arms ++ dataIn Expr.data otherwise := by
  cases operand <;> cases otherwise <;> rfl

theorem SelectBlock.data_eq (distinct : Bool) (items : List SelectItem)
    (source : Option FromClause) (selection : Option Expr) (groupBy : List Expr)
    (having : Option Expr) :
    SelectBlock.data ⟨distinct, items, source, selection, groupBy, having⟩ =
      SelectItem.allData items ++ dataIn FromClause.data source ++ dataIn Expr.data selection ++
        Expr.allData groupBy ++ dataIn Expr.data having := by
  cases source <;> cases selection <;> cases having <;> rfl

theorem Query.data_eq (tables : Option WithClause) (body : QueryBody) (orderBy : List OrderItem)
    (limit : Option Limit) (settings : List Setting) (format : Option String) :
    Query.data ⟨tables, body, orderBy, limit, settings, format⟩ =
      dataIn WithClause.data tables ++ body.data ++ OrderItem.allData orderBy ++
        dataIn Limit.data limit ++ Setting.allData settings ++
          dataIn (fun f => [.label f]) format := by
  cases tables <;> cases limit <;> rfl

/-! ### Statements -/

def InsertSource.data : InsertSource → List Datum
  | .values rows => rows.flatMap Expr.allData
  | .query q => q.data

def Insert.data (i : Insert) : List Datum :=
  i.table.data ++ namesData i.columns ++ i.source.data

def Assignment.data (a : Assignment) : List Datum := .name a.column :: a.value.data

def Update.data (u : Update) : List Datum :=
  u.table.data ++ nameData u.asName ++ u.assignments.flatMap Assignment.data ++
    dataIn Expr.data u.selection

def Delete.data (d : Delete) : List Datum :=
  d.table.data ++ nameData d.cluster ++ dataIn Expr.data d.selection

def ForeignReference.data (r : ForeignReference) : List Datum :=
  r.table.data ++ namesData r.columns

def ColumnOption.data : ColumnOption → List Datum
  | .default value | .materialized value | .computed value | .check value => value.data
  | .comment text => [.string text]
  | .references target => target.data
  | .null | .notNull | .primaryKey | .unique => []

def ColumnDefinition.data (c : ColumnDefinition) : List Datum :=
  .name c.name :: dataIn DataType.data c.type ++ c.options.flatMap ColumnOption.data

def ConstraintKind.data : ConstraintKind → List Datum
  | .primaryKey columns | .unique columns => namesData columns
  | .check condition => condition.data
  | .foreignKey columns target => namesData columns ++ target.data

def TableElement.data : TableElement → List Datum
  | .column c => c.data
  | .constraint c => nameData c.name ++ c.kind.data

def Engine.data (e : Engine) : List Datum := .label e.name :: dataIn Expr.allData e.args

def CreateTable.data (c : CreateTable) : List Datum :=
  c.name.data ++ nameData c.cluster ++ c.elements.flatMap TableElement.data ++
    dataIn Engine.data c.engine ++ dataIn Expr.data c.partitionBy ++
    dataIn Expr.data c.primaryKey ++ dataIn Expr.data c.orderBy ++ Setting.allData c.settings ++
    dataIn (fun text => [.string text]) c.comment ++ dataIn Query.data c.query

def CreateView.data (c : CreateView) : List Datum :=
  c.name.data ++ nameData c.cluster ++ dataIn QualifiedName.data c.target ++
    namesData c.columns ++ c.query.data

def CreateIndex.data (c : CreateIndex) : List Datum :=
  .name c.name :: c.table.data ++ c.columns.flatMap fun column => column.expr.data

def CreateDatabase.data (c : CreateDatabase) : List Datum :=
  .name c.name :: nameData c.cluster ++ dataIn Engine.data c.engine

def ColumnPlace.data : ColumnPlace → List Datum
  | .first => []
  | .after column => [.name column]

def AlterAction.data : AlterAction → List Datum
  | .addColumn _ column place => column.data ++ dataIn ColumnPlace.data place
  | .modifyColumn _ column => column.data
  | .dropColumn _ name | .dropConstraint _ name => [.name name]
  | .renameColumn _ source target => [.name source, .name target]
  | .commentColumn _ name comment => [.name name, .string comment]
  | .addConstraint _ name check => .name name :: check.data
  | .renameTable name => name.data
  | .delete selection => selection.data
  | .update assignments selection => assignments.flatMap Assignment.data ++ selection.data

def AlterTable.data (a : AlterTable) : List Datum :=
  a.name.data ++ nameData a.cluster ++ a.actions.flatMap AlterAction.data

def Rename.data (r : Rename) : List Datum :=
  r.pairs.flatMap (fun pair => pair.source.data ++ pair.target.data) ++ nameData r.cluster

def Listing.data : Listing → List Datum
  | .databases => []
  | .tables database pattern => nameData database ++ dataIn (fun value => [.string value]) pattern
  | .createTable name => name.data

def Statement.data : Statement → List Datum
  | .select q => q.data
  | .insert i => i.data
  | .update u => u.data
  | .delete d => d.data
  | .createTable c => c.data
  | .createView c => c.data
  | .createIndex c => c.data
  | .createDatabase c => c.data
  | .alterTable a => a.data
  | .drop d => d.names.flatMap QualifiedName.data ++ nameData d.cluster
  | .truncate t => t.name.data ++ nameData t.cluster
  | .rename r => r.data
  | .useDatabase name => [.name name]
  | .changeSettings settings => Setting.allData settings
  | .listing l => l.data
  | .describe table => table.data
  | .explain _ statement => statement.data
  | .optimize o => o.table.data ++ nameData o.cluster
  | .begin | .commit | .rollback => []

end CanonicalSql
