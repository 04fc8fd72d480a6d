import CanonicalSql.Json.Choice
import CanonicalSql.Json.Value

/-! The JSON form of trees.  A record is an object of all its fields, in the order in which they are declared;
an absent part is `null`.  A choice without content is the string of its name, and one with content
is an object with the name as its only key. -/

namespace CanonicalSql

namespace Json

/-- A choice with content. -/
def variant (name : String) (content : Json) : Json := .object [(name, content)]

/-- A string that may be absent. -/
def optionalString : Option String → Json
  | none => .null
  | some value => .string value

/-- A list of strings. -/
def strings (values : List String) : Json := .array (values.map .string)

/-- A part that may be absent. -/
def optional {α : Type} (encode : α → Json) : Option α → Json
  | none => .null
  | some value => encode value

end Json

/-! Names, constants and types. -/

def QualifiedName.encode (n : QualifiedName) : Json :=
  .object [("database", .optionalString n.database), ("name", .string n.name)]

def ColumnRef.encode (c : ColumnRef) : Json :=
  .object [("table", .optional QualifiedName.encode c.table), ("column", .string c.column)]

def Literal.encode : Literal → Json
  | .number t => .variant "Number" (.string t)
  | .string value => .variant "String" (.string value)
  | .boolean value => .variant "Boolean" (.bool value)
  | .null => .string "Null"

def Placeholder.encode : Placeholder → Json
  | .anonymous => .string "Anonymous"
  | .numbered n => .variant "Numbered" (.natural n.toNat)
  | .named n => .variant "Named" (.string n)
  | .dollar n => .variant "Dollar" (.string n)

mutual

def DataType.encode : DataType → Json
  | ⟨name, args⟩ =>
    .object [("name", .string name), ("args", .array (DataTypeArg.encodeAll args))]

def DataTypeArg.encode : DataTypeArg → Json
  | .number t => .variant "Number" (.string t)
  | .string value => .variant "String" (.string value)
  | .type type => .variant "Type" type.encode

def DataTypeArg.encodeAll : List DataTypeArg → List Json
  | [] => []
  | arg :: args => arg.encode :: DataTypeArg.encodeAll args

end

/-! Expressions and queries. -/

mutual

def Expr.encode : Expr → Json
  | .literal value => .variant "Literal" value.encode
  | .column column => .variant "Column" column.encode
  | .placeholder placeholder => .variant "Placeholder" placeholder.encode
  | .binary left op right =>
    .variant "BinaryOp" (.object
      [("left", left.encode), ("op", .string op.name), ("right", right.encode)])
  | .unary op operand =>
    .variant "UnaryOp" (.object [("op", .string op.name), ("expr", operand.encode)])
  | .between value low high negated =>
    .variant "Between" (.object
      [("expr", value.encode), ("low", low.encode), ("high", high.encode),
        ("negated", .bool negated)])
  | .member value set negated =>
    .variant "In" (.object
      [("expr", value.encode), ("set", set.encode), ("negated", .bool negated)])
  | .like value op pattern negated =>
    .variant "Like" (.object
      [("expr", value.encode), ("op", .string op.name), ("pattern", pattern.encode),
        ("negated", .bool negated)])
  | .isNull value negated =>
    .variant "IsNull" (.object [("expr", value.encode), ("negated", .bool negated)])
  | .cases operand arms otherwise =>
    .variant "Case" (.object
      [("operand", match operand with | none => .null | some e => e.encode),
        ("whens", .array (CaseArm.encodeAll arms)),
        ("else_expr", match otherwise with | none => .null | some e => e.encode)])
  | .cast value type =>
    .variant "Cast" (.object [("expr", value.encode), ("data_type", type.encode)])
  | .existence query => .variant "Exists" query.encode
  | .subquery query => .variant "Subquery" query.encode
  | .call call => .variant "Function" call.encode
  | .tuple items => .variant "Tuple" (.array (Expr.encodeAll items))
  | .array items => .variant "Array" (.array (Expr.encodeAll items))
  | .subscript base index =>
    .variant "Subscript" (.object [("expr", base.encode), ("index", index.encode)])
  | .interval value unit =>
    .variant "Interval" (.object [("value", value.encode), ("unit", .string unit)])

def Expr.encodeAll : List Expr → List Json
  | [] => []
  | e :: es => e.encode :: Expr.encodeAll es

def MemberSet.encode : MemberSet → Json
  | .list items => .variant "List" (.array (Expr.encodeAll items))
  | .query query => .variant "Subquery" query.encode

def CaseArm.encode : CaseArm → Json
  | ⟨condition, result⟩ => .object [("condition", condition.encode), ("result", result.encode)]

def CaseArm.encodeAll : List CaseArm → List Json
  | [] => []
  | arm :: arms => arm.encode :: CaseArm.encodeAll arms

def Call.encode : Call → Json
  | ⟨name, args, distinct, window⟩ =>
    .object
      [("name", .string name), ("args", args.encode), ("distinct", .bool distinct),
        ("over", match window with | none => .null | some window => window.encode)]

def CallArgs.encode : CallArgs → Json
  | .star => .string "Star"
  | .list items => .variant "List" (.array (Expr.encodeAll items))

def Window.encode : Window → Json
  | ⟨partitionBy, orderBy, frame⟩ =>
    .object
      [("partition_by", .array (Expr.encodeAll partitionBy)),
        ("order_by", .array (OrderItem.encodeAll orderBy)),
        ("frame", match frame with | none => .null | some frame => frame.encode)]

def Frame.encode : Frame → Json
  | ⟨unit, start, finish⟩ =>
    .object
      [("units", .string unit.name), ("start", start.encode),
        ("end", match finish with | none => .null | some finish => finish.encode)]

def FrameBound.encode : FrameBound → Json
  | .unboundedPreceding => .string "UnboundedPreceding"
  | .preceding offset => .variant "Preceding" offset.encode
  | .currentRow => .string "CurrentRow"
  | .following offset => .variant "Following" offset.encode
  | .unboundedFollowing => .string "UnboundedFollowing"

def OrderItem.encode : OrderItem → Json
  | ⟨expr, direction, nulls⟩ =>
    .object
      [("expr", expr.encode), ("direction", .optionalString (direction.map SortDirection.name)),
        ("nulls", .optionalString (nulls.map NullsOrder.name))]

def OrderItem.encodeAll : List OrderItem → List Json
  | [] => []
  | item :: items => item.encode :: OrderItem.encodeAll items

def Query.encode : Query → Json
  | ⟨tables, body, orderBy, limit, settings, format⟩ =>
    .object
      [("with", match tables with | none => .null | some tables => tables.encode),
        ("body", body.encode), ("order_by", .array (OrderItem.encodeAll orderBy)),
        ("limit", match limit with | none => .null | some limit => limit.encode),
        ("settings", .array (Setting.encodeAll settings)), ("format", .optionalString format)]

def QueryBody.encode : QueryBody → Json
  | .block block => .variant "Select" block.encode
  | .nested query => .variant "Nested" query.encode
  | .compound op quantifier left right =>
    .variant "Compound" (.object
      [("op", .string op.name), ("quantifier", .string quantifier.name), ("left", left.encode),
        ("right", right.encode)])

def WithClause.encode : WithClause → Json
  | ⟨recursive, tables⟩ =>
    .object [("recursive", .bool recursive), ("ctes", .array (CommonTable.encodeAll tables))]

def CommonTable.encode : CommonTable → Json
  | ⟨name, columns, query⟩ =>
    .object [("name", .string name), ("columns", .strings columns), ("query", query.encode)]

def CommonTable.encodeAll : List CommonTable → List Json
  | [] => []
  | table :: tables => table.encode :: CommonTable.encodeAll tables

def SelectBlock.encode : SelectBlock → Json
  | ⟨distinct, items, source, selection, groupBy, having⟩ =>
    .object
      [("distinct", .bool distinct), ("projection", .array (SelectItem.encodeAll items)),
        ("from", match source with | none => .null | some source => source.encode),
        ("selection", match selection with | none => .null | some e => e.encode),
        ("group_by", .array (Expr.encodeAll groupBy)),
        ("having", match having with | none => .null | some e => e.encode)]

def SelectItem.encode : SelectItem → Json
  | .wildcard => .string "Wildcard"
  | .tableWildcard table => .variant "QualifiedWildcard" table.encode
  | .expr expr asName =>
    .variant "Expr" (.object [("expr", expr.encode), ("alias", .optionalString asName)])

def SelectItem.encodeAll : List SelectItem → List Json
  | [] => []
  | item :: items => item.encode :: SelectItem.encodeAll items

def FromClause.encode : FromClause → Json
  | ⟨relation, joins⟩ =>
    .object [("relation", relation.encode), ("joins", .array (Join.encodeAll joins))]

def Relation.encode : Relation → Json
  | .table name asName =>
    .variant "Table" (.object [("name", name.encode), ("alias", .optionalString asName)])
  | .function name args asName =>
    .variant "Function" (.object
      [("name", .string name), ("args", .array (Expr.encodeAll args)),
        ("alias", .optionalString asName)])
  | .derived query asName =>
    .variant "Derived" (.object [("subquery", query.encode), ("alias", .optionalString asName)])

def Join.encode : Join → Json
  | ⟨kind, relation, constraint⟩ =>
    .object
      [("kind", .string kind.name), ("relation", relation.encode),
        ("constraint", match constraint with | none => .null | some c => c.encode)]

def Join.encodeAll : List Join → List Json
  | [] => []
  | join :: joins => join.encode :: Join.encodeAll joins

def JoinConstraint.encode : JoinConstraint → Json
  | .on condition => .variant "On" condition.encode
  | .using columns => .variant "Using" (.strings columns)

def Limit.encode : Limit → Json
  | ⟨count, offset⟩ =>
    .object
      [("limit", count.encode), ("offset", match offset with | none => .null | some e => e.encode)]

def Setting.encode : Setting → Json
  | ⟨name, value⟩ => .object [("name", .string name), ("value", value.encode)]

def Setting.encodeAll : List Setting → List Json
  | [] => []
  | setting :: settings => setting.encode :: Setting.encodeAll settings

end

/-! Statements. -/

def InsertSource.encode : InsertSource → Json
  | .values rows => .variant "Values" (.array (rows.map fun row => .array (Expr.encodeAll row)))
  | .query q => .variant "Select" q.encode

def Insert.encode (i : Insert) : Json :=
  .object
    [("table", i.table.encode), ("columns", .strings i.columns), ("source", i.source.encode)]

def Assignment.encode (a : Assignment) : Json :=
  .object [("column", .string a.column), ("value", a.value.encode)]

def Update.encode (u : Update) : Json :=
  .object
    [("table", u.table.encode), ("alias", .optionalString u.asName),
      ("assignments", .array (u.assignments.map Assignment.encode)),
      ("selection", .optional Expr.encode u.selection)]

def Delete.encode (d : Delete) : Json :=
  .object
    [("table", d.table.encode), ("cluster", .optionalString d.cluster),
      ("selection", .optional Expr.encode d.selection)]

def ForeignReference.encode (r : ForeignReference) : Json :=
  .object [("table", r.table.encode), ("columns", .strings r.columns)]

def ColumnOption.encode : ColumnOption → Json
  | .null => .string "Null"
  | .notNull => .string "NotNull"
  | .default value => .variant "Default" value.encode
  | .materialized value => .variant "Materialized" value.encode
  | .computed value => .variant "Alias" value.encode
  | .primaryKey => .string "PrimaryKey"
  | .unique => .string "Unique"
  | .check condition => .variant "Check" condition.encode
  | .comment c => .variant "Comment" (.string c)
  | .references target => .variant "References" target.encode

def ColumnDefinition.encode (c : ColumnDefinition) : Json :=
  .object
    [("name", .string c.name), ("data_type", .optional DataType.encode c.type),
      ("options", .array (c.options.map ColumnOption.encode))]

def ConstraintKind.encode : ConstraintKind → Json
  | .primaryKey columns => .variant "PrimaryKey" (.strings columns)
  | .unique columns => .variant "Unique" (.strings columns)
  | .check condition => .variant "Check" condition.encode
  | .foreignKey columns target =>
    .variant "ForeignKey" (.object [("columns", .strings columns), ("reference", target.encode)])

def TableConstraint.encode (c : TableConstraint) : Json :=
  .object [("name", .optionalString c.name), ("kind", c.kind.encode)]

def TableElement.encode : TableElement → Json
  | .column c => .variant "Column" c.encode
  | .constraint c => .variant "Constraint" c.encode

def Engine.encode (e : Engine) : Json :=
  .object
    [("name", .string e.name),
      ("args", .optional (fun args => .array (Expr.encodeAll args)) e.args)]

def CreateTable.encode (c : CreateTable) : Json :=
  .object
    [("or_replace", .bool c.orReplace), ("temporary", .bool c.temporary),
      ("if_not_exists", .bool c.ifNotExists), ("name", c.name.encode),
      ("cluster", .optionalString c.cluster),
      ("elements", .array (c.elements.map TableElement.encode)),
      ("engine", .optional Engine.encode c.engine),
      ("partition_by", .optional Expr.encode c.partitionBy),
      ("primary_key", .optional Expr.encode c.primaryKey),
      ("order_by", .optional Expr.encode c.orderBy),
      ("settings", .array (Setting.encodeAll c.settings)),
      ("comment", .optionalString c.comment), ("as_select", .optional Query.encode c.query)]

def CreateView.encode (c : CreateView) : Json :=
  .object
    [("or_replace", .bool c.orReplace), ("materialized", .bool c.materialized),
      ("if_not_exists", .bool c.ifNotExists), ("name", c.name.encode),
      ("cluster", .optionalString c.cluster), ("to", .optional QualifiedName.encode c.target),
      ("columns", .strings c.columns), ("query", c.query.encode)]

def IndexColumn.encode (c : IndexColumn) : Json :=
  .object
    [("expr", c.expr.encode), ("direction", .optionalString (c.direction.map SortDirection.name))]

def CreateIndex.encode (c : CreateIndex) : Json :=
  .object
    [("unique", .bool c.unique), ("if_not_exists", .bool c.ifNotExists), ("name", .string c.name),
      ("table", c.table.encode), ("columns", .array (c.columns.map IndexColumn.encode))]

def CreateDatabase.encode (c : CreateDatabase) : Json :=
  .object
    [("if_not_exists", .bool c.ifNotExists), ("name", .string c.name),
      ("cluster", .optionalString c.cluster), ("engine", .optional Engine.encode c.engine)]

def ColumnPlace.encode : ColumnPlace → Json
  | .first => .string "First"
  | .after column => .variant "After" (.string column)

def AlterAction.encode : AlterAction → Json
  | .addColumn ifNotExists column place =>
    .variant "AddColumn" (.object
      [("if_not_exists", .bool ifNotExists), ("column", column.encode),
        ("position", .optional ColumnPlace.encode place)])
  | .dropColumn ifExists name =>
    .variant "DropColumn" (.object [("if_exists", .bool ifExists), ("name", .string name)])
  | .modifyColumn ifExists column =>
    .variant "ModifyColumn" (.object [("if_exists", .bool ifExists), ("column", column.encode)])
  | .renameColumn ifExists source target =>
    .variant "RenameColumn" (.object
      [("if_exists", .bool ifExists), ("from", .string source), ("to", .string target)])
  | .commentColumn ifExists name comment =>
    .variant "CommentColumn" (.object
      [("if_exists", .bool ifExists), ("name", .string name), ("comment", .string comment)])
  | .addConstraint ifNotExists name check =>
    .variant "AddConstraint" (.object
      [("if_not_exists", .bool ifNotExists), ("name", .string name), ("check", check.encode)])
  | .dropConstraint ifExists name =>
    .variant "DropConstraint" (.object [("if_exists", .bool ifExists), ("name", .string name)])
  | .renameTable name => .variant "RenameTable" name.encode
  | .delete selection => .variant "Delete" selection.encode
  | .update assignments selection =>
    .variant "Update" (.object
      [("assignments", .array (assignments.map Assignment.encode)),
        ("selection", selection.encode)])

def AlterTable.encode (a : AlterTable) : Json :=
  .object
    [("name", a.name.encode), ("cluster", .optionalString a.cluster),
      ("actions", .array (a.actions.map AlterAction.encode))]

def Drop.encode (d : Drop) : Json :=
  .object
    [("object", .string d.object.name), ("if_exists", .bool d.ifExists),
      ("names", .array (d.names.map QualifiedName.encode)), ("cluster", .optionalString d.cluster)]

def Truncate.encode (t : Truncate) : Json :=
  .object
    [("if_exists", .bool t.ifExists), ("name", t.name.encode),
      ("cluster", .optionalString t.cluster)]

def Renaming.encode (r : Renaming) : Json :=
  .object [("from", r.source.encode), ("to", r.target.encode)]

def Rename.encode (r : Rename) : Json :=
  .object
    [("pairs", .array (r.pairs.map Renaming.encode)), ("cluster", .optionalString r.cluster)]

def Listing.encode : Listing → Json
  | .databases => .string "Databases"
  | .tables database pattern =>
    .variant "Tables" (.object
      [("from", .optionalString database), ("like", .optionalString pattern)])
  | .createTable name => .variant "CreateTable" name.encode

def Optimize.encode (o : Optimize) : Json :=
  .object
    [("table", o.table.encode), ("cluster", .optionalString o.cluster),
      ("final_merge", .bool o.final)]

def Statement.encode : Statement → Json
  | .select q => .variant "Select" q.encode
  | .insert i => .variant "Insert" i.encode
  | .update u => .variant "Update" u.encode
  | .delete d => .variant "Delete" d.encode
  | .createTable c => .variant "CreateTable" c.encode
  | .createView c => .variant "CreateView" c.encode
  | .createIndex c => .variant "CreateIndex" c.encode
  | .createDatabase c => .variant "CreateDatabase" c.encode
  | .alterTable a => .variant "AlterTable" a.encode
  | .drop d => .variant "Drop" d.encode
  | .truncate t => .variant "Truncate" t.encode
  | .rename r => .variant "Rename" r.encode
  | .useDatabase name => .variant "Use" (.string name)
  | .changeSettings settings => .variant "Set" (.array (Setting.encodeAll settings))
  | .listing l => .variant "Show" l.encode
  | .describe table => .variant "Describe" table.encode
  | .explain stage statement =>
    .variant "Explain" (.object
      [("kind", .optionalString (stage.map ExplainStage.name)),
        ("statement", statement.encode)])
  | .optimize o => .variant "Optimize" o.encode
  | .begin => .string "Begin"
  | .commit => .string "Commit"
  | .rollback => .string "Rollback"

end CanonicalSql
