import CanonicalSql.Tree.Statement

/-! The types that a tree holds, those of columns and those of casts, wherever they are in it, and how
deep types are nested in their arguments. -/

namespace CanonicalSql

/-! ### Types in types -/

mutual

/-- The number of types around the innermost argument of a type. -/
def DataType.nesting : DataType → Nat
  | ⟨_, args⟩ => DataTypeArg.allNesting args

def DataTypeArg.nesting : DataTypeArg → Nat
  | .number _ | .string _ => 0
  | .type type => type.nesting + 1

def DataTypeArg.allNesting : List DataTypeArg → Nat
  | [] => 0
  | arg :: args => max arg.nesting (DataTypeArg.allNesting args)

end

/-! ### Types in expressions and queries -/

/-- The types in what an option holds. -/
def typesIn {α : Type} (types : α → List DataType) : Option α → List DataType
  | none => []
  | some a => types a

mutual

def Expr.types : Expr → List DataType
  | .literal _ | .column _ | .placeholder _ => []
  | .binary left _ right => left.types ++ right.types
  | .unary _ operand => operand.types
  | .between value low high _ => value.types ++ low.types ++ high.types
  | .member value set _ => value.types ++ set.types
  | .like value _ pattern _ => value.types ++ pattern.types
  | .isNull value _ => value.types
  | .cases operand arms otherwise =>
    (match operand with | none => [] | some e => e.types) ++ CaseArm.allTypes arms ++
      (match otherwise with | none => [] | some e => e.types)
  | .cast value type => value.types ++ [type]
  | .existence query => query.types
  | .subquery query => query.types
  | .call call => call.types
  | .tuple items => Expr.allTypes items
  | .array items => Expr.allTypes items
  | .subscript base index => base.types ++ index.types
  | .interval value _ => value.types

def Expr.allTypes : List Expr → List DataType
  | [] => []
  | e :: es => e.types ++ Expr.allTypes es

def MemberSet.types : MemberSet → List DataType
  | .list items => Expr.allTypes items
  | .query query => query.types

def CaseArm.types : CaseArm → List DataType
  | ⟨condition, result⟩ => condition.types ++ result.types

def CaseArm.allTypes : List CaseArm → List DataType
  | [] => []
  | arm :: arms => arm.types ++ CaseArm.allTypes arms

def Call.types : Call → List DataType
  | ⟨_, args, _, window⟩ => args.types ++ (match window with | none => [] | some w => w.types)

def CallArgs.types : CallArgs → List DataType
  | .star => []
  | .list items => Expr.allTypes items

def Window.types : Window → List DataType
  | ⟨partitionBy, orderBy, frame⟩ =>
    Expr.allTypes partitionBy ++ OrderItem.allTypes orderBy ++
      (match frame with | none => [] | some frame => frame.types)

def Frame.types : Frame → List DataType
  | ⟨_, start, finish⟩ => start.types ++ (match finish with | none => [] | some b => b.types)

def FrameBound.types : FrameBound → List DataType
  | .preceding offset | .following offset => offset.types
  | .unboundedPreceding | .currentRow | .unboundedFollowing => []

def OrderItem.types : OrderItem → List DataType
  | ⟨expr, _, _⟩ => expr.types

def OrderItem.allTypes : List OrderItem → List DataType
  | [] => []
  | item :: items => item.types ++ OrderItem.allTypes items

def Query.types : Query → List DataType
  | ⟨tables, body, orderBy, limit, settings, _⟩ =>
    (match tables with | none => [] | some tables => tables.types) ++ body.types ++
      OrderItem.allTypes orderBy ++ (match limit with | none => [] | some limit => limit.types) ++
      Setting.allTypes settings

def QueryBody.types : QueryBody → List DataType
  | .block block => block.types
  | .nested query => query.types
  | .compound _ _ left right => left.types ++ right.types

def WithClause.types : WithClause → List DataType
  | ⟨_, tables⟩ => CommonTable.allTypes tables

def CommonTable.types : CommonTable → List DataType
  | ⟨_, _, query⟩ => query.types

def CommonTable.allTypes : List CommonTable → List DataType
  | [] => []
  | table :: tables => table.types ++ CommonTable.allTypes tables

def SelectBlock.types : SelectBlock → List DataType
  | ⟨_, items, source, selection, groupBy, having⟩ =>
    SelectItem.allTypes items ++ (match source with | none => [] | some source => source.types) ++
      (match selection with | none => [] | some e => e.types) ++ Expr.allTypes groupBy ++
      (match having with | none => [] | some e => e.types)

def SelectItem.types : SelectItem → List DataType
  | .wildcard | .tableWildcard _ => []
  | .expr expr _ => expr.types

def SelectItem.allTypes : List SelectItem → List DataType
  | [] => []
  | item :: items => item.types ++ SelectItem.allTypes items

def FromClause.types : FromClause → List DataType
  | ⟨relation, joins⟩ => relation.types ++ Join.allTypes joins

def Relation.types : Relation → List DataType
  | .table _ _ => []
  | .function _ args _ => Expr.allTypes args
  | .derived query _ => query.types

def Join.types : Join → List DataType
  | ⟨_, relation, constraint⟩ =>
    relation.types ++ (match constraint with | none => [] | some c => c.types)

def Join.allTypes : List Join → List DataType
  | [] => []
  | join :: joins => join.types ++ Join.allTypes joins

def JoinConstraint.types : JoinConstraint → List DataType
  | .on condition => condition.types
  | .using _ => []

def Limit.types : Limit → List DataType
  | ⟨count, offset⟩ => count.types ++ (match offset with | none => [] | some e => e.types)

def Setting.types : Setting → List DataType
  | ⟨_, value⟩ => value.types

def Setting.allTypes : List Setting → List DataType
  | [] => []
  | setting :: settings => setting.types ++ Setting.allTypes settings

end

/-! ### Types in statements -/

def InsertSource.types : InsertSource → List DataType
  | .values rows => rows.flatMap (·.flatMap Expr.types)
  | .query q => q.types

def Assignment.types (a : Assignment) : List DataType := a.value.types

def Update.types (u : Update) : List DataType :=
  u.assignments.flatMap Assignment.types ++ typesIn Expr.types u.selection

def ColumnOption.types : ColumnOption → List DataType
  | .default value | .materialized value | .computed value | .check value => value.types
  | .null | .notNull | .primaryKey | .unique | .comment _ | .references _ => []

def ColumnDefinition.types (c : ColumnDefinition) : List DataType :=
  c.type.toList ++ c.options.flatMap ColumnOption.types

def TableElement.types : TableElement → List DataType
  | .column c => c.types
  | .constraint ⟨_, .check condition⟩ => condition.types
  | .constraint _ => []

def Engine.types (e : Engine) : List DataType := typesIn (·.flatMap Expr.types) e.args

def CreateTable.types (c : CreateTable) : List DataType :=
  c.elements.flatMap TableElement.types ++ typesIn Engine.types c.engine ++
    typesIn Expr.types c.partitionBy ++ typesIn Expr.types c.primaryKey ++
    typesIn Expr.types c.orderBy ++ c.settings.flatMap Setting.types ++ typesIn Query.types c.query

def AlterAction.types : AlterAction → List DataType
  | .addColumn _ column _ | .modifyColumn _ column => column.types
  | .addConstraint _ _ check => check.types
  | .delete selection => selection.types
  | .update assignments selection => assignments.flatMap Assignment.types ++ selection.types
  | .dropColumn _ _ | .renameColumn _ _ _ | .commentColumn _ _ _ | .dropConstraint _ _
  | .renameTable _ => []

/-- The types in a statement. -/
def Statement.types : Statement → List DataType
  | .select q => q.types
  | .insert i => i.source.types
  | .update u => u.types
  | .delete d => typesIn Expr.types d.selection
  | .createTable c => c.types
  | .createView c => c.query.types
  | .createIndex c => c.columns.flatMap fun column => column.expr.types
  | .createDatabase c => typesIn Engine.types c.engine
  | .alterTable a => a.actions.flatMap AlterAction.types
  | .changeSettings settings => settings.flatMap Setting.types
  | .explain _ statement => statement.types
  | .drop _ | .truncate _ | .rename _ | .useDatabase _ | .listing _ | .describe _ | .optimize _
  | .begin | .commit | .rollback => []

end CanonicalSql
