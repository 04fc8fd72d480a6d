import CanonicalSql.Proofs.Lexing.Text

/-! Trees that their text stands for.  The types of trees allow more than the grammar does: lists
that must not be empty, joins without a condition, numbers that are no numbers.  A tree is well formed
if it has the shape that the grammar gives it and its numbers, units and parameters can be read. -/

namespace CanonicalSql

/-- Whether a constant can be read back: a number has to be one. -/
def Literal.WellFormed : Literal → Prop
  | .number t => LexesAs t (.number t)
  | .string _ | .boolean _ | .null => True

mutual

/-- Whether the numbers among the arguments of a type are numbers. -/
def DataType.WellFormed : DataType → Prop
  | ⟨_, args⟩ => DataTypeArg.AllWellFormed args

/-- Whether an argument of a type is well formed. -/
def DataTypeArg.WellFormed : DataTypeArg → Prop
  | .number t => LexesAs t (.number t)
  | .string _ => True
  | .type type => type.WellFormed

/-- Whether all arguments are well formed. -/
def DataTypeArg.AllWellFormed : List DataTypeArg → Prop
  | [] => True
  | arg :: args => arg.WellFormed ∧ DataTypeArg.AllWellFormed args

end

/-- Whether the first word of the body is `SELECT` and no parenthesis. -/
def QueryBody.startsBare : QueryBody → Bool
  | .block _ => true
  | .nested _ => false
  | .compound _ _ left _ => left.startsBare

/-- Whether the first word of the query is `SELECT` or `WITH` and no parenthesis. -/
def Query.startsBare (q : Query) : Bool := q.tables.isSome || q.body.startsBare

/-- Whether the body starts with a parenthesis and a query that starts bare. -/
def QueryBody.opensBare : QueryBody → Bool
  | .block _ => false
  | .nested q => q.startsBare
  | .compound _ _ left _ => left.opensBare

/-- Whether the query starts with a parenthesis and a query that starts bare. -/
def Query.opensBare (q : Query) : Bool := q.tables.isNone && q.body.opensBare

/-- Whether joins of this kind have a condition. -/
def JoinKind.takesConstraint : JoinKind → Bool
  | .comma | .cross => false
  | .inner | .left | .right | .full => true

mutual

/-- Whether an expression has the shape of an expression of the grammar. -/
def Expr.WellFormed : Expr → Prop
  | .literal value => value.WellFormed
  | .column _ => True
  | .placeholder p => p.Legible
  | .binary left _ right => left.WellFormed ∧ right.WellFormed
  | .unary _ operand => operand.WellFormed
  | .between value low high _ => value.WellFormed ∧ low.WellFormed ∧ high.WellFormed
  | .member value set _ => value.WellFormed ∧ set.WellFormed
  | .like value _ pattern _ => value.WellFormed ∧ pattern.WellFormed
  | .isNull value _ => value.WellFormed
  | .cases operand arms otherwise =>
    (match operand with | none => True | some e => e.WellFormed) ∧
      arms ≠ [] ∧ CaseArm.AllWellFormed arms ∧
      (match otherwise with | none => True | some e => e.WellFormed)
  | .cast value type => value.WellFormed ∧ type.WellFormed
  | .existence query => query.WellFormed
  | .subquery query => query.WellFormed ∧ query.startsBare = true
  | .call call => call.WellFormed
  | .tuple items => 2 ≤ items.length ∧ Expr.AllWellFormed items
  | .array items => Expr.AllWellFormed items
  | .subscript base index => base.WellFormed ∧ index.WellFormed
  | .interval value unit =>
    value.WellFormed ∧ LexesAs unit (.ident unit) ∧ capitals unit = unit

/-- Whether all expressions are well formed. -/
def Expr.AllWellFormed : List Expr → Prop
  | [] => True
  | e :: es => e.WellFormed ∧ Expr.AllWellFormed es

/-- Whether the right side of `IN` is well formed. -/
def MemberSet.WellFormed : MemberSet → Prop
  | .list items => items ≠ [] ∧ Expr.AllWellFormed items
  | .query query => query.WellFormed ∧ query.startsBare = true

/-- Whether an arm of a case distinction is well formed. -/
def CaseArm.WellFormed : CaseArm → Prop
  | ⟨condition, result⟩ => condition.WellFormed ∧ result.WellFormed

/-- Whether all arms are well formed. -/
def CaseArm.AllWellFormed : List CaseArm → Prop
  | [] => True
  | arm :: arms => arm.WellFormed ∧ CaseArm.AllWellFormed arms

/-- Whether a call is well formed.  What is distinct are its arguments, so there have to be some. -/
def Call.WellFormed : Call → Prop
  | ⟨_, args, distinct, window⟩ =>
    args.WellFormed distinct ∧ (match window with | none => True | some window => window.WellFormed)

/-- Whether the arguments of a call, `distinct` or not, are well formed. -/
def CallArgs.WellFormed : CallArgs → (distinct : Bool) → Prop
  | .star, distinct => distinct = false
  | .list items, distinct => (distinct = true → items ≠ []) ∧ Expr.AllWellFormed items

/-- Whether a window is well formed. -/
def Window.WellFormed : Window → Prop
  | ⟨partitionBy, orderBy, frame⟩ =>
    Expr.AllWellFormed partitionBy ∧ OrderItem.AllWellFormed orderBy ∧
      (match frame with | none => True | some frame => frame.WellFormed)

/-- Whether a frame is well formed. -/
def Frame.WellFormed : Frame → Prop
  | ⟨_, start, finish⟩ =>
    start.WellFormed ∧ (match finish with | none => True | some finish => finish.WellFormed)

/-- Whether the bound of a frame is well formed. -/
def FrameBound.WellFormed : FrameBound → Prop
  | .preceding offset | .following offset => offset.WellFormed
  | .unboundedPreceding | .currentRow | .unboundedFollowing => True

/-- Whether a term of a sort order is well formed. -/
def OrderItem.WellFormed : OrderItem → Prop
  | ⟨expr, _, _⟩ => expr.WellFormed

/-- Whether all terms of a sort order are well formed. -/
def OrderItem.AllWellFormed : List OrderItem → Prop
  | [] => True
  | item :: items => item.WellFormed ∧ OrderItem.AllWellFormed items

/-- Whether a query is well formed. -/
def Query.WellFormed : Query → Prop
  | ⟨tables, body, orderBy, limit, settings, _⟩ =>
    (match tables with | none => True | some tables => tables.WellFormed) ∧ body.WellFormed ∧
      OrderItem.AllWellFormed orderBy ∧
      (match limit with | none => True | some limit => limit.WellFormed) ∧
      Setting.AllWellFormed settings

/-- Whether the body of a query is well formed.  Where parentheses group set operations, they are
part of the tree, so the levels of the operations agree with their places. -/
def QueryBody.WellFormed : QueryBody → Prop
  | .block block => block.WellFormed
  | .nested query => query.WellFormed
  | .compound op _ left right =>
    left.WellFormed ∧ right.WellFormed ∧ op.precedence ≤ left.precedence ∧
      op.precedence < right.precedence

/-- Whether the named queries in front of a query are well formed. -/
def WithClause.WellFormed : WithClause → Prop
  | ⟨_, tables⟩ => tables ≠ [] ∧ CommonTable.AllWellFormed tables

/-- Whether a named query is well formed. -/
def CommonTable.WellFormed : CommonTable → Prop
  | ⟨_, _, query⟩ => query.WellFormed

/-- Whether all named queries are well formed. -/
def CommonTable.AllWellFormed : List CommonTable → Prop
  | [] => True
  | table :: tables => table.WellFormed ∧ CommonTable.AllWellFormed tables

/-- Whether a single `SELECT` is well formed. -/
def SelectBlock.WellFormed : SelectBlock → Prop
  | ⟨_, items, source, selection, groupBy, having⟩ =>
    items ≠ [] ∧ SelectItem.AllWellFormed items ∧
      (match source with | none => True | some source => source.WellFormed) ∧
      (match selection with | none => True | some e => e.WellFormed) ∧
      Expr.AllWellFormed groupBy ∧
      (match having with | none => True | some e => e.WellFormed)

/-- Whether a column of the result is well formed. -/
def SelectItem.WellFormed : SelectItem → Prop
  | .wildcard | .tableWildcard _ => True
  | .expr expr _ => expr.WellFormed

/-- Whether all columns of the result are well formed. -/
def SelectItem.AllWellFormed : List SelectItem → Prop
  | [] => True
  | item :: items => item.WellFormed ∧ SelectItem.AllWellFormed items

/-- Whether a relation and those joined to it are well formed. -/
def FromClause.WellFormed : FromClause → Prop
  | ⟨relation, joins⟩ => relation.WellFormed ∧ Join.AllWellFormed joins

/-- Whether a relation is well formed. -/
def Relation.WellFormed : Relation → Prop
  | .table _ _ => True
  | .function _ args _ => Expr.AllWellFormed args
  | .derived query _ => query.WellFormed

/-- Whether a join is well formed: it has a condition if joins of its kind have one. -/
def Join.WellFormed : Join → Prop
  | ⟨kind, relation, constraint⟩ =>
    relation.WellFormed ∧ kind.takesConstraint = constraint.isSome ∧
      (match constraint with | none => True | some constraint => constraint.WellFormed)

/-- Whether all joins are well formed. -/
def Join.AllWellFormed : List Join → Prop
  | [] => True
  | join :: joins => join.WellFormed ∧ Join.AllWellFormed joins

/-- Whether the condition of a join is well formed. -/
def JoinConstraint.WellFormed : JoinConstraint → Prop
  | .on condition => condition.WellFormed
  | .using columns => columns ≠ []

/-- Whether a limit is well formed. -/
def Limit.WellFormed : Limit → Prop
  | ⟨count, offset⟩ =>
    count.WellFormed ∧ (match offset with | none => True | some e => e.WellFormed)

/-- Whether a setting is well formed. -/
def Setting.WellFormed : Setting → Prop
  | ⟨_, value⟩ => value.WellFormed

/-- Whether all settings are well formed. -/
def Setting.AllWellFormed : List Setting → Prop
  | [] => True
  | setting :: settings => setting.WellFormed ∧ Setting.AllWellFormed settings

end

/-! The tests of lists ask the same of every item. -/

theorem DataTypeArg.allWellFormed_iff {args : List DataTypeArg} :
    DataTypeArg.AllWellFormed args ↔ ∀ arg ∈ args, arg.WellFormed := by
  induction args with
  | nil => simp [DataTypeArg.AllWellFormed]
  | cons arg args ih => simp [DataTypeArg.AllWellFormed, ih]

theorem Expr.allWellFormed_iff {es : List Expr} :
    Expr.AllWellFormed es ↔ ∀ e ∈ es, e.WellFormed := by
  induction es with
  | nil => simp [Expr.AllWellFormed]
  | cons e es ih => simp [Expr.AllWellFormed, ih]

theorem CaseArm.allWellFormed_iff {arms : List CaseArm} :
    CaseArm.AllWellFormed arms ↔ ∀ arm ∈ arms, arm.WellFormed := by
  induction arms with
  | nil => simp [CaseArm.AllWellFormed]
  | cons arm arms ih => simp [CaseArm.AllWellFormed, ih]

theorem OrderItem.allWellFormed_iff {items : List OrderItem} :
    OrderItem.AllWellFormed items ↔ ∀ item ∈ items, item.WellFormed := by
  induction items with
  | nil => simp [OrderItem.AllWellFormed]
  | cons item items ih => simp [OrderItem.AllWellFormed, ih]

theorem CommonTable.allWellFormed_iff {tables : List CommonTable} :
    CommonTable.AllWellFormed tables ↔ ∀ table ∈ tables, table.WellFormed := by
  induction tables with
  | nil => simp [CommonTable.AllWellFormed]
  | cons table tables ih => simp [CommonTable.AllWellFormed, ih]

theorem SelectItem.allWellFormed_iff {items : List SelectItem} :
    SelectItem.AllWellFormed items ↔ ∀ item ∈ items, item.WellFormed := by
  induction items with
  | nil => simp [SelectItem.AllWellFormed]
  | cons item items ih => simp [SelectItem.AllWellFormed, ih]

theorem Join.allWellFormed_iff {joins : List Join} :
    Join.AllWellFormed joins ↔ ∀ join ∈ joins, join.WellFormed := by
  induction joins with
  | nil => simp [Join.AllWellFormed]
  | cons join joins ih => simp [Join.AllWellFormed, ih]

theorem Setting.allWellFormed_iff {settings : List Setting} :
    Setting.AllWellFormed settings ↔ ∀ setting ∈ settings, setting.WellFormed := by
  induction settings with
  | nil => simp [Setting.AllWellFormed]
  | cons setting settings ih => simp [Setting.AllWellFormed, ih]

theorem Setting.wellFormed_iff {setting : Setting} :
    setting.WellFormed ↔ setting.value.WellFormed := by
  obtain ⟨name, value⟩ := setting
  exact Iff.rfl

/-! Records with parts that may be missing. -/

theorem forall_mem_option {α : Type} {p : α → Prop} {o : Option α} :
    (∀ a ∈ o, p a) ↔ (match o with | none => True | some a => p a) := by
  cases o <;> simp

theorem SelectBlock.wellFormed_iff {block : SelectBlock} :
    block.WellFormed ↔ block.items ≠ [] ∧ (∀ item ∈ block.items, item.WellFormed) ∧
      (∀ source ∈ block.source, source.WellFormed) ∧ (∀ e ∈ block.selection, e.WellFormed) ∧
      (∀ e ∈ block.groupBy, e.WellFormed) ∧ ∀ e ∈ block.having, e.WellFormed := by
  rw [← SelectItem.allWellFormed_iff, ← Expr.allWellFormed_iff]
  simp only [forall_mem_option]
  obtain ⟨distinct, items, source, selection, groupBy, having⟩ := block
  cases source <;> cases selection <;> cases having <;> rfl

theorem Query.wellFormed_iff {q : Query} :
    q.WellFormed ↔ (∀ tables ∈ q.tables, tables.WellFormed) ∧ q.body.WellFormed ∧
      (∀ item ∈ q.orderBy, item.WellFormed) ∧ (∀ limit ∈ q.limit, limit.WellFormed) ∧
      ∀ setting ∈ q.settings, setting.WellFormed := by
  rw [← OrderItem.allWellFormed_iff, ← Setting.allWellFormed_iff]
  simp only [forall_mem_option]
  obtain ⟨tables, body, orderBy, limit, settings, format⟩ := q
  cases tables <;> cases limit <;> rfl

/-! ### Statements -/

/-- Whether the rows to insert are well formed: there is a row at least, and no row is empty. -/
def InsertSource.WellFormed : InsertSource → Prop
  | .values rows => rows ≠ [] ∧ ∀ row ∈ rows, row ≠ [] ∧ ∀ e ∈ row, e.WellFormed
  | .query q => q.WellFormed

/-- Whether an insertion is well formed.  Without a list of columns, a parenthesis behind the table
is read as such a list unless a query starts right behind it. -/
def Insert.WellFormed : Insert → Prop
  | ⟨_, columns, source⟩ =>
    source.WellFormed ∧
      (match source with
        | .query q => columns = [] → q.startsBare = true ∨ q.opensBare = true
        | .values _ => True)

/-- Whether an update is well formed. -/
def Update.WellFormed (u : Update) : Prop :=
  u.assignments ≠ [] ∧ (∀ a ∈ u.assignments, a.value.WellFormed) ∧ ∀ e ∈ u.selection, e.WellFormed

/-- Whether a column option is well formed. -/
def ColumnOption.WellFormed : ColumnOption → Prop
  | .default value | .materialized value | .computed value | .check value => value.WellFormed
  | .null | .notNull | .primaryKey | .unique | .comment _ | .references _ => True

/-- Whether a column is well formed. -/
def ColumnDefinition.WellFormed (c : ColumnDefinition) : Prop :=
  (∀ type ∈ c.type, type.WellFormed) ∧ ∀ option ∈ c.options, option.WellFormed

/-- Whether the demand of a constraint is well formed. -/
def ConstraintKind.WellFormed : ConstraintKind → Prop
  | .primaryKey columns | .unique columns | .foreignKey columns _ => columns ≠ []
  | .check condition => condition.WellFormed

/-- Whether a column or a constraint is well formed. -/
def TableElement.WellFormed : TableElement → Prop
  | .column c => c.WellFormed
  | .constraint c => c.kind.WellFormed

/-- Whether the arguments of an engine are well formed. -/
def Engine.WellFormed (e : Engine) : Prop := ∀ args ∈ e.args, ∀ arg ∈ args, arg.WellFormed

/-- Whether the definition of a table is well formed: it has elements or a query. -/
def CreateTable.WellFormed (c : CreateTable) : Prop :=
  (∀ element ∈ c.elements, element.WellFormed) ∧ (∀ engine ∈ c.engine, engine.WellFormed) ∧
    (∀ e ∈ c.partitionBy, e.WellFormed) ∧ (∀ e ∈ c.primaryKey, e.WellFormed) ∧
    (∀ e ∈ c.orderBy, e.WellFormed) ∧ (∀ setting ∈ c.settings, setting.value.WellFormed) ∧
    (∀ q ∈ c.query, q.WellFormed) ∧ (c.elements = [] → c.query.isSome = true)

/-- Whether a change to a table is well formed. -/
def AlterAction.WellFormed : AlterAction → Prop
  | .addColumn _ column _ | .modifyColumn _ column => column.WellFormed
  | .addConstraint _ _ check => check.WellFormed
  | .delete selection => selection.WellFormed
  | .update assignments selection =>
    assignments ≠ [] ∧ (∀ a ∈ assignments, a.value.WellFormed) ∧ selection.WellFormed
  | .dropColumn _ _ | .renameColumn _ _ _ | .commentColumn _ _ _ | .dropConstraint _ _
  | .renameTable _ => True

/-- Whether a statement has the shape of a statement of the grammar. -/
def Statement.WellFormed : Statement → Prop
  | .select q => q.WellFormed
  | .insert i => i.WellFormed
  | .update u => u.WellFormed
  | .delete d => ∀ e ∈ d.selection, e.WellFormed
  | .createTable c => c.WellFormed
  | .createView c => c.query.WellFormed
  | .createIndex c => c.columns ≠ [] ∧ ∀ column ∈ c.columns, column.expr.WellFormed
  | .createDatabase c => ∀ engine ∈ c.engine, engine.WellFormed
  | .alterTable a => a.actions ≠ [] ∧ ∀ action ∈ a.actions, action.WellFormed
  | .drop d => d.names ≠ []
  | .rename r => r.pairs ≠ []
  | .changeSettings settings => settings ≠ [] ∧ ∀ setting ∈ settings, setting.value.WellFormed
  | .explain _ statement => statement.WellFormed
  | .truncate _ | .useDatabase _ | .listing _ | .describe _ | .optimize _
  | .begin | .commit | .rollback => True

end CanonicalSql
