import CanonicalSql.Tree.Statement

/-! The depth of trees: the greatest number of expressions, queries, set operations and explanations
that lie inside one another. -/

namespace CanonicalSql

/-- The greatest of the depths of the items. -/
def deepest {α : Type} (depth : α → Nat) : List α → Nat
  | [] => 0
  | a :: as => max (depth a) (deepest depth as)

theorem le_deepest {α : Type} (depth : α → Nat) {as : List α} {a : α} (h : a ∈ as) :
    depth a ≤ deepest depth as := by
  induction as with
  | nil => simp at h
  | cons b as ih =>
    rw [deepest]
    rcases List.mem_cons.1 h with rfl | h
    · exact Nat.le_max_left _ _
    · exact Nat.le_trans (ih h) (Nat.le_max_right _ _)

/-- The depth of what an option holds. -/
def depthIn {α : Type} (depth : α → Nat) : Option α → Nat
  | none => 0
  | some a => depth a

mutual

/-- The depth of an expression. -/
def Expr.depth : Expr → Nat
  | .literal _ | .column _ | .placeholder _ => 1
  | .binary left _ right => 1 + max left.depth right.depth
  | .unary _ operand => 1 + operand.depth
  | .between value low high _ => 1 + max value.depth (max low.depth high.depth)
  | .member value set _ => 1 + max value.depth set.depth
  | .like value _ pattern _ => 1 + max value.depth pattern.depth
  | .isNull value _ => 1 + value.depth
  | .cases operand arms otherwise =>
    1 + max (match operand with | none => 0 | some e => e.depth)
      (max (CaseArm.allDepth arms) (match otherwise with | none => 0 | some e => e.depth))
  | .cast value _ => 1 + value.depth
  | .existence query | .subquery query => 1 + query.depth
  | .call call => 1 + call.depth
  | .tuple items | .array items => 1 + Expr.allDepth items
  | .subscript base index => 1 + max base.depth index.depth
  | .interval value _ => 1 + value.depth

/-- The depth of the deepest of the expressions. -/
def Expr.allDepth : List Expr → Nat
  | [] => 0
  | e :: es => max e.depth (Expr.allDepth es)

/-- The depth of what stands between the parentheses behind `IN`. -/
def MemberSet.depth : MemberSet → Nat
  | .list items => Expr.allDepth items
  | .query query => query.depth

/-- The depth of an arm of a case distinction. -/
def CaseArm.depth : CaseArm → Nat
  | ⟨condition, result⟩ => max condition.depth result.depth

/-- The depth of the deepest of the arms. -/
def CaseArm.allDepth : List CaseArm → Nat
  | [] => 0
  | arm :: arms => max arm.depth (CaseArm.allDepth arms)

/-- The depth of what a call holds. -/
def Call.depth : Call → Nat
  | ⟨_, args, _, window⟩ =>
    max args.depth (match window with | none => 0 | some window => window.depth)

/-- The depth of the arguments of a call. -/
def CallArgs.depth : CallArgs → Nat
  | .star => 0
  | .list items => Expr.allDepth items

/-- The depth of what a window holds. -/
def Window.depth : Window → Nat
  | ⟨partitionBy, orderBy, frame⟩ =>
    max (Expr.allDepth partitionBy)
      (max (OrderItem.allDepth orderBy) (match frame with | none => 0 | some frame => frame.depth))

/-- The depth of what a frame holds. -/
def Frame.depth : Frame → Nat
  | ⟨_, start, finish⟩ =>
    max start.depth (match finish with | none => 0 | some finish => finish.depth)

/-- The depth of the bound of a frame. -/
def FrameBound.depth : FrameBound → Nat
  | .preceding offset | .following offset => offset.depth
  | .unboundedPreceding | .currentRow | .unboundedFollowing => 0

/-- The depth of a term of a sort order. -/
def OrderItem.depth : OrderItem → Nat
  | ⟨expr, _, _⟩ => expr.depth

/-- The depth of the deepest of the terms. -/
def OrderItem.allDepth : List OrderItem → Nat
  | [] => 0
  | item :: items => max item.depth (OrderItem.allDepth items)

/-- The depth of a query. -/
def Query.depth : Query → Nat
  | ⟨tables, body, orderBy, limit, settings, _⟩ =>
    1 + max (match tables with | none => 0 | some tables => tables.depth)
      (max body.depth
        (max (OrderItem.allDepth orderBy)
          (max (match limit with | none => 0 | some limit => limit.depth)
            (Setting.allDepth settings))))

/-- The depth of the body of a query, where only set operations count themselves. -/
def QueryBody.depth : QueryBody → Nat
  | .block block => block.depth
  | .nested query => query.depth
  | .compound _ _ left right => 1 + max left.depth right.depth

/-- The depth of the named queries in front of a query. -/
def WithClause.depth : WithClause → Nat
  | ⟨_, tables⟩ => CommonTable.allDepth tables

/-- The depth of a named query. -/
def CommonTable.depth : CommonTable → Nat
  | ⟨_, _, query⟩ => query.depth

/-- The depth of the deepest of the named queries. -/
def CommonTable.allDepth : List CommonTable → Nat
  | [] => 0
  | table :: tables => max table.depth (CommonTable.allDepth tables)

/-- The depth of what a single `SELECT` holds. -/
def SelectBlock.depth : SelectBlock → Nat
  | ⟨_, items, source, selection, groupBy, having⟩ =>
    max (SelectItem.allDepth items)
      (max (match source with | none => 0 | some source => source.depth)
        (max (match selection with | none => 0 | some e => e.depth)
          (max (Expr.allDepth groupBy) (match having with | none => 0 | some e => e.depth))))

/-- The depth of a column of the result. -/
def SelectItem.depth : SelectItem → Nat
  | .wildcard | .tableWildcard _ => 0
  | .expr expr _ => expr.depth

/-- The depth of the deepest of the columns. -/
def SelectItem.allDepth : List SelectItem → Nat
  | [] => 0
  | item :: items => max item.depth (SelectItem.allDepth items)

/-- The depth of a relation and those joined to it. -/
def FromClause.depth : FromClause → Nat
  | ⟨relation, joins⟩ => max relation.depth (Join.allDepth joins)

/-- The depth of a relation. -/
def Relation.depth : Relation → Nat
  | .table _ _ => 0
  | .function _ args _ => Expr.allDepth args
  | .derived query _ => query.depth

/-- The depth of a join. -/
def Join.depth : Join → Nat
  | ⟨_, relation, constraint⟩ =>
    max relation.depth (match constraint with | none => 0 | some constraint => constraint.depth)

/-- The depth of the deepest of the joins. -/
def Join.allDepth : List Join → Nat
  | [] => 0
  | join :: joins => max join.depth (Join.allDepth joins)

/-- The depth of the condition of a join. -/
def JoinConstraint.depth : JoinConstraint → Nat
  | .on condition => condition.depth
  | .using _ => 0

/-- The depth of a limit. -/
def Limit.depth : Limit → Nat
  | ⟨count, offset⟩ => max count.depth (match offset with | none => 0 | some e => e.depth)

/-- The depth of a setting. -/
def Setting.depth : Setting → Nat
  | ⟨_, value⟩ => value.depth

/-- The depth of the deepest of the settings. -/
def Setting.allDepth : List Setting → Nat
  | [] => 0
  | setting :: settings => max setting.depth (Setting.allDepth settings)

end

/-! The depth of lists is the greatest of the depths of their items. -/

@[simp] theorem Expr.allDepth_eq (es : List Expr) : Expr.allDepth es = deepest Expr.depth es := by
  induction es with
  | nil => rfl
  | cons e es ih => rw [Expr.allDepth, deepest, ih]

@[simp] theorem CaseArm.allDepth_eq (arms : List CaseArm) :
    CaseArm.allDepth arms = deepest CaseArm.depth arms := by
  induction arms with
  | nil => rfl
  | cons arm arms ih => rw [CaseArm.allDepth, deepest, ih]

@[simp] theorem OrderItem.allDepth_eq (items : List OrderItem) :
    OrderItem.allDepth items = deepest OrderItem.depth items := by
  induction items with
  | nil => rfl
  | cons item items ih => rw [OrderItem.allDepth, deepest, ih]

@[simp] theorem CommonTable.allDepth_eq (tables : List CommonTable) :
    CommonTable.allDepth tables = deepest CommonTable.depth tables := by
  induction tables with
  | nil => rfl
  | cons table tables ih => rw [CommonTable.allDepth, deepest, ih]

@[simp] theorem SelectItem.allDepth_eq (items : List SelectItem) :
    SelectItem.allDepth items = deepest SelectItem.depth items := by
  induction items with
  | nil => rfl
  | cons item items ih => rw [SelectItem.allDepth, deepest, ih]

@[simp] theorem Join.allDepth_eq (joins : List Join) :
    Join.allDepth joins = deepest Join.depth joins := by
  induction joins with
  | nil => rfl
  | cons join joins ih => rw [Join.allDepth, deepest, ih]

@[simp] theorem Setting.allDepth_eq (settings : List Setting) :
    Setting.allDepth settings = deepest Setting.depth settings := by
  induction settings with
  | nil => rfl
  | cons setting settings ih => rw [Setting.allDepth, deepest, ih]

/-! Records with parts that may be missing. -/

theorem SelectBlock.depth_eq (block : SelectBlock) :
    block.depth = max (deepest SelectItem.depth block.items)
      (max (depthIn FromClause.depth block.source) (max (depthIn Expr.depth block.selection)
        (max (deepest Expr.depth block.groupBy) (depthIn Expr.depth block.having)))) := by
  rw [← SelectItem.allDepth_eq, ← Expr.allDepth_eq]
  obtain ⟨distinct, items, source, selection, groupBy, having⟩ := block
  cases source <;> cases selection <;> cases having <;> rfl

theorem Query.depth_eq (q : Query) :
    q.depth = 1 + max (depthIn WithClause.depth q.tables) (max q.body.depth
      (max (deepest OrderItem.depth q.orderBy) (max (depthIn Limit.depth q.limit)
        (deepest Setting.depth q.settings)))) := by
  rw [← OrderItem.allDepth_eq, ← Setting.allDepth_eq]
  obtain ⟨tables, body, orderBy, limit, settings, format⟩ := q
  cases tables <;> cases limit <;> rfl

/-! ### Statements -/

/-- The depth of the rows to insert. -/
def InsertSource.depth : InsertSource → Nat
  | .values rows => deepest (deepest Expr.depth) rows
  | .query q => q.depth

/-- The depth of a new value. -/
def Assignment.depth (a : Assignment) : Nat := a.value.depth

/-- The depth of a change of rows. -/
def Update.depth (u : Update) : Nat :=
  max (deepest Assignment.depth u.assignments) (depthIn Expr.depth u.selection)

/-- The depth of an option of a column. -/
def ColumnOption.depth : ColumnOption → Nat
  | .default value | .materialized value | .computed value | .check value => value.depth
  | .null | .notNull | .primaryKey | .unique | .comment _ | .references _ => 0

/-- The depth of a column. -/
def ColumnDefinition.depth (c : ColumnDefinition) : Nat := deepest ColumnOption.depth c.options

/-- The depth of what a constraint demands. -/
def ConstraintKind.depth : ConstraintKind → Nat
  | .check condition => condition.depth
  | .primaryKey _ | .unique _ | .foreignKey _ _ => 0

/-- The depth of a column or a constraint. -/
def TableElement.depth : TableElement → Nat
  | .column c => c.depth
  | .constraint c => c.kind.depth

/-- The depth of the arguments of an engine. -/
def Engine.depth (e : Engine) : Nat := depthIn (deepest Expr.depth) e.args

/-- The depth of a new table. -/
def CreateTable.depth (c : CreateTable) : Nat :=
  max (deepest TableElement.depth c.elements)
    (max (depthIn Engine.depth c.engine)
      (max (depthIn Expr.depth c.partitionBy)
        (max (depthIn Expr.depth c.primaryKey)
          (max (depthIn Expr.depth c.orderBy)
            (max (deepest Setting.depth c.settings) (depthIn Query.depth c.query))))))

/-- The depth of an action on a table. -/
def AlterAction.depth : AlterAction → Nat
  | .addColumn _ column _ | .modifyColumn _ column => column.depth
  | .addConstraint _ _ check => check.depth
  | .delete selection => selection.depth
  | .update assignments selection => max (deepest Assignment.depth assignments) selection.depth
  | .dropColumn _ _ | .renameColumn _ _ _ | .commentColumn _ _ _ | .dropConstraint _ _
  | .renameTable _ => 0

/-- The depth of a statement.  An explanation counts itself. -/
def Statement.depth : Statement → Nat
  | .select q => q.depth
  | .insert i => i.source.depth
  | .update u => u.depth
  | .delete d => depthIn Expr.depth d.selection
  | .createTable c => c.depth
  | .createView c => c.query.depth
  | .createIndex c => deepest (fun column => column.expr.depth) c.columns
  | .createDatabase c => depthIn Engine.depth c.engine
  | .alterTable a => deepest AlterAction.depth a.actions
  | .changeSettings settings => deepest Setting.depth settings
  | .explain _ statement => 1 + statement.depth
  | .drop _ | .truncate _ | .rename _ | .useDatabase _ | .listing _ | .describe _ | .optimize _
  | .begin | .commit | .rollback => 0

end CanonicalSql
