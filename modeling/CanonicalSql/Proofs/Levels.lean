import CanonicalSql.Tree.Statement
import CanonicalSql.Word
import Mathlib.Data.ENat.Lattice

/-! The levels of nesting that a canonical text needs, as a function of the tree that it prints.
The number is infinite where no number of levels is enough: behind the name and the arguments of a
call the word `OVER` opens a window, so an interval with the unit `OVER` cannot be read back if such
a call stands right before the unit. -/

namespace CanonicalSql

noncomputable section

/-- The greatest of the levels of the items. -/
def greatest {α : Type} (levels : α → ℕ∞) : List α → ℕ∞
  | [] => 0
  | a :: as => max (levels a) (greatest levels as)

theorem greatest_zero {α : Type} (as : List α) : greatest (fun _ => 0) as = 0 := by
  induction as with
  | nil => rfl
  | cons a as ih => simp [greatest, ih]

/-- The levels of what an option holds. -/
def levelsIn {α : Type} (levels : α → ℕ∞) : Option α → ℕ∞
  | none => 0
  | some a => levels a

namespace Expr

/-- The levels that an operand takes in a place that needs at least `level`, where `inner` are those
inside its own.  Parentheses open a level of their own. -/
def placedLevels (e : Expr) (level : ℕ) (inner : Bool → ℕ∞) (beforeOver : Bool) : ℕ∞ :=
  if e.precedence < level then 2 + inner false else 1 + inner beforeOver

/-- The levels that the left operand of an operator takes inside the level of the whole: between
parentheses one for itself, and none of its own otherwise. -/
def headLevels (e : Expr) (level : ℕ) (inner : ℕ∞) : ℕ∞ :=
  if e.precedence < level then 1 + inner else inner

/-- The levels that the operators of the left operand hold open for what follows it: none where it
stands between parentheses. -/
def headLinks (e : Expr) (level links : ℕ) : ℕ := if e.precedence < level then 0 else links

/-- The number of operators that are read in one chain from the first operand on.  Each of them
holds a level open until the chain ends. -/
def links : Expr → ℕ
  | .binary left op _ => left.headLinks op.precedence left.links + 1
  | .between value _ _ _ | .member value _ _ | .like value _ _ _ | .isNull value _ =>
    value.headLinks Precedence.comparison value.links + 1
  | .subscript base _ => base.headLinks Precedence.subscript base.links + 1
  | _ => 0

end Expr

/-- The number of set operations that are read in one chain from the first operand on. -/
def QueryBody.links : QueryBody → ℕ
  | .compound _ _ left _ => left.links + 1
  | .block _ | .nested _ => 0

mutual

/-- The levels that an expression needs inside its own, where `beforeOver` tells whether the word
`OVER` stands behind it. -/
def Expr.inner : Expr → (beforeOver : Bool) → ℕ∞
  | .literal _, _ | .column _, _ | .placeholder _, _ => 0
  | .binary left op right, beforeOver =>
    max (left.headLevels op.precedence (left.inner false))
      (left.headLinks op.precedence left.links + 1 +
        right.placedLevels (op.precedence + 1) right.inner beforeOver)
  | .unary op operand, beforeOver =>
    if (op.isSign && operand.isSigned) || operand.precedence < op.precedence then
      2 + operand.inner false
    else 1 + operand.inner beforeOver
  | .between value low high _, beforeOver =>
    max (value.headLevels Precedence.comparison (value.inner false))
      (value.headLinks Precedence.comparison value.links + 1 +
        max (low.placedLevels Precedence.operand low.inner false)
          (high.placedLevels Precedence.operand high.inner beforeOver))
  | .member value set _, _ =>
    max (value.headLevels Precedence.comparison (value.inner false))
      (value.headLinks Precedence.comparison value.links + 1 + set.levels)
  | .like value _ pattern _, beforeOver =>
    max (value.headLevels Precedence.comparison (value.inner false))
      (value.headLinks Precedence.comparison value.links + 1 +
        pattern.placedLevels Precedence.operand pattern.inner beforeOver)
  | .isNull value _, _ =>
    max (value.headLevels Precedence.comparison (value.inner false))
      (value.headLinks Precedence.comparison value.links + 1)
  | .cases operand arms otherwise, _ =>
    max (match operand with | none => 0 | some e => 1 + e.inner false)
      (max (CaseArm.allLevels arms) (match otherwise with | none => 0 | some e => 1 + e.inner false))
  | .cast value _, _ => 1 + value.inner false
  | .existence query, _ | .subquery query, _ => query.levels
  | .call call, beforeOver => call.levels beforeOver
  | .tuple items, _ | .array items, _ => Expr.allLevels items
  | .subscript base index, _ =>
    max (base.headLevels Precedence.subscript (base.inner false))
      (base.headLinks Precedence.subscript base.links + 1 + (1 + index.inner false))
  | .interval value unit, _ =>
    value.placedLevels Precedence.operand value.inner (Word.OVER.spelledBy unit)

/-- The levels that each of the expressions needs, its own included. -/
def Expr.allLevels : List Expr → ℕ∞
  | [] => 0
  | e :: es => max (1 + e.inner false) (Expr.allLevels es)

/-- The levels of what stands between the parentheses behind `IN`. -/
def MemberSet.levels : MemberSet → ℕ∞
  | .list items => Expr.allLevels items
  | .query query => query.levels

/-- The levels of an arm of a case distinction. -/
def CaseArm.levels : CaseArm → ℕ∞
  | ⟨condition, result⟩ => max (1 + condition.inner false) (1 + result.inner false)

/-- The levels of the arms of a case distinction. -/
def CaseArm.allLevels : List CaseArm → ℕ∞
  | [] => 0
  | arm :: arms => max arm.levels (CaseArm.allLevels arms)

/-- The levels of a call.  Without a window it cannot stand before the word `OVER`. -/
def Call.levels : Call → (beforeOver : Bool) → ℕ∞
  | ⟨_, args, _, window⟩, beforeOver =>
    max args.levels
      (match window with | none => if beforeOver then ⊤ else 0 | some window => window.levels)

/-- The levels of the arguments of a call. -/
def CallArgs.levels : CallArgs → ℕ∞
  | .star => 0
  | .list items => Expr.allLevels items

/-- The levels of a window. -/
def Window.levels : Window → ℕ∞
  | ⟨partitionBy, orderBy, frame⟩ =>
    max (Expr.allLevels partitionBy)
      (max (OrderItem.allLevels orderBy) (match frame with | none => 0 | some frame => frame.levels))

/-- The levels of a frame. -/
def Frame.levels : Frame → ℕ∞
  | ⟨_, start, finish⟩ =>
    max start.levels (match finish with | none => 0 | some finish => finish.levels)

/-- The levels of the bound of a frame. -/
def FrameBound.levels : FrameBound → ℕ∞
  | .preceding offset | .following offset =>
    offset.placedLevels Precedence.operand offset.inner false
  | .unboundedPreceding | .currentRow | .unboundedFollowing => 0

/-- The levels of a term of a sort order. -/
def OrderItem.levels : OrderItem → ℕ∞
  | ⟨expr, _, _⟩ => 1 + expr.inner false

/-- The levels of the terms of a sort order. -/
def OrderItem.allLevels : List OrderItem → ℕ∞
  | [] => 0
  | item :: items => max item.levels (OrderItem.allLevels items)

/-- The levels of a query, its own included. -/
def Query.levels : Query → ℕ∞
  | ⟨tables, body, orderBy, limit, settings, _⟩ =>
    1 + max (match tables with | none => 0 | some tables => tables.levels)
      (max body.levels
        (max (OrderItem.allLevels orderBy)
          (max (match limit with | none => 0 | some limit => limit.levels)
            (Setting.allLevels settings))))

/-- The levels of the body of a query.  It has none of its own, but each set operation of a chain
holds one open. -/
def QueryBody.levels : QueryBody → ℕ∞
  | .block block => block.levels
  | .nested query => query.levels
  | .compound _ _ left right => max left.levels (left.links + 1 + right.levels)

/-- The levels of the named queries in front of a query. -/
def WithClause.levels : WithClause → ℕ∞
  | ⟨_, tables⟩ => CommonTable.allLevels tables

/-- The levels of a named query. -/
def CommonTable.levels : CommonTable → ℕ∞
  | ⟨_, _, query⟩ => query.levels

/-- The levels of the named queries. -/
def CommonTable.allLevels : List CommonTable → ℕ∞
  | [] => 0
  | table :: tables => max table.levels (CommonTable.allLevels tables)

/-- The levels of a single `SELECT`. -/
def SelectBlock.levels : SelectBlock → ℕ∞
  | ⟨_, items, source, selection, groupBy, having⟩ =>
    max (SelectItem.allLevels items)
      (max (match source with | none => 0 | some source => source.levels)
        (max (match selection with | none => 0 | some e => 1 + e.inner false)
          (max (Expr.allLevels groupBy)
            (match having with | none => 0 | some e => 1 + e.inner false))))

/-- The levels of a column of the result. -/
def SelectItem.levels : SelectItem → ℕ∞
  | .wildcard | .tableWildcard _ => 0
  | .expr expr _ => 1 + expr.inner false

/-- The levels of the columns of the result. -/
def SelectItem.allLevels : List SelectItem → ℕ∞
  | [] => 0
  | item :: items => max item.levels (SelectItem.allLevels items)

/-- The levels of a relation and those joined to it. -/
def FromClause.levels : FromClause → ℕ∞
  | ⟨relation, joins⟩ => max relation.levels (Join.allLevels joins)

/-- The levels of a relation. -/
def Relation.levels : Relation → ℕ∞
  | .table _ _ => 0
  | .function _ args _ => Expr.allLevels args
  | .derived query _ => query.levels

/-- The levels of a join. -/
def Join.levels : Join → ℕ∞
  | ⟨_, relation, constraint⟩ =>
    max relation.levels (match constraint with | none => 0 | some constraint => constraint.levels)

/-- The levels of the joins. -/
def Join.allLevels : List Join → ℕ∞
  | [] => 0
  | join :: joins => max join.levels (Join.allLevels joins)

/-- The levels of the condition of a join. -/
def JoinConstraint.levels : JoinConstraint → ℕ∞
  | .on condition => 1 + condition.inner false
  | .using _ => 0

/-- The levels of a limit. -/
def Limit.levels : Limit → ℕ∞
  | ⟨count, offset⟩ =>
    max (1 + count.inner false) (match offset with | none => 0 | some e => 1 + e.inner false)

/-- The levels of a setting. -/
def Setting.levels : Setting → ℕ∞
  | ⟨_, value⟩ => 1 + value.inner false

/-- The levels of the settings. -/
def Setting.allLevels : List Setting → ℕ∞
  | [] => 0
  | setting :: settings => max setting.levels (Setting.allLevels settings)

end

/-- The levels that an expression needs, its own included. -/
def Expr.levels (beforeOver : Bool) (e : Expr) : ℕ∞ := 1 + e.inner beforeOver

/-- The levels that an expression takes, with or without parentheses of its own. -/
def Expr.groupedLevels (e : Expr) (grouped beforeOver : Bool) : ℕ∞ :=
  if grouped then 2 + e.inner false else 1 + e.inner beforeOver

/-! The levels of lists are the greatest of the levels of their items. -/

theorem Expr.allLevels_eq (es : List Expr) :
    Expr.allLevels es = greatest (Expr.levels false) es := by
  induction es with
  | nil => rfl
  | cons e es ih => rw [Expr.allLevels, greatest, ih, Expr.levels]

theorem OrderItem.allLevels_eq (items : List OrderItem) :
    OrderItem.allLevels items = greatest OrderItem.levels items := by
  induction items with
  | nil => rfl
  | cons item items ih => rw [OrderItem.allLevels, greatest, ih]

theorem CommonTable.allLevels_eq (tables : List CommonTable) :
    CommonTable.allLevels tables = greatest CommonTable.levels tables := by
  induction tables with
  | nil => rfl
  | cons table tables ih => rw [CommonTable.allLevels, greatest, ih]

theorem SelectItem.allLevels_eq (items : List SelectItem) :
    SelectItem.allLevels items = greatest SelectItem.levels items := by
  induction items with
  | nil => rfl
  | cons item items ih => rw [SelectItem.allLevels, greatest, ih]

theorem Setting.allLevels_eq (settings : List Setting) :
    Setting.allLevels settings = greatest Setting.levels settings := by
  induction settings with
  | nil => rfl
  | cons setting settings ih => rw [Setting.allLevels, greatest, ih]

/-! What may be missing has levels only where it is there. -/

theorem Expr.inner_cases (operand : Option Expr) (arms : List CaseArm) (otherwise : Option Expr)
    (beforeOver : Bool) : (Expr.cases operand arms otherwise).inner beforeOver =
      max (levelsIn (Expr.levels false) operand)
        (max (CaseArm.allLevels arms) (levelsIn (Expr.levels false) otherwise)) := by
  cases operand <;> cases otherwise <;> rfl

theorem Limit.levels_eq (count : Expr) (offset : Option Expr) :
    Limit.levels ⟨count, offset⟩ =
      max (count.levels false) (levelsIn (Expr.levels false) offset) := by
  cases offset <;> rfl

theorem SelectBlock.levels_eq (distinct : Bool) (items : List SelectItem)
    (source : Option FromClause) (selection : Option Expr) (groupBy : List Expr)
    (having : Option Expr) :
    SelectBlock.levels ⟨distinct, items, source, selection, groupBy, having⟩ =
      max (SelectItem.allLevels items) (max (levelsIn FromClause.levels source)
        (max (levelsIn (Expr.levels false) selection) (max (Expr.allLevels groupBy)
          (levelsIn (Expr.levels false) having)))) := by
  cases source <;> cases selection <;> cases having <;> rfl

theorem Query.levels_eq (tables : Option WithClause) (body : QueryBody) (orderBy : List OrderItem)
    (limit : Option Limit) (settings : List Setting) (format : Option String) :
    Query.levels ⟨tables, body, orderBy, limit, settings, format⟩ =
      1 + max (levelsIn WithClause.levels tables) (max body.levels (max (OrderItem.allLevels orderBy)
        (max (levelsIn Limit.levels limit) (Setting.allLevels settings)))) := by
  cases tables <;> cases limit <;> rfl

/-- The levels of the rows to insert. -/
def InsertSource.levels : InsertSource → ℕ∞
  | .values rows => greatest (greatest (Expr.levels false)) rows
  | .query q => q.levels

/-- The levels of assignments. -/
def Assignment.levels (a : Assignment) : ℕ∞ := a.value.levels false

/-- The levels of a change of rows. -/
def Update.levels (u : Update) : ℕ∞ :=
  max (greatest Assignment.levels u.assignments) (levelsIn (Expr.levels false) u.selection)

/-- The levels of an option of a column.  A condition to check is printed between parentheses. -/
def ColumnOption.levels : ColumnOption → ℕ∞
  | .default value | .materialized value | .computed value => value.levels false
  | .check condition => 1 + condition.levels false
  | .null | .notNull | .primaryKey | .unique | .comment _ | .references _ => 0

/-- The levels of a column. -/
def ColumnDefinition.levels (c : ColumnDefinition) : ℕ∞ := greatest ColumnOption.levels c.options

/-- The levels of a column or a constraint. -/
def TableElement.levels : TableElement → ℕ∞
  | .column c => c.levels
  | .constraint ⟨_, .check condition⟩ => 1 + condition.levels false
  | .constraint _ => 0

/-- The levels of an engine. -/
def Engine.levels (e : Engine) : ℕ∞ := levelsIn (greatest (Expr.levels false)) e.args

/-- The levels of a new table. -/
def CreateTable.levels (c : CreateTable) : ℕ∞ :=
  max (greatest TableElement.levels c.elements)
    (max (levelsIn Engine.levels c.engine)
      (max (levelsIn (Expr.levels false) c.partitionBy)
        (max (levelsIn (Expr.levels false) c.primaryKey)
          (max (levelsIn (Expr.levels false) c.orderBy)
            (max (greatest Setting.levels c.settings) (levelsIn Query.levels c.query))))))

/-- The levels of an action on a table. -/
def AlterAction.levels : AlterAction → ℕ∞
  | .addColumn _ column _ | .modifyColumn _ column => column.levels
  | .addConstraint _ _ check => 1 + check.levels false
  | .delete selection => selection.levels false
  | .update assignments selection =>
    max (greatest Assignment.levels assignments) (selection.levels false)
  | .dropColumn _ _ | .renameColumn _ _ _ | .commentColumn _ _ _ | .dropConstraint _ _
  | .renameTable _ => 0

/-- The levels that a statement needs. -/
def Statement.levels : Statement → ℕ∞
  | .select q => q.levels
  | .insert i => i.source.levels
  | .update u => u.levels
  | .delete d => levelsIn (Expr.levels false) d.selection
  | .createTable c => c.levels
  | .createView c => c.query.levels
  | .createIndex c => greatest (fun column => column.expr.levels false) c.columns
  | .createDatabase c => levelsIn Engine.levels c.engine
  | .alterTable a => greatest AlterAction.levels a.actions
  | .changeSettings settings => greatest Setting.levels settings
  | .explain _ statement => 1 + statement.levels
  | .drop _ | .truncate _ | .rename _ | .useDatabase _ | .listing _ | .describe _ | .optimize _
  | .begin | .commit | .rollback => 0

end

end CanonicalSql
