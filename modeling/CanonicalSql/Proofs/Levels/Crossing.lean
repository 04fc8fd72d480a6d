import CanonicalSql.Proofs.Levels
import CanonicalSql.Proofs.Parts

/-! Trees that no number of levels is enough for.  Those are the trees with an interval whose unit `OVER`
stands right behind a call in the text: there the word opens a window. -/

namespace CanonicalSql

/-- Whether the text of an expression ends in a call without a window. -/
def Expr.endsInCall : Expr → Bool
  | .binary _ op right => decide (op.precedence < right.precedence) && right.endsInCall
  | .unary op operand =>
    !((op.isSign && operand.isSigned) || operand.precedence < op.precedence) && operand.endsInCall
  | .between _ _ high _ => decide (Precedence.operand ≤ high.precedence) && high.endsInCall
  | .like _ _ pattern _ => decide (Precedence.operand ≤ pattern.precedence) && pattern.endsInCall
  | .call ⟨_, _, _, none⟩ => true
  | _ => false

/-- Whether a part is an interval whose unit is taken for the start of a window. -/
def Part.Crossed : Part → Prop
  | .expr (.interval value unit) =>
    Precedence.operand ≤ value.precedence ∧ value.endsInCall = true ∧ Word.OVER.spelledBy unit = true
  | _ => False

/-- Whether one of the parts is such an interval. -/
def Part.AnyCrossed (ps : List Part) : Prop := ∃ p ∈ ps, p.Crossed

section

variable {α : Type} {p : Part} {ps qs : List Part} {n m : ℕ∞}

@[simp] theorem anyCrossed_nil : ¬ Part.AnyCrossed [] := by simp [Part.AnyCrossed]

@[simp] theorem anyCrossed_cons : Part.AnyCrossed (p :: ps) ↔ p.Crossed ∨ Part.AnyCrossed ps := by
  simp [Part.AnyCrossed]

@[simp] theorem anyCrossed_append :
    Part.AnyCrossed (ps ++ qs) ↔ Part.AnyCrossed ps ∨ Part.AnyCrossed qs := by
  simp [Part.AnyCrossed, or_and_right, exists_or]

end

namespace Expr

variable {e : Expr} {level : ℕ} {n : ℕ∞} {inner : Bool → ℕ∞}

@[simp] theorem headLevels_eq_top : e.headLevels level n = ⊤ ↔ n = ⊤ := by
  unfold headLevels
  split <;> simp

@[simp] theorem placedLevels_eq_top : e.placedLevels level inner false = ⊤ ↔ inner false = ⊤ := by
  unfold placedLevels
  split <;> simp

/-- In parentheses an operand does not end in a call. -/
theorem placedLevels_before (e : Expr) (level : ℕ) {ends : Bool}
    (h : inner true = ⊤ ↔ ends = true ∨ inner false = ⊤) : e.placedLevels level inner true = ⊤ ↔
      (level ≤ e.precedence ∧ ends = true) ∨ inner false = ⊤ := by
  unfold placedLevels
  split
  · next loose => simp [loose.not_ge]
  · next tight => simp [Nat.le_of_not_lt tight, h]

end Expr

/-- What ends in a call cannot stand before the word `OVER`. -/
theorem Expr.inner_before : (e : Expr) → e.inner true = ⊤ ↔ e.endsInCall = true ∨ e.inner false = ⊤
  | .literal _ | .column _ | .placeholder _ | .member _ _ _ | .isNull _ _ | .cast _ _
  | .existence _ | .subquery _ | .tuple _ | .array _ | .subscript _ _ | .interval _ _ => by
    simp [Expr.inner, Expr.endsInCall]
  | .cases _ _ _ => by simp [Expr.inner_cases, Expr.endsInCall]
  | .binary left op right => by
    have := placedLevels_before right (op.precedence + 1) right.inner_before
    simp [Expr.inner, Expr.endsInCall, this, or_left_comm]
  | .unary op operand => by
    have := operand.inner_before
    cases grouped : (op.isSign && operand.isSigned) || decide (operand.precedence < op.precedence) with
    | true => simp [Expr.inner, Expr.endsInCall, grouped]
    | false => simp [Expr.inner, Expr.endsInCall, grouped, this]
  | .between value low high _ => by
    have := placedLevels_before high Precedence.operand high.inner_before
    simp [Expr.inner, Expr.endsInCall, this, or_left_comm]
  | .like value _ pattern _ => by
    have := placedLevels_before pattern Precedence.operand pattern.inner_before
    simp [Expr.inner, Expr.endsInCall, this, or_left_comm]
  | .call ⟨_, args, _, window⟩ => by
    cases window with
    | none => simp [Expr.inner, Call.levels, Expr.endsInCall]
    | some window => simp [Expr.inner, Call.levels, Expr.endsInCall]

mutual

/-- The levels inside an expression are infinite if and only if a unit of it is taken for a window. -/
theorem Expr.inner_eq_top : (e : Expr) → e.inner false = ⊤ ↔ Part.AnyCrossed e.parts
  | .literal _ | .column _ | .placeholder _ => by simp [Expr.inner, Expr.parts, Part.Crossed]
  | .binary left op right => by
    simp [Expr.inner, Expr.parts, Part.Crossed, left.inner_eq_top, right.inner_eq_top]
  | .unary op operand => by
    rw [Expr.inner]
    split <;> simp [Expr.parts, Part.Crossed, operand.inner_eq_top]
  | .between value low high _ => by
    simp [Expr.inner, Expr.parts, Part.Crossed, value.inner_eq_top, low.inner_eq_top,
      high.inner_eq_top]
  | .member value set _ => by
    simp [Expr.inner, Expr.parts, Part.Crossed, value.inner_eq_top, set.levels_eq_top]
  | .like value _ pattern _ => by
    simp [Expr.inner, Expr.parts, Part.Crossed, value.inner_eq_top, pattern.inner_eq_top]
  | .isNull value _ => by simp [Expr.inner, Expr.parts, Part.Crossed, value.inner_eq_top]
  | .cases operand arms otherwise => by
    simp only [Expr.inner_cases, Expr.parts_cases, anyCrossed_cons, anyCrossed_append, max_eq_top,
      or_assoc, Part.Crossed, false_or]
    refine or_congr ?_ (or_congr (CaseArm.allLevels_eq_top arms) ?_)
    · cases operand with
      | none => simp [levelsIn, partsIn]
      | some e => simpa [levelsIn, partsIn, Expr.levels] using e.inner_eq_top
    · cases otherwise with
      | none => simp [levelsIn, partsIn]
      | some e => simpa [levelsIn, partsIn, Expr.levels] using e.inner_eq_top
  | .cast value _ => by simp [Expr.inner, Expr.parts, Part.Crossed, value.inner_eq_top]
  | .existence query => by simp [Expr.inner, Expr.parts, Part.Crossed, query.levels_eq_top]
  | .subquery query => by simp [Expr.inner, Expr.parts, Part.Crossed, query.levels_eq_top]
  | .call call => by simp [Expr.inner, Expr.parts, Part.Crossed, call.levels_eq_top]
  | .tuple items => by simp [Expr.inner, Expr.parts, Part.Crossed, Expr.allLevels_eq_top items]
  | .array items => by simp [Expr.inner, Expr.parts, Part.Crossed, Expr.allLevels_eq_top items]
  | .subscript base index => by
    simp [Expr.inner, Expr.parts, Part.Crossed, base.inner_eq_top, index.inner_eq_top]
  | .interval value unit => by
    rw [Expr.inner, Expr.parts, anyCrossed_cons, ← value.inner_eq_top]
    cases spelled : Word.OVER.spelledBy unit with
    | false => simp [Part.Crossed, spelled]
    | true => simp [Part.Crossed, spelled, Expr.placedLevels_before value _ value.inner_before]

theorem Expr.allLevels_eq_top : (es : List Expr) →
    Expr.allLevels es = ⊤ ↔ Part.AnyCrossed (Expr.allParts es)
  | [] => by simp [Expr.allLevels, Expr.allParts]
  | e :: es => by simp [Expr.allLevels, Expr.allParts, e.inner_eq_top, Expr.allLevels_eq_top es]

theorem MemberSet.levels_eq_top : (set : MemberSet) → set.levels = ⊤ ↔ Part.AnyCrossed set.parts
  | .list items => Expr.allLevels_eq_top items
  | .query query => query.levels_eq_top

theorem CaseArm.levels_eq_top : (arm : CaseArm) → arm.levels = ⊤ ↔ Part.AnyCrossed arm.parts
  | ⟨condition, result⟩ => by
    simp [CaseArm.levels, CaseArm.parts, condition.inner_eq_top, result.inner_eq_top]

theorem CaseArm.allLevels_eq_top : (arms : List CaseArm) →
    CaseArm.allLevels arms = ⊤ ↔ Part.AnyCrossed (CaseArm.allParts arms)
  | [] => by simp [CaseArm.allLevels, CaseArm.allParts]
  | arm :: arms => by
    simp [CaseArm.allLevels, CaseArm.allParts, arm.levels_eq_top, CaseArm.allLevels_eq_top arms]

theorem Call.levels_eq_top : (call : Call) → call.levels false = ⊤ ↔ Part.AnyCrossed call.parts
  | ⟨_, args, _, none⟩ => by simp [Call.levels, Call.parts, args.levels_eq_top]
  | ⟨_, args, _, some window⟩ => by
    simp [Call.levels, Call.parts, args.levels_eq_top, window.levels_eq_top]

theorem CallArgs.levels_eq_top : (args : CallArgs) → args.levels = ⊤ ↔ Part.AnyCrossed args.parts
  | .star => by simp [CallArgs.levels, CallArgs.parts]
  | .list items => Expr.allLevels_eq_top items

theorem Window.levels_eq_top : (window : Window) → window.levels = ⊤ ↔ Part.AnyCrossed window.parts
  | ⟨partitionBy, orderBy, none⟩ => by
    simp [Window.levels, Window.parts, Expr.allLevels_eq_top partitionBy,
      OrderItem.allLevels_eq_top orderBy]
  | ⟨partitionBy, orderBy, some frame⟩ => by
    simp [Window.levels, Window.parts, Expr.allLevels_eq_top partitionBy,
      OrderItem.allLevels_eq_top orderBy, frame.levels_eq_top]

theorem Frame.levels_eq_top : (frame : Frame) → frame.levels = ⊤ ↔ Part.AnyCrossed frame.parts
  | ⟨_, start, none⟩ => by simp [Frame.levels, Frame.parts, start.levels_eq_top]
  | ⟨_, start, some finish⟩ => by
    simp [Frame.levels, Frame.parts, start.levels_eq_top, finish.levels_eq_top]

theorem FrameBound.levels_eq_top : (bound : FrameBound) →
    bound.levels = ⊤ ↔ Part.AnyCrossed bound.parts
  | .preceding offset => by simp [FrameBound.levels, FrameBound.parts, offset.inner_eq_top]
  | .following offset => by simp [FrameBound.levels, FrameBound.parts, offset.inner_eq_top]
  | .unboundedPreceding | .currentRow | .unboundedFollowing => by
    simp [FrameBound.levels, FrameBound.parts]

theorem OrderItem.levels_eq_top : (item : OrderItem) → item.levels = ⊤ ↔ Part.AnyCrossed item.parts
  | ⟨expr, _, _⟩ => by simp [OrderItem.levels, OrderItem.parts, expr.inner_eq_top]

theorem OrderItem.allLevels_eq_top : (items : List OrderItem) →
    OrderItem.allLevels items = ⊤ ↔ Part.AnyCrossed (OrderItem.allParts items)
  | [] => by simp [OrderItem.allLevels, OrderItem.allParts]
  | item :: items => by
    simp [OrderItem.allLevels, OrderItem.allParts, item.levels_eq_top, OrderItem.allLevels_eq_top items]

theorem Query.levels_eq_top : (q : Query) → q.levels = ⊤ ↔ Part.AnyCrossed q.parts
  | ⟨tables, body, orderBy, limit, settings, _⟩ => by
    simp only [Query.levels_eq, Query.parts_eq, anyCrossed_append, ENat.add_eq_top, ENat.one_ne_top,
      false_or, max_eq_top, or_assoc]
    refine or_congr ?_ (or_congr body.levels_eq_top (or_congr (OrderItem.allLevels_eq_top orderBy)
      (or_congr ?_ (Setting.allLevels_eq_top settings))))
    · cases tables with
      | none => simp [levelsIn, partsIn]
      | some tables => exact tables.levels_eq_top
    · cases limit with
      | none => simp [levelsIn, partsIn]
      | some limit => exact limit.levels_eq_top

theorem QueryBody.levels_eq_top : (body : QueryBody) → body.levels = ⊤ ↔ Part.AnyCrossed body.parts
  | .block block => by simp [QueryBody.levels, QueryBody.parts, Part.Crossed, block.levels_eq_top]
  | .nested query => by simp [QueryBody.levels, QueryBody.parts, Part.Crossed, query.levels_eq_top]
  | .compound _ _ left right => by
    simp [QueryBody.levels, QueryBody.parts, Part.Crossed, left.levels_eq_top, right.levels_eq_top]

theorem WithClause.levels_eq_top : (clause : WithClause) →
    clause.levels = ⊤ ↔ Part.AnyCrossed clause.parts
  | ⟨_, tables⟩ => CommonTable.allLevels_eq_top tables

theorem CommonTable.levels_eq_top : (table : CommonTable) →
    table.levels = ⊤ ↔ Part.AnyCrossed table.parts
  | ⟨_, _, query⟩ => query.levels_eq_top

theorem CommonTable.allLevels_eq_top : (tables : List CommonTable) →
    CommonTable.allLevels tables = ⊤ ↔ Part.AnyCrossed (CommonTable.allParts tables)
  | [] => by simp [CommonTable.allLevels, CommonTable.allParts]
  | table :: tables => by
    simp [CommonTable.allLevels, CommonTable.allParts, table.levels_eq_top,
      CommonTable.allLevels_eq_top tables]

theorem SelectBlock.levels_eq_top : (block : SelectBlock) →
    block.levels = ⊤ ↔ Part.AnyCrossed block.parts
  | ⟨_, items, source, selection, groupBy, having⟩ => by
    simp only [SelectBlock.levels_eq, SelectBlock.parts_eq, anyCrossed_append, max_eq_top, or_assoc]
    refine or_congr (SelectItem.allLevels_eq_top items) (or_congr ?_ (or_congr ?_
      (or_congr (Expr.allLevels_eq_top groupBy) ?_)))
    · cases source with
      | none => simp [levelsIn, partsIn]
      | some source => exact source.levels_eq_top
    · cases selection with
      | none => simp [levelsIn, partsIn]
      | some e => simpa [levelsIn, partsIn, Expr.levels] using e.inner_eq_top
    · cases having with
      | none => simp [levelsIn, partsIn]
      | some e => simpa [levelsIn, partsIn, Expr.levels] using e.inner_eq_top

theorem SelectItem.levels_eq_top : (item : SelectItem) → item.levels = ⊤ ↔ Part.AnyCrossed item.parts
  | .wildcard | .tableWildcard _ => by simp [SelectItem.levels, SelectItem.parts]
  | .expr expr _ => by simp [SelectItem.levels, SelectItem.parts, expr.inner_eq_top]

theorem SelectItem.allLevels_eq_top : (items : List SelectItem) →
    SelectItem.allLevels items = ⊤ ↔ Part.AnyCrossed (SelectItem.allParts items)
  | [] => by simp [SelectItem.allLevels, SelectItem.allParts]
  | item :: items => by
    simp [SelectItem.allLevels, SelectItem.allParts, item.levels_eq_top,
      SelectItem.allLevels_eq_top items]

theorem FromClause.levels_eq_top : (source : FromClause) →
    source.levels = ⊤ ↔ Part.AnyCrossed source.parts
  | ⟨relation, joins⟩ => by
    simp [FromClause.levels, FromClause.parts, relation.levels_eq_top, Join.allLevels_eq_top joins]

theorem Relation.levels_eq_top : (relation : Relation) →
    relation.levels = ⊤ ↔ Part.AnyCrossed relation.parts
  | .table _ _ => by simp [Relation.levels, Relation.parts]
  | .function _ args _ => Expr.allLevels_eq_top args
  | .derived query _ => query.levels_eq_top

theorem Join.levels_eq_top : (join : Join) → join.levels = ⊤ ↔ Part.AnyCrossed join.parts
  | ⟨_, relation, none⟩ => by simp [Join.levels, Join.parts, relation.levels_eq_top]
  | ⟨_, relation, some constraint⟩ => by
    simp [Join.levels, Join.parts, relation.levels_eq_top, constraint.levels_eq_top]

theorem Join.allLevels_eq_top : (joins : List Join) →
    Join.allLevels joins = ⊤ ↔ Part.AnyCrossed (Join.allParts joins)
  | [] => by simp [Join.allLevels, Join.allParts]
  | join :: joins => by
    simp [Join.allLevels, Join.allParts, join.levels_eq_top, Join.allLevels_eq_top joins]

theorem JoinConstraint.levels_eq_top : (constraint : JoinConstraint) →
    constraint.levels = ⊤ ↔ Part.AnyCrossed constraint.parts
  | .on condition => by simp [JoinConstraint.levels, JoinConstraint.parts, condition.inner_eq_top]
  | .using _ => by simp [JoinConstraint.levels, JoinConstraint.parts]

theorem Limit.levels_eq_top : (limit : Limit) → limit.levels = ⊤ ↔ Part.AnyCrossed limit.parts
  | ⟨count, none⟩ => by simp [Limit.levels, Limit.parts, count.inner_eq_top]
  | ⟨count, some offset⟩ => by
    simp [Limit.levels, Limit.parts, count.inner_eq_top, offset.inner_eq_top]

theorem Setting.levels_eq_top : (setting : Setting) →
    setting.levels = ⊤ ↔ Part.AnyCrossed setting.parts
  | ⟨_, value⟩ => by simp [Setting.levels, Setting.parts, value.inner_eq_top]

theorem Setting.allLevels_eq_top : (settings : List Setting) →
    Setting.allLevels settings = ⊤ ↔ Part.AnyCrossed (Setting.allParts settings)
  | [] => by simp [Setting.allLevels, Setting.allParts]
  | setting :: settings => by
    simp [Setting.allLevels, Setting.allParts, setting.levels_eq_top, Setting.allLevels_eq_top settings]

end

end CanonicalSql
