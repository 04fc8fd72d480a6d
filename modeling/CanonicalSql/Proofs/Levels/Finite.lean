import CanonicalSql.Proofs.Data
import CanonicalSql.Proofs.Levels

/-! Trees that some number of levels is enough for: those without an interval in the unit `OVER`.  Only
intervals have units, so the data of a tree tell. -/

namespace CanonicalSql

/-- Whether a datum is a unit that is spelled like the word `OVER`. -/
def Datum.isOverUnit : Datum → Bool
  | .unit u => Word.OVER.spelledBy u
  | _ => false

/-- Whether no interval has the unit `OVER`. -/
def WithoutOver (ds : List Datum) : Prop := ∀ d ∈ ds, d.isOverUnit = false

section

variable {d : Datum} {ds es : List Datum}

@[simp] theorem withoutOver_cons :
    WithoutOver (d :: ds) ↔ d.isOverUnit = false ∧ WithoutOver ds :=
  List.forall_mem_cons

@[simp] theorem withoutOver_append :
    WithoutOver (ds ++ es) ↔ WithoutOver ds ∧ WithoutOver es :=
  List.forall_mem_append

theorem withoutOver_of_flatMap {α : Type} {data : α → List Datum} {as : List α}
    (h : WithoutOver (as.flatMap data)) : ∀ a ∈ as, WithoutOver (data a) :=
  fun a ha d hd => h d (List.mem_flatMap.2 ⟨a, ha, hd⟩)

theorem withoutOver_of_dataIn {α : Type} {data : α → List Datum} {o : Option α}
    (h : WithoutOver (dataIn data o)) : ∀ a ∈ o, WithoutOver (data a) := by
  rintro a rfl
  exact h

end

@[simp] theorem two_lt_top : (2 : ℕ∞) < ⊤ := ENat.natCast_lt_top 2

namespace Expr

theorem placedLevels_lt_top {e : Expr} {level : ℕ} (h : e.inner false < ⊤) :
    e.placedLevels level e.inner false < ⊤ := by
  unfold placedLevels
  split <;> simpa using h

theorem headLevels_lt_top {e : Expr} {level : ℕ} (h : e.inner false < ⊤) :
    e.headLevels level (e.inner false) < ⊤ := by
  unfold headLevels
  split <;> simpa using h

end Expr

mutual

theorem Expr.inner_lt_top : (e : Expr) → WithoutOver e.data → e.inner false < ⊤
  | .literal _, _ | .column _, _ | .placeholder _, _ => by simp [Expr.inner]
  | .binary left op right, h => by
    rw [Expr.data, withoutOver_append] at h
    have hl := left.inner_lt_top h.1
    have hr := right.inner_lt_top h.2
    rw [Expr.inner]
    simp [Expr.headLevels_lt_top hl, Expr.placedLevels_lt_top hr]
  | .unary op operand, h => by
    rw [Expr.data] at h
    have ho := operand.inner_lt_top h
    rw [Expr.inner]
    split <;> simpa using ho
  | .between value low high _, h => by
    rw [Expr.data, withoutOver_append, withoutOver_append] at h
    have hv := value.inner_lt_top h.1.1
    have hl := low.inner_lt_top h.1.2
    have hh := high.inner_lt_top h.2
    rw [Expr.inner]
    simp [Expr.headLevels_lt_top hv, Expr.placedLevels_lt_top hl, Expr.placedLevels_lt_top hh]
  | .member value set _, h => by
    rw [Expr.data, withoutOver_append] at h
    have hv := value.inner_lt_top h.1
    have hs := set.levels_lt_top h.2
    rw [Expr.inner]
    simp [Expr.headLevels_lt_top hv, hs]
  | .like value _ pattern _, h => by
    rw [Expr.data, withoutOver_append] at h
    have hv := value.inner_lt_top h.1
    have hp := pattern.inner_lt_top h.2
    rw [Expr.inner]
    simp [Expr.headLevels_lt_top hv, Expr.placedLevels_lt_top hp]
  | .isNull value _, h => by
    rw [Expr.data] at h
    have hv := value.inner_lt_top h
    rw [Expr.inner]
    simp [Expr.headLevels_lt_top hv]
  | .cases operand arms otherwise, h => by
    simp only [Expr.data_cases, withoutOver_append] at h
    obtain ⟨⟨ho, ha⟩, he⟩ := h
    rw [Expr.inner_cases]
    refine max_lt ?_ (max_lt (CaseArm.allLevels_lt_top arms ha) ?_)
    · cases operand with
      | none => simp [levelsIn]
      | some e => simpa [levelsIn, Expr.levels] using e.inner_lt_top ho
    · cases otherwise with
      | none => simp [levelsIn]
      | some e => simpa [levelsIn, Expr.levels] using e.inner_lt_top he
  | .cast value _, h => by
    rw [Expr.data, withoutOver_append] at h
    rw [Expr.inner]
    simpa using value.inner_lt_top h.1
  | .existence query, h | .subquery query, h => by
    rw [Expr.data] at h
    rw [Expr.inner]
    exact query.levels_lt_top h
  | .call call, h => by
    rw [Expr.data] at h
    rw [Expr.inner]
    exact call.levels_lt_top h
  | .tuple items, h | .array items, h => by
    rw [Expr.data] at h
    rw [Expr.inner]
    exact Expr.allLevels_lt_top items h
  | .subscript base index, h => by
    rw [Expr.data, withoutOver_append] at h
    have hb := base.inner_lt_top h.1
    have hi := index.inner_lt_top h.2
    rw [Expr.inner]
    simp [Expr.headLevels_lt_top hb, hi]
  | .interval value unit, h => by
    rw [Expr.data, withoutOver_append, withoutOver_cons] at h
    have hv := value.inner_lt_top h.1
    have other : Word.OVER.spelledBy unit = false := h.2.1
    rw [Expr.inner, other]
    exact Expr.placedLevels_lt_top hv

theorem Expr.allLevels_lt_top : (es : List Expr) → WithoutOver (Expr.allData es) →
    Expr.allLevels es < ⊤
  | [], _ => by simp [Expr.allLevels]
  | e :: es, h => by
    rw [Expr.allData, withoutOver_append] at h
    rw [Expr.allLevels]
    simp [e.inner_lt_top h.1, Expr.allLevels_lt_top es h.2]

theorem MemberSet.levels_lt_top : (set : MemberSet) → WithoutOver set.data → set.levels < ⊤
  | .list items, h => by
    rw [MemberSet.data] at h
    rw [MemberSet.levels]
    exact Expr.allLevels_lt_top items h
  | .query query, h => by
    rw [MemberSet.data] at h
    rw [MemberSet.levels]
    exact query.levels_lt_top h

theorem CaseArm.levels_lt_top : (arm : CaseArm) → WithoutOver arm.data → arm.levels < ⊤
  | ⟨condition, result⟩, h => by
    rw [CaseArm.data, withoutOver_append] at h
    rw [CaseArm.levels]
    simp [condition.inner_lt_top h.1, result.inner_lt_top h.2]

theorem CaseArm.allLevels_lt_top : (arms : List CaseArm) →
    WithoutOver (CaseArm.allData arms) → CaseArm.allLevels arms < ⊤
  | [], _ => by simp [CaseArm.allLevels]
  | arm :: arms, h => by
    rw [CaseArm.allData, withoutOver_append] at h
    rw [CaseArm.allLevels]
    exact max_lt (arm.levels_lt_top h.1) (CaseArm.allLevels_lt_top arms h.2)

theorem Call.levels_lt_top : (call : Call) → WithoutOver call.data → call.levels false < ⊤
  | ⟨_, args, _, window⟩, h => by
    unfold Call.data at h
    rw [List.cons_append, withoutOver_cons, withoutOver_append] at h
    unfold Call.levels
    refine max_lt (args.levels_lt_top h.2.1) ?_
    cases window with
    | none => simp
    | some window => exact window.levels_lt_top h.2.2

theorem CallArgs.levels_lt_top : (args : CallArgs) → WithoutOver args.data → args.levels < ⊤
  | .star, _ => by simp [CallArgs.levels]
  | .list items, h => by
    rw [CallArgs.data] at h
    rw [CallArgs.levels]
    exact Expr.allLevels_lt_top items h

theorem Window.levels_lt_top : (window : Window) → WithoutOver window.data → window.levels < ⊤
  | ⟨partitionBy, orderBy, frame⟩, h => by
    unfold Window.data at h
    rw [withoutOver_append, withoutOver_append] at h
    unfold Window.levels
    refine max_lt (Expr.allLevels_lt_top partitionBy h.1.1)
      (max_lt (OrderItem.allLevels_lt_top orderBy h.1.2) ?_)
    cases frame with
    | none => simp
    | some frame => exact frame.levels_lt_top h.2

theorem Frame.levels_lt_top : (frame : Frame) → WithoutOver frame.data → frame.levels < ⊤
  | ⟨unit, start, finish⟩, h => by
    unfold Frame.data at h
    rw [withoutOver_append] at h
    unfold Frame.levels
    refine max_lt (start.levels_lt_top h.1) ?_
    cases finish with
    | none => simp
    | some finish => exact finish.levels_lt_top h.2

theorem FrameBound.levels_lt_top : (bound : FrameBound) → WithoutOver bound.data →
    bound.levels < ⊤
  | .unboundedPreceding, _ | .currentRow, _ | .unboundedFollowing, _ => by
    simp [FrameBound.levels]
  | .preceding offset, h | .following offset, h => by
    rw [FrameBound.data] at h
    rw [FrameBound.levels]
    exact Expr.placedLevels_lt_top (offset.inner_lt_top h)

theorem OrderItem.levels_lt_top : (item : OrderItem) → WithoutOver item.data → item.levels < ⊤
  | ⟨expr, _, _⟩, h => by
    rw [OrderItem.data] at h
    rw [OrderItem.levels]
    simpa using expr.inner_lt_top h

theorem OrderItem.allLevels_lt_top : (items : List OrderItem) →
    WithoutOver (OrderItem.allData items) → OrderItem.allLevels items < ⊤
  | [], _ => by simp [OrderItem.allLevels]
  | item :: items, h => by
    rw [OrderItem.allData, withoutOver_append] at h
    rw [OrderItem.allLevels]
    exact max_lt (item.levels_lt_top h.1) (OrderItem.allLevels_lt_top items h.2)

theorem Query.levels_lt_top : (q : Query) → WithoutOver q.data → q.levels < ⊤
  | ⟨tables, body, orderBy, limit, settings, format⟩, h => by
    simp only [Query.data_eq, withoutOver_append] at h
    obtain ⟨⟨⟨⟨⟨ht, hb⟩, ho⟩, hl⟩, hs⟩, -⟩ := h
    rw [Query.levels_eq]
    refine ENat.add_lt_top.2 ⟨ENat.one_lt_top, max_lt ?_ (max_lt (body.levels_lt_top hb)
      (max_lt (OrderItem.allLevels_lt_top orderBy ho)
        (max_lt ?_ (Setting.allLevels_lt_top settings hs))))⟩
    · cases tables with
      | none => simp [levelsIn]
      | some tables => exact tables.levels_lt_top ht
    · cases limit with
      | none => simp [levelsIn]
      | some limit => exact limit.levels_lt_top hl

theorem QueryBody.levels_lt_top : (body : QueryBody) → WithoutOver body.data → body.levels < ⊤
  | .block block, h => by
    rw [QueryBody.data] at h
    rw [QueryBody.levels]
    exact block.levels_lt_top h
  | .nested query, h => by
    rw [QueryBody.data] at h
    rw [QueryBody.levels]
    exact query.levels_lt_top h
  | .compound _ _ left right, h => by
    rw [QueryBody.data, withoutOver_append] at h
    have hl := left.levels_lt_top h.1
    have hr := right.levels_lt_top h.2
    rw [QueryBody.levels]
    simp [hl, hr]

theorem WithClause.levels_lt_top : (clause : WithClause) → WithoutOver clause.data →
    clause.levels < ⊤
  | ⟨_, tables⟩, h => by
    rw [WithClause.data] at h
    rw [WithClause.levels]
    exact CommonTable.allLevels_lt_top tables h

theorem CommonTable.levels_lt_top : (table : CommonTable) → WithoutOver table.data →
    table.levels < ⊤
  | ⟨_, _, query⟩, h => by
    rw [CommonTable.data, List.cons_append, withoutOver_cons, withoutOver_append] at h
    rw [CommonTable.levels]
    exact query.levels_lt_top h.2.2

theorem CommonTable.allLevels_lt_top : (tables : List CommonTable) →
    WithoutOver (CommonTable.allData tables) → CommonTable.allLevels tables < ⊤
  | [], _ => by simp [CommonTable.allLevels]
  | table :: tables, h => by
    rw [CommonTable.allData, withoutOver_append] at h
    rw [CommonTable.allLevels]
    exact max_lt (table.levels_lt_top h.1) (CommonTable.allLevels_lt_top tables h.2)

theorem SelectBlock.levels_lt_top : (block : SelectBlock) → WithoutOver block.data →
    block.levels < ⊤
  | ⟨_, items, source, selection, groupBy, having⟩, h => by
    simp only [SelectBlock.data_eq, withoutOver_append] at h
    obtain ⟨⟨⟨⟨hi, hf⟩, hw⟩, hg⟩, hh⟩ := h
    rw [SelectBlock.levels_eq]
    refine max_lt (SelectItem.allLevels_lt_top items hi) (max_lt ?_
      (max_lt ?_ (max_lt (Expr.allLevels_lt_top groupBy hg) ?_)))
    · cases source with
      | none => simp [levelsIn]
      | some source => exact source.levels_lt_top hf
    · cases selection with
      | none => simp [levelsIn]
      | some e => simpa [levelsIn, Expr.levels] using e.inner_lt_top hw
    · cases having with
      | none => simp [levelsIn]
      | some e => simpa [levelsIn, Expr.levels] using e.inner_lt_top hh

theorem SelectItem.levels_lt_top : (item : SelectItem) → WithoutOver item.data →
    item.levels < ⊤
  | .wildcard, _ | .tableWildcard _, _ => by simp [SelectItem.levels]
  | .expr expr _, h => by
    rw [SelectItem.data, withoutOver_append] at h
    rw [SelectItem.levels]
    simpa using expr.inner_lt_top h.1

theorem SelectItem.allLevels_lt_top : (items : List SelectItem) →
    WithoutOver (SelectItem.allData items) → SelectItem.allLevels items < ⊤
  | [], _ => by simp [SelectItem.allLevels]
  | item :: items, h => by
    rw [SelectItem.allData, withoutOver_append] at h
    rw [SelectItem.allLevels]
    exact max_lt (item.levels_lt_top h.1) (SelectItem.allLevels_lt_top items h.2)

theorem FromClause.levels_lt_top : (source : FromClause) → WithoutOver source.data →
    source.levels < ⊤
  | ⟨relation, joins⟩, h => by
    rw [FromClause.data, withoutOver_append] at h
    rw [FromClause.levels]
    exact max_lt (relation.levels_lt_top h.1) (Join.allLevels_lt_top joins h.2)

theorem Relation.levels_lt_top : (relation : Relation) → WithoutOver relation.data →
    relation.levels < ⊤
  | .table _ _, _ => by simp [Relation.levels]
  | .function _ args _, h => by
    rw [Relation.data, List.cons_append, withoutOver_cons, withoutOver_append] at h
    rw [Relation.levels]
    exact Expr.allLevels_lt_top args h.2.1
  | .derived query _, h => by
    rw [Relation.data, withoutOver_append] at h
    rw [Relation.levels]
    exact query.levels_lt_top h.1

theorem Join.levels_lt_top : (join : Join) → WithoutOver join.data → join.levels < ⊤
  | ⟨_, relation, constraint⟩, h => by
    unfold Join.data at h
    rw [withoutOver_append] at h
    unfold Join.levels
    refine max_lt (relation.levels_lt_top h.1) ?_
    cases constraint with
    | none => simp
    | some constraint => exact constraint.levels_lt_top h.2

theorem Join.allLevels_lt_top : (joins : List Join) → WithoutOver (Join.allData joins) →
    Join.allLevels joins < ⊤
  | [], _ => by simp [Join.allLevels]
  | join :: joins, h => by
    rw [Join.allData, withoutOver_append] at h
    rw [Join.allLevels]
    exact max_lt (join.levels_lt_top h.1) (Join.allLevels_lt_top joins h.2)

theorem JoinConstraint.levels_lt_top : (constraint : JoinConstraint) →
    WithoutOver constraint.data → constraint.levels < ⊤
  | .on condition, h => by
    rw [JoinConstraint.data] at h
    rw [JoinConstraint.levels]
    simpa using condition.inner_lt_top h
  | .using _, _ => by simp [JoinConstraint.levels]

theorem Limit.levels_lt_top : (limit : Limit) → WithoutOver limit.data → limit.levels < ⊤
  | ⟨count, offset⟩, h => by
    unfold Limit.data at h
    rw [withoutOver_append] at h
    rw [Limit.levels_eq]
    refine max_lt (by simpa [Expr.levels] using count.inner_lt_top h.1) ?_
    cases offset with
    | none => simp [levelsIn]
    | some e => simpa [levelsIn, Expr.levels] using e.inner_lt_top h.2

theorem Setting.levels_lt_top : (setting : Setting) → WithoutOver setting.data →
    setting.levels < ⊤
  | ⟨_, value⟩, h => by
    rw [Setting.data, withoutOver_cons] at h
    rw [Setting.levels]
    simpa using value.inner_lt_top h.2

theorem Setting.allLevels_lt_top : (settings : List Setting) →
    WithoutOver (Setting.allData settings) → Setting.allLevels settings < ⊤
  | [], _ => by simp [Setting.allLevels]
  | setting :: settings, h => by
    rw [Setting.allData, withoutOver_append] at h
    rw [Setting.allLevels]
    exact max_lt (setting.levels_lt_top h.1) (Setting.allLevels_lt_top settings h.2)

end

/-! ### Statements -/

theorem greatest_lt_top {α : Type} {levels : α → ℕ∞} {as : List α}
    (h : ∀ a ∈ as, levels a < ⊤) : greatest levels as < ⊤ := by
  induction as with
  | nil => simp [greatest]
  | cons a as ih =>
    rw [List.forall_mem_cons] at h
    exact max_lt h.1 (ih h.2)

theorem levelsIn_lt_top {α : Type} {levels : α → ℕ∞} {o : Option α}
    (h : ∀ a ∈ o, levels a < ⊤) : levelsIn levels o < ⊤ := by
  cases o with
  | none => simp [levelsIn]
  | some a => exact h a rfl

theorem Expr.levels_lt_top {e : Expr} (h : WithoutOver e.data) : e.levels false < ⊤ := by
  simpa [Expr.levels] using e.inner_lt_top h

theorem Expr.greatest_lt_top {es : List Expr} (h : WithoutOver (Expr.allData es)) :
    greatest (Expr.levels false) es < ⊤ := by
  rw [← Expr.allLevels_eq]
  exact Expr.allLevels_lt_top es h

theorem Expr.levelsIn_lt_top {o : Option Expr} (h : WithoutOver (dataIn Expr.data o)) :
    levelsIn (Expr.levels false) o < ⊤ :=
  CanonicalSql.levelsIn_lt_top fun e he => Expr.levels_lt_top (withoutOver_of_dataIn h e he)

theorem Setting.greatest_lt_top {settings : List Setting}
    (h : WithoutOver (Setting.allData settings)) : greatest Setting.levels settings < ⊤ := by
  rw [← Setting.allLevels_eq]
  exact Setting.allLevels_lt_top settings h

theorem InsertSource.levels_lt_top {source : InsertSource} (h : WithoutOver source.data) :
    source.levels < ⊤ := by
  cases source with
  | values rows =>
    exact CanonicalSql.greatest_lt_top fun row hr =>
      Expr.greatest_lt_top (withoutOver_of_flatMap h row hr)
  | query q => exact q.levels_lt_top h

theorem Assignment.greatest_lt_top {assignments : List Assignment}
    (h : WithoutOver (assignments.flatMap Assignment.data)) :
    greatest Assignment.levels assignments < ⊤ := by
  refine CanonicalSql.greatest_lt_top fun a ha => ?_
  have value := withoutOver_of_flatMap h a ha
  rw [Assignment.data, withoutOver_cons] at value
  exact Expr.levels_lt_top value.2

theorem ColumnOption.levels_lt_top {option : ColumnOption} (h : WithoutOver option.data) :
    option.levels < ⊤ := by
  cases option with
  | default value | materialized value | computed value => exact Expr.levels_lt_top h
  | check condition => simpa [ColumnOption.levels] using Expr.levels_lt_top h
  | _ => simp [ColumnOption.levels]

theorem ColumnDefinition.levels_lt_top {c : ColumnDefinition} (h : WithoutOver c.data) :
    c.levels < ⊤ := by
  rw [ColumnDefinition.data, withoutOver_append] at h
  exact CanonicalSql.greatest_lt_top fun option ho =>
    ColumnOption.levels_lt_top (withoutOver_of_flatMap h.2 option ho)

theorem TableElement.levels_lt_top {element : TableElement} (h : WithoutOver element.data) :
    element.levels < ⊤ := by
  cases element with
  | column c => exact c.levels_lt_top h
  | constraint c =>
    obtain ⟨name, kind⟩ := c
    rw [TableElement.data, withoutOver_append] at h
    cases kind with
    | check condition => simpa [TableElement.levels] using Expr.levels_lt_top h.2
    | _ => simp [TableElement.levels]

theorem Engine.levelsIn_lt_top {engine : Option Engine}
    (h : WithoutOver (dataIn Engine.data engine)) : levelsIn Engine.levels engine < ⊤ := by
  refine CanonicalSql.levelsIn_lt_top fun e he => CanonicalSql.levelsIn_lt_top fun args ha => ?_
  have data := withoutOver_of_dataIn h e he
  rw [Engine.data, withoutOver_cons] at data
  exact Expr.greatest_lt_top (withoutOver_of_dataIn data.2 args ha)

theorem CreateTable.levels_lt_top {c : CreateTable} (h : WithoutOver c.data) : c.levels < ⊤ := by
  unfold CreateTable.data at h
  simp only [withoutOver_append] at h
  obtain ⟨⟨⟨⟨⟨⟨⟨⟨-, elements⟩, engine⟩, partitionBy⟩, primaryKey⟩, orderBy⟩, settings⟩, -⟩, query⟩ := h
  unfold CreateTable.levels
  refine max_lt ?_ (max_lt (Engine.levelsIn_lt_top engine)
    (max_lt (Expr.levelsIn_lt_top partitionBy) (max_lt (Expr.levelsIn_lt_top primaryKey)
      (max_lt (Expr.levelsIn_lt_top orderBy) (max_lt (Setting.greatest_lt_top settings) ?_)))))
  · exact CanonicalSql.greatest_lt_top fun element he =>
      TableElement.levels_lt_top (withoutOver_of_flatMap elements element he)
  · exact levelsIn_lt_top fun q hq => q.levels_lt_top (withoutOver_of_dataIn query q hq)

theorem AlterAction.levels_lt_top {action : AlterAction} (h : WithoutOver action.data) :
    action.levels < ⊤ := by
  cases action with
  | addColumn _ column _ => exact column.levels_lt_top (withoutOver_append.1 h).1
  | modifyColumn _ column => exact column.levels_lt_top h
  | addConstraint _ _ check =>
    simpa [AlterAction.levels] using Expr.levels_lt_top (withoutOver_cons.1 h).2
  | delete selection => exact Expr.levels_lt_top h
  | update assignments selection =>
    rw [AlterAction.data, withoutOver_append] at h
    exact max_lt (Assignment.greatest_lt_top h.1) (Expr.levels_lt_top h.2)
  | _ => simp [AlterAction.levels]

/-- A statement without an interval in the unit `OVER` can be read back with some number of
levels. -/
theorem Statement.levels_lt_top {statement : Statement} (h : WithoutOver statement.data) :
    statement.levels < ⊤ := by
  induction statement with
  | select q => exact q.levels_lt_top h
  | insert i => exact i.source.levels_lt_top (withoutOver_append.1 h).2
  | update u =>
    rw [Statement.data, Update.data, withoutOver_append, withoutOver_append] at h
    exact max_lt (Assignment.greatest_lt_top h.1.2) (Expr.levelsIn_lt_top h.2)
  | delete d => exact Expr.levelsIn_lt_top (withoutOver_append.1 h).2
  | createTable c => exact c.levels_lt_top h
  | createView c => exact c.query.levels_lt_top (withoutOver_append.1 h).2
  | createIndex c =>
    rw [Statement.data, CreateIndex.data, withoutOver_append] at h
    exact greatest_lt_top fun column hc =>
      Expr.levels_lt_top (withoutOver_of_flatMap h.2 column hc)
  | createDatabase c => exact Engine.levelsIn_lt_top (withoutOver_append.1 h).2
  | alterTable a =>
    rw [Statement.data, AlterTable.data, withoutOver_append] at h
    exact greatest_lt_top fun action ha =>
      AlterAction.levels_lt_top (withoutOver_of_flatMap h.2 action ha)
  | changeSettings settings => exact Setting.greatest_lt_top h
  | explain stage statement ih => simpa [Statement.levels] using ih h
  | _ => simp [Statement.levels]

end CanonicalSql
