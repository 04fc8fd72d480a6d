import CanonicalSql.Proofs.Coherent.Statement
import CanonicalSql.Proofs.Data.Statement
import CanonicalSql.Proofs.WellFormed

/-! The canonical text of a tree can be read back piece by piece if the data that it prints as they are
have the right form.  Those of a well-formed tree have. -/

namespace CanonicalSql

theorem Piece.legible_of_datum? {p : Piece} (h : ∀ d ∈ p.datum?, d.Legible) : p.Legible := by
  cases p with
  | unit u => exact h (.unit u) rfl
  | number t => exact h (.number t) rfl
  | placeholder p => exact h (.placeholder p) rfl
  | _ => trivial

/-- Pieces that are apart and show legible data are printable. -/
theorem printable_of_data {ps : List Piece} (h : ∀ d ∈ Piece.data ps, d.Legible) (apart : Apart ps) :
    Printable ps := by
  refine ⟨fun p hp => Piece.legible_of_datum? fun d hd => h d ?_, apart⟩
  exact List.mem_filterMap.2 ⟨p, hp, hd⟩

/-- Whether all data are proper. -/
def AllProper (ds : List Datum) : Prop := ∀ d ∈ ds, d.Proper

section

variable {d : Datum} {ds es : List Datum}

@[simp] theorem allProper_nil : AllProper [] := List.forall_mem_nil _

@[simp] theorem allProper_cons : AllProper (d :: ds) ↔ d.Proper ∧ AllProper ds :=
  List.forall_mem_cons

@[simp] theorem allProper_append : AllProper (ds ++ es) ↔ AllProper ds ∧ AllProper es :=
  List.forall_mem_append

theorem allProper_flatMap {α : Type} {data : α → List Datum} {as : List α}
    (h : ∀ a ∈ as, AllProper (data a)) : AllProper (as.flatMap data) := by
  intro d hd
  obtain ⟨a, ha, hd⟩ := List.mem_flatMap.1 hd
  exact h a ha d hd

theorem allProper_dataIn {α : Type} {data : α → List Datum} {o : Option α}
    (h : ∀ a ∈ o, AllProper (data a)) : AllProper (dataIn data o) := by
  cases o with
  | none => exact allProper_nil
  | some a => exact h a rfl

@[simp] theorem proper_name (n : String) : (Datum.name n).Proper := trivial
@[simp] theorem proper_functionName (n : String) : (Datum.functionName n).Proper := trivial
@[simp] theorem proper_label (n : String) : (Datum.label n).Proper := trivial
@[simp] theorem proper_string (v : String) : (Datum.string v).Proper := trivial

@[simp] theorem allProper_nameData (n : Option String) : AllProper (nameData n) :=
  allProper_dataIn fun n _ => by simp

@[simp] theorem allProper_namesData (ns : List String) : AllProper (namesData ns) := by
  simp [namesData, AllProper]

end

@[simp] theorem QualifiedName.proper (n : QualifiedName) : AllProper n.data := by
  simp [QualifiedName.data]

@[simp] theorem ColumnRef.proper (c : ColumnRef) : AllProper c.data := by
  simp [ColumnRef.data, allProper_dataIn]

/-! ### Types, expressions and queries -/

mutual

theorem DataType.proper : (type : DataType) → type.WellFormed → AllProper type.data
  | ⟨name, args⟩, h => by
    rw [DataType.WellFormed] at h
    simp [DataType.data, DataTypeArg.proper_all args h]

theorem DataTypeArg.proper : (arg : DataTypeArg) → arg.WellFormed → AllProper arg.data
  | .number t, h => by
    rw [DataTypeArg.WellFormed] at h
    simpa [DataTypeArg.data, Datum.Proper, Datum.Legible] using h
  | .string value, _ => by simp [DataTypeArg.data]
  | .type type, h => by
    rw [DataTypeArg.WellFormed] at h
    simpa [DataTypeArg.data] using type.proper h

theorem DataTypeArg.proper_all : (args : List DataTypeArg) → DataTypeArg.AllWellFormed args →
    AllProper (DataTypeArg.allData args)
  | [], _ => by simp [DataTypeArg.allData]
  | arg :: args, h => by
    rw [DataTypeArg.AllWellFormed] at h
    simp [DataTypeArg.allData, arg.proper h.1, DataTypeArg.proper_all args h.2]

end

mutual

theorem Expr.proper : (e : Expr) → e.WellFormed → AllProper e.data
  | .literal value, h => by
    rw [Expr.WellFormed] at h
    cases value with
    | number t => simpa [Expr.data, Literal.data, Datum.Proper, Datum.Legible, Literal.WellFormed] using h
    | _ => simp [Expr.data, Literal.data]
  | .column column, _ => by simp [Expr.data]
  | .placeholder p, h => by
    rw [Expr.WellFormed] at h
    simpa [Expr.data, Datum.Proper, Datum.Legible] using h
  | .binary left _ right, h => by
    rw [Expr.WellFormed] at h
    simp [Expr.data, left.proper h.1, right.proper h.2]
  | .unary _ operand, h => by
    rw [Expr.WellFormed] at h
    simp [Expr.data, operand.proper h]
  | .between value low high _, h => by
    rw [Expr.WellFormed] at h
    simp [Expr.data, value.proper h.1, low.proper h.2.1, high.proper h.2.2]
  | .member value set _, h => by
    rw [Expr.WellFormed] at h
    simp [Expr.data, value.proper h.1, set.proper h.2]
  | .like value _ pattern _, h => by
    rw [Expr.WellFormed] at h
    simp [Expr.data, value.proper h.1, pattern.proper h.2]
  | .isNull value _, h => by
    rw [Expr.WellFormed] at h
    simp [Expr.data, value.proper h]
  | .cases operand arms otherwise, h => by
    unfold Expr.WellFormed at h
    obtain ⟨ho, -, ha, he⟩ := h
    have branches := CaseArm.proper_all arms ha
    rw [Expr.data_cases, allProper_append, allProper_append]
    refine ⟨⟨?_, branches⟩, ?_⟩
    · cases operand with
      | none => exact allProper_nil
      | some e => exact e.proper ho
    · cases otherwise with
      | none => exact allProper_nil
      | some e => exact e.proper he
  | .cast value type, h => by
    rw [Expr.WellFormed] at h
    simp [Expr.data, value.proper h.1, type.proper h.2]
  | .existence query, h => by
    rw [Expr.WellFormed] at h
    simp [Expr.data, query.proper h]
  | .subquery query, h => by
    rw [Expr.WellFormed] at h
    simp [Expr.data, query.proper h.1]
  | .call call, h => by
    rw [Expr.WellFormed] at h
    simp [Expr.data, call.proper h]
  | .tuple items, h => by
    rw [Expr.WellFormed] at h
    simp [Expr.data, Expr.proper_all items h.2]
  | .array items, h => by
    rw [Expr.WellFormed] at h
    simp [Expr.data, Expr.proper_all items h]
  | .subscript base index, h => by
    rw [Expr.WellFormed] at h
    simp [Expr.data, base.proper h.1, index.proper h.2]
  | .interval value unit, h => by
    rw [Expr.WellFormed] at h
    have written : (Datum.unit unit).Proper := h.2
    simp [Expr.data, value.proper h.1, written]

theorem Expr.proper_all : (es : List Expr) → Expr.AllWellFormed es → AllProper (Expr.allData es)
  | [], _ => by simp [Expr.allData]
  | e :: es, h => by
    rw [Expr.AllWellFormed] at h
    simp [Expr.allData, e.proper h.1, Expr.proper_all es h.2]

theorem MemberSet.proper : (set : MemberSet) → set.WellFormed → AllProper set.data
  | .list items, h => by
    rw [MemberSet.WellFormed] at h
    simp [MemberSet.data, Expr.proper_all items h.2]
  | .query query, h => by
    rw [MemberSet.WellFormed] at h
    simp [MemberSet.data, query.proper h.1]

theorem CaseArm.proper : (arm : CaseArm) → arm.WellFormed → AllProper arm.data
  | ⟨condition, result⟩, h => by
    rw [CaseArm.WellFormed] at h
    simp [CaseArm.data, condition.proper h.1, result.proper h.2]

theorem CaseArm.proper_all : (arms : List CaseArm) → CaseArm.AllWellFormed arms →
    AllProper (CaseArm.allData arms)
  | [], _ => by simp [CaseArm.allData]
  | arm :: arms, h => by
    rw [CaseArm.AllWellFormed] at h
    simp [CaseArm.allData, arm.proper h.1, CaseArm.proper_all arms h.2]

theorem Call.proper : (call : Call) → call.WellFormed → AllProper call.data
  | ⟨function, args, distinct, window⟩, h => by
    unfold Call.WellFormed at h
    unfold Call.data
    cases window with
    | none => simp [args.proper h.1]
    | some window => simp [args.proper h.1, window.proper h.2]

theorem CallArgs.proper {distinct : Bool} : (args : CallArgs) → args.WellFormed distinct →
    AllProper args.data
  | .star, _ => by simp [CallArgs.data]
  | .list items, h => by
    rw [CallArgs.WellFormed] at h
    simp [CallArgs.data, Expr.proper_all items h.2]

theorem Window.proper : (window : Window) → window.WellFormed → AllProper window.data
  | ⟨partitionBy, orderBy, frame⟩, h => by
    unfold Window.WellFormed at h
    have partitions := Expr.proper_all partitionBy h.1
    have terms := OrderItem.proper_all orderBy h.2.1
    unfold Window.data
    cases frame with
    | none => simp [partitions, terms]
    | some frame => simp [partitions, terms, frame.proper h.2.2]

theorem Frame.proper : (frame : Frame) → frame.WellFormed → AllProper frame.data
  | ⟨unit, start, finish⟩, h => by
    unfold Frame.WellFormed at h
    unfold Frame.data
    cases finish with
    | none => simp [start.proper h.1]
    | some finish => simp [start.proper h.1, finish.proper h.2]

theorem FrameBound.proper : (bound : FrameBound) → bound.WellFormed → AllProper bound.data
  | .unboundedPreceding, _ | .currentRow, _ | .unboundedFollowing, _ => by simp [FrameBound.data]
  | .preceding offset, h | .following offset, h => by
    rw [FrameBound.WellFormed] at h
    simp [FrameBound.data, offset.proper h]

theorem OrderItem.proper : (item : OrderItem) → item.WellFormed → AllProper item.data
  | ⟨expr, _, _⟩, h => by
    rw [OrderItem.WellFormed] at h
    simp [OrderItem.data, expr.proper h]

theorem OrderItem.proper_all : (items : List OrderItem) → OrderItem.AllWellFormed items →
    AllProper (OrderItem.allData items)
  | [], _ => by simp [OrderItem.allData]
  | item :: items, h => by
    rw [OrderItem.AllWellFormed] at h
    simp [OrderItem.allData, item.proper h.1, OrderItem.proper_all items h.2]

theorem Query.proper : (q : Query) → q.WellFormed → AllProper q.data
  | ⟨tables, body, orderBy, limit, settings, format⟩, h => by
    obtain ⟨ht, hb, ho, hl, hs⟩ := Query.wellFormed_iff.1 h
    simp only [Query.data_eq, allProper_append]
    refine ⟨⟨⟨⟨⟨?_, body.proper hb⟩,
      OrderItem.proper_all orderBy (OrderItem.allWellFormed_iff.2 ho)⟩, ?_⟩,
      Setting.proper_all settings (Setting.allWellFormed_iff.2 hs)⟩,
      allProper_dataIn fun f _ => by simp⟩
    · cases tables with
      | none => exact allProper_nil
      | some tables => exact tables.proper (ht tables rfl)
    · cases limit with
      | none => exact allProper_nil
      | some limit => exact limit.proper (hl limit rfl)

theorem QueryBody.proper : (body : QueryBody) → body.WellFormed → AllProper body.data
  | .block block, h => by
    rw [QueryBody.WellFormed] at h
    simp [QueryBody.data, block.proper h]
  | .nested query, h => by
    rw [QueryBody.WellFormed] at h
    simp [QueryBody.data, query.proper h]
  | .compound _ _ left right, h => by
    rw [QueryBody.WellFormed] at h
    simp [QueryBody.data, left.proper h.1, right.proper h.2.1]

theorem WithClause.proper : (clause : WithClause) → clause.WellFormed → AllProper clause.data
  | ⟨_, tables⟩, h => by
    rw [WithClause.WellFormed] at h
    simp [WithClause.data, CommonTable.proper_all tables h.2]

theorem CommonTable.proper : (table : CommonTable) → table.WellFormed → AllProper table.data
  | ⟨_, _, query⟩, h => by
    rw [CommonTable.WellFormed] at h
    simp [CommonTable.data, query.proper h]

theorem CommonTable.proper_all : (tables : List CommonTable) →
    CommonTable.AllWellFormed tables → AllProper (CommonTable.allData tables)
  | [], _ => by simp [CommonTable.allData]
  | table :: tables, h => by
    rw [CommonTable.AllWellFormed] at h
    simp [CommonTable.allData, table.proper h.1, CommonTable.proper_all tables h.2]

theorem SelectBlock.proper : (block : SelectBlock) → block.WellFormed → AllProper block.data
  | ⟨_, items, source, selection, groupBy, having⟩, h => by
    obtain ⟨-, hi, hf, hw, hg, hh⟩ := SelectBlock.wellFormed_iff.1 h
    simp only [SelectBlock.data_eq, allProper_append]
    refine ⟨⟨⟨⟨SelectItem.proper_all items (SelectItem.allWellFormed_iff.2 hi), ?_⟩, ?_⟩,
      Expr.proper_all groupBy (Expr.allWellFormed_iff.2 hg)⟩, ?_⟩
    · cases source with
      | none => exact allProper_nil
      | some source => exact source.proper (hf source rfl)
    · cases selection with
      | none => exact allProper_nil
      | some e => exact e.proper (hw e rfl)
    · cases having with
      | none => exact allProper_nil
      | some e => exact e.proper (hh e rfl)

theorem SelectItem.proper : (item : SelectItem) → item.WellFormed → AllProper item.data
  | .wildcard, _ => by simp [SelectItem.data]
  | .tableWildcard table, _ => by simp [SelectItem.data]
  | .expr expr _, h => by
    rw [SelectItem.WellFormed] at h
    simp [SelectItem.data, expr.proper h]

theorem SelectItem.proper_all : (items : List SelectItem) → SelectItem.AllWellFormed items →
    AllProper (SelectItem.allData items)
  | [], _ => by simp [SelectItem.allData]
  | item :: items, h => by
    rw [SelectItem.AllWellFormed] at h
    simp [SelectItem.allData, item.proper h.1, SelectItem.proper_all items h.2]

theorem FromClause.proper : (source : FromClause) → source.WellFormed → AllProper source.data
  | ⟨relation, joins⟩, h => by
    rw [FromClause.WellFormed] at h
    simp [FromClause.data, relation.proper h.1, Join.proper_all joins h.2]

theorem Relation.proper : (relation : Relation) → relation.WellFormed → AllProper relation.data
  | .table table _, _ => by simp [Relation.data]
  | .function _ args _, h => by
    rw [Relation.WellFormed] at h
    simp [Relation.data, Expr.proper_all args h]
  | .derived query _, h => by
    rw [Relation.WellFormed] at h
    simp [Relation.data, query.proper h]

theorem Join.proper : (join : Join) → join.WellFormed → AllProper join.data
  | ⟨_, relation, constraint⟩, h => by
    unfold Join.WellFormed at h
    unfold Join.data
    cases constraint with
    | none => simp [relation.proper h.1]
    | some constraint => simp [relation.proper h.1, constraint.proper h.2.2]

theorem Join.proper_all : (joins : List Join) → Join.AllWellFormed joins →
    AllProper (Join.allData joins)
  | [], _ => by simp [Join.allData]
  | join :: joins, h => by
    rw [Join.AllWellFormed] at h
    simp [Join.allData, join.proper h.1, Join.proper_all joins h.2]

theorem JoinConstraint.proper : (constraint : JoinConstraint) → constraint.WellFormed →
    AllProper constraint.data
  | .on condition, h => by
    rw [JoinConstraint.WellFormed] at h
    simp [JoinConstraint.data, condition.proper h]
  | .using _, _ => by simp [JoinConstraint.data]

theorem Limit.proper : (limit : Limit) → limit.WellFormed → AllProper limit.data
  | ⟨count, offset⟩, h => by
    unfold Limit.WellFormed at h
    unfold Limit.data
    cases offset with
    | none => simp [count.proper h.1]
    | some e => simp [count.proper h.1, e.proper h.2]

theorem Setting.proper : (setting : Setting) → setting.WellFormed → AllProper setting.data
  | ⟨_, value⟩, h => by
    rw [Setting.WellFormed] at h
    simp [Setting.data, value.proper h]

theorem Setting.proper_all : (settings : List Setting) → Setting.AllWellFormed settings →
    AllProper (Setting.allData settings)
  | [], _ => by simp [Setting.allData]
  | setting :: settings, h => by
    rw [Setting.AllWellFormed] at h
    simp [Setting.allData, setting.proper h.1, Setting.proper_all settings h.2]

end

/-! ### Statements -/

theorem Expr.proper_each {es : List Expr} (h : ∀ e ∈ es, e.WellFormed) :
    AllProper (Expr.allData es) :=
  Expr.proper_all es (Expr.allWellFormed_iff.2 h)

theorem Expr.proper_option {o : Option Expr} (h : ∀ e ∈ o, e.WellFormed) :
    AllProper (dataIn Expr.data o) :=
  allProper_dataIn fun e he => e.proper (h e he)

theorem Setting.proper_each {settings : List Setting}
    (h : ∀ setting ∈ settings, setting.value.WellFormed) : AllProper (Setting.allData settings) :=
  Setting.proper_all settings
    (Setting.allWellFormed_iff.2 fun setting hs => Setting.wellFormed_iff.2 (h setting hs))

theorem Assignment.proper_each {assignments : List Assignment}
    (h : ∀ a ∈ assignments, a.value.WellFormed) :
    AllProper (assignments.flatMap Assignment.data) :=
  allProper_flatMap fun a ha => by simp [Assignment.data, a.value.proper (h a ha)]

theorem InsertSource.proper {source : InsertSource} (h : source.WellFormed) :
    AllProper source.data := by
  cases source with
  | values rows => exact allProper_flatMap fun row hr => Expr.proper_each (h.2 row hr).2
  | query q => exact q.proper h

theorem ForeignReference.proper (r : ForeignReference) : AllProper r.data := by
  simp [ForeignReference.data]

theorem ColumnOption.proper {option : ColumnOption} (h : option.WellFormed) :
    AllProper option.data := by
  cases option with
  | default value | materialized value | computed value | check value => exact value.proper h
  | references target => exact target.proper
  | _ => simp [ColumnOption.data]

theorem ColumnDefinition.proper {c : ColumnDefinition} (h : c.WellFormed) :
    AllProper c.data := by
  have type : AllProper (dataIn DataType.data c.type) :=
    allProper_dataIn fun type ht => type.proper (h.1 type ht)
  have options : AllProper (c.options.flatMap ColumnOption.data) :=
    allProper_flatMap fun option ho => ColumnOption.proper (h.2 option ho)
  simp [ColumnDefinition.data, type, options]

theorem TableElement.proper {element : TableElement} (h : element.WellFormed) :
    AllProper element.data := by
  cases element with
  | column c => exact ColumnDefinition.proper h
  | constraint c =>
    obtain ⟨name, demand⟩ := c
    cases demand with
    | check condition => simp [TableElement.data, ConstraintKind.data, condition.proper h]
    | foreignKey columns target =>
      simp [TableElement.data, ConstraintKind.data, target.proper]
    | _ => simp [TableElement.data, ConstraintKind.data]

theorem Engine.proper {engine : Option Engine} (h : ∀ e ∈ engine, e.WellFormed) :
    AllProper (dataIn Engine.data engine) := by
  refine allProper_dataIn fun e he => ?_
  have args : AllProper (dataIn Expr.allData e.args) :=
    allProper_dataIn fun args ha => Expr.proper_each (h e he args ha)
  simp [Engine.data, args]

theorem CreateTable.proper {c : CreateTable} (h : c.WellFormed) : AllProper c.data := by
  obtain ⟨elements, engine, partitionBy, primaryKey, orderBy, settings, query, -⟩ := h
  have columns : AllProper (c.elements.flatMap TableElement.data) :=
    allProper_flatMap fun element he => TableElement.proper (elements element he)
  have comment : AllProper (dataIn (fun text => [.string text]) c.comment) :=
    allProper_dataIn fun text _ => by simp
  have source : AllProper (dataIn Query.data c.query) :=
    allProper_dataIn fun q hq => q.proper (query q hq)
  simp [CreateTable.data, columns, comment, source, Engine.proper engine,
    Expr.proper_option partitionBy, Expr.proper_option primaryKey, Expr.proper_option orderBy,
    Setting.proper_each settings]

theorem AlterAction.proper {action : AlterAction} (h : action.WellFormed) :
    AllProper action.data := by
  cases action with
  | addColumn ifNotExists column place =>
    have printed := ColumnDefinition.proper h
    rcases place with _ | _ | _ <;> simp [AlterAction.data, ColumnPlace.data, dataIn, printed]
  | modifyColumn ifExists column => exact ColumnDefinition.proper h
  | addConstraint ifNotExists name check => simp [AlterAction.data, check.proper h]
  | delete selection => exact selection.proper h
  | update assignments selection =>
    simp [AlterAction.data, Assignment.proper_each h.2.1, selection.proper h.2.2]
  | _ => simp [AlterAction.data]

/-- The data of a well-formed statement are proper. -/
theorem Statement.proper {statement : Statement} (h : statement.WellFormed) :
    AllProper statement.data := by
  induction statement with
  | select q => exact q.proper h
  | insert i => simp [Statement.data, Insert.data, InsertSource.proper h.1]
  | update u =>
    simp [Statement.data, Update.data, Assignment.proper_each h.2.1, Expr.proper_option h.2.2]
  | delete d => simp [Statement.data, Delete.data, Expr.proper_option h]
  | createTable c => exact CreateTable.proper h
  | createView c =>
    have query : c.query.WellFormed := h
    simp [Statement.data, CreateView.data, c.query.proper query, allProper_dataIn]
  | createIndex c =>
    have columns : AllProper (c.columns.flatMap fun column => column.expr.data) :=
      allProper_flatMap fun column hc => column.expr.proper (h.2 column hc)
    simp [Statement.data, CreateIndex.data, columns]
  | createDatabase c => simp [Statement.data, CreateDatabase.data, Engine.proper h]
  | alterTable a =>
    have actions : AllProper (a.actions.flatMap AlterAction.data) :=
      allProper_flatMap fun action ha => AlterAction.proper (h.2 action ha)
    simp [Statement.data, AlterTable.data, actions]
  | drop d => simp [Statement.data, allProper_flatMap]
  | rename r => simp [Statement.data, Rename.data, allProper_flatMap]
  | changeSettings settings => exact Setting.proper_each h.2
  | listing l =>
    cases l with
    | tables database pattern =>
      simp [Statement.data, Listing.data, allProper_dataIn]
    | _ => simp [Statement.data, Listing.data]
  | explain stage statement ih => exact ih h
  | _ => simp [Statement.data]

/-! ### Printed trees -/

theorem Datum.legible_of_proper {d : Datum} (h : d.Proper) : d.Legible := by
  cases d with
  | unit u => exact h.1
  | _ => exact h

theorem AllProper.legible {ds : List Datum} (h : AllProper ds) : ∀ d ∈ ds, d.Legible :=
  fun d hd => Datum.legible_of_proper (h d hd)

theorem Expr.printable {e : Expr} (h : e.WellFormed) : Printable e.pieces :=
  printable_of_data (by rw [e.data_pieces]; exact (e.proper h).legible) e.coherent.1

theorem Statement.printable {statement : Statement} (h : ∀ d ∈ statement.data, d.Legible) :
    Printable statement.pieces :=
  printable_of_data (by rwa [statement.data_pieces]) statement.coherent.1

theorem data_documentPieces (statements : List Statement) :
    Piece.data (documentPieces statements) = statements.flatMap Statement.data := by
  induction statements with
  | nil => rfl
  | cons statement statements ih =>
    rw [documentPieces] at ih ⊢
    simp [ih, statement.data_pieces]

theorem printable_documentPieces {statements : List Statement}
    (h : ∀ statement ∈ statements, statement.WellFormed) :
    Printable (documentPieces statements) := by
  refine printable_of_data (AllProper.legible ?_) (apart_documentPieces statements)
  rw [data_documentPieces]
  exact allProper_flatMap fun statement hs => Statement.proper (h statement hs)

end CanonicalSql
