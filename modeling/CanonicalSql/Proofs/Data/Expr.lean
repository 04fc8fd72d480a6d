import CanonicalSql.Proofs.Data.Piece

/-! A printed expression or query shows its data, all of them and each once, in their order. -/

namespace CanonicalSql

theorem QualifiedName.data_pieces (n : QualifiedName) : Piece.data n.pieces = n.data := by
  obtain ⟨database, name⟩ := n
  cases database <;> rfl

theorem ColumnRef.data_pieces (c : ColumnRef) : Piece.data c.pieces = c.data := by
  obtain ⟨table, column⟩ := c
  cases table with
  | none => rfl
  | some table => simp [ColumnRef.pieces, ColumnRef.data, dataIn, table.data_pieces]

theorem Literal.data_piece (l : Literal) : Piece.data [l.piece] = l.data := by
  rcases l with _ | _ | ⟨_ | _⟩ | _ <;> rfl

/-! ### Fixed words -/

@[simp] theorem data_binaryOp (op : BinaryOp) : Piece.data [op.piece] = [] := by
  cases op <;> rfl

@[simp] theorem data_unaryOp (op : UnaryOp) : Piece.data op.pieces = [] := by
  cases op <;> rfl

@[simp] theorem data_testWords (negated : Bool) (test : Piece) :
    Piece.data (testWords negated test) = Piece.data [test] := by
  simp [testWords]

@[simp] theorem data_likeOp (op : LikeOp) : Piece.data [op.piece] = [] := by
  cases op <;> rfl

@[simp] theorem data_frameUnit (unit : FrameUnit) (ps : List Piece) :
    Piece.data (unit.piece :: ps) = Piece.data ps := by
  cases unit <;> rfl

@[simp] theorem data_setOp (op : SetOp) (ps : List Piece) :
    Piece.data (op.piece :: ps) = Piece.data ps := by
  cases op <;> rfl

@[simp] theorem data_quantifier (quantifier : SetQuantifier) : Piece.data quantifier.pieces = [] := by
  cases quantifier <;> rfl

@[simp] theorem data_sortDirection (direction : Option SortDirection) :
    Piece.data (SortDirection.clause direction) = [] := by
  rcases direction with _ | _ | _ <;> rfl

@[simp] theorem data_nullsOrder (nulls : Option NullsOrder) :
    Piece.data (NullsOrder.clause nulls) = [] := by
  rcases nulls with _ | _ | _ <;> rfl

@[simp] theorem data_joinKind (kind : JoinKind) : Piece.data kind.pieces = [] := by
  cases kind <;> rfl

theorem data_intercalate_space (parts : List (List Piece)) :
    Piece.data (List.intercalate [.space] parts) = parts.flatMap Piece.data := by
  induction parts with
  | nil => rfl
  | cons part parts ih => cases parts <;> simp_all [List.intercalate]

/-! ### Types, expressions and queries -/

mutual

theorem DataType.data_pieces : (type : DataType) → Piece.data type.pieces = type.data
  | ⟨name, args⟩ => by simp [DataType.pieces, DataType.data, DataTypeArg.flatMap_data args]

theorem DataTypeArg.data_pieces : (arg : DataTypeArg) → Piece.data arg.pieces = arg.data
  | .number t => rfl
  | .string value => rfl
  | .type type => by simpa [DataTypeArg.pieces, DataTypeArg.data] using type.data_pieces

theorem DataTypeArg.flatMap_data : (args : List DataTypeArg) →
    (DataTypeArg.each args).flatMap Piece.data = DataTypeArg.allData args
  | [] => rfl
  | arg :: args => by
    simp [DataTypeArg.each, DataTypeArg.allData, arg.data_pieces, DataTypeArg.flatMap_data args]

end

mutual

theorem Expr.data_pieces : (e : Expr) → Piece.data e.pieces = e.data
  | .literal value => by simpa [Expr.pieces, Expr.data] using value.data_piece
  | .column column => by simpa [Expr.pieces, Expr.data] using column.data_pieces
  | .placeholder p => by simp [Expr.pieces, Expr.data]
  | .binary left op right => by
    simp [Expr.pieces, Expr.data, left.data_pieces, right.data_pieces]
  | .unary op operand => by simp [Expr.pieces, Expr.data, operand.data_pieces]
  | .between value low high negated => by
    simp [Expr.pieces, Expr.data, value.data_pieces, low.data_pieces, high.data_pieces]
  | .member value set negated => by
    simp [Expr.pieces, Expr.data, value.data_pieces, set.data_pieces]
  | .like value op pattern negated => by
    simp [Expr.pieces, Expr.data, value.data_pieces, pattern.data_pieces]
  | .isNull value negated => by
    simp [Expr.pieces, Expr.data, value.data_pieces]
  | .cases operand arms otherwise => by
    rw [Expr.data_cases]
    unfold Expr.pieces
    simp only [Piece.data_append, Piece.data_keyword, Piece.data_behind, Piece.data_nil,
      List.nil_append, List.append_nil]
    rw [CaseArm.data_allPieces arms]
    congr 1
    · congr 1
      cases operand with
      | none => rfl
      | some e => simp [dataIn, e.data_pieces]
    · cases otherwise with
      | none => rfl
      | some e => simp [dataIn, e.data_pieces]
  | .cast value type => by
    simp [Expr.pieces, Expr.data, value.data_pieces, type.data_pieces]
  | .existence query => by simp [Expr.pieces, Expr.data, query.data_pieces]
  | .subquery query => by simp [Expr.pieces, Expr.data, query.data_pieces]
  | .call call => by simpa [Expr.pieces, Expr.data] using call.data_pieces
  | .tuple items => by simp [Expr.pieces, Expr.data, Expr.flatMap_data items]
  | .array items => by simp [Expr.pieces, Expr.data, Expr.flatMap_data items]
  | .subscript base index => by
    simp [Expr.pieces, Expr.data, base.data_pieces, index.data_pieces]
  | .interval value unit => by simp [Expr.pieces, Expr.data, value.data_pieces]

theorem Expr.flatMap_data : (es : List Expr) →
    (Expr.each es).flatMap Piece.data = Expr.allData es
  | [] => rfl
  | e :: es => by simp [Expr.each, Expr.allData, e.data_pieces, Expr.flatMap_data es]

theorem MemberSet.data_pieces : (set : MemberSet) → Piece.data set.pieces = set.data
  | .list items => by simp [MemberSet.pieces, MemberSet.data, Expr.flatMap_data items]
  | .query query => by simpa [MemberSet.pieces, MemberSet.data] using query.data_pieces

theorem CaseArm.data_pieces : (arm : CaseArm) → Piece.data arm.pieces = arm.data
  | ⟨condition, result⟩ => by
    simp [CaseArm.pieces, CaseArm.data, condition.data_pieces, result.data_pieces]

theorem CaseArm.data_allPieces : (arms : List CaseArm) →
    Piece.data (CaseArm.allPieces arms) = CaseArm.allData arms
  | [] => rfl
  | arm :: arms => by
    simp [CaseArm.allPieces, CaseArm.allData, arm.data_pieces, CaseArm.data_allPieces arms]

theorem Call.data_pieces : (call : Call) → Piece.data call.pieces = call.data
  | ⟨function, args, distinct, window⟩ => by
    unfold Call.pieces Call.data
    cases window with
    | none => simp [args.data_pieces]
    | some window => simp [args.data_pieces, window.data_pieces]

theorem CallArgs.data_pieces : (args : CallArgs) → Piece.data args.pieces = args.data
  | .star => rfl
  | .list items => by simp [CallArgs.pieces, CallArgs.data, Expr.flatMap_data items]

theorem Window.data_pieces : (window : Window) → Piece.data window.pieces = window.data
  | ⟨partitionBy, orderBy, frame⟩ => by
    have partitions := Expr.flatMap_data partitionBy
    have terms := OrderItem.flatMap_data orderBy
    unfold Window.pieces Window.data
    rw [data_intercalate_space, List.flatMap_append, List.flatMap_append]
    congr 1
    · congr 1
      · rw [← partitions]
        cases partitionBy <;> simp [Expr.each]
      · rw [← terms]
        cases orderBy <;> simp [OrderItem.each]
    · cases frame with
      | none => rfl
      | some frame => simp [frame.data_pieces]

theorem Frame.data_pieces : (frame : Frame) → Piece.data frame.pieces = frame.data
  | ⟨unit, start, finish⟩ => by
    unfold Frame.pieces Frame.data
    cases finish with
    | none => simp [start.data_pieces]
    | some finish => simp [start.data_pieces, finish.data_pieces]

theorem FrameBound.data_pieces : (bound : FrameBound) → Piece.data bound.pieces = bound.data
  | .unboundedPreceding | .currentRow | .unboundedFollowing => by
    simp [FrameBound.pieces, FrameBound.data]
  | .preceding offset | .following offset => by
    simp [FrameBound.pieces, FrameBound.data, offset.data_pieces]

theorem OrderItem.data_pieces : (item : OrderItem) → Piece.data item.pieces = item.data
  | ⟨expr, direction, nulls⟩ => by
    simp [OrderItem.pieces, OrderItem.data, expr.data_pieces]

theorem OrderItem.flatMap_data : (items : List OrderItem) →
    (OrderItem.each items).flatMap Piece.data = OrderItem.allData items
  | [] => rfl
  | item :: items => by
    simp [OrderItem.each, OrderItem.allData, item.data_pieces, OrderItem.flatMap_data items]

theorem Query.data_pieces : (q : Query) → Piece.data q.pieces = q.data
  | ⟨tables, body, orderBy, limit, settings, format⟩ => by
    have terms := OrderItem.flatMap_data orderBy
    have values := Setting.flatMap_data settings
    unfold Query.pieces
    simp only [Query.data_eq, Piece.data_append, Piece.data_listClause, Piece.data_keyword, Piece.data_nil]
    rw [body.data_pieces, terms, values]
    congr 1
    · congr 2
      · congr 2
        cases tables with
        | none => rfl
        | some tables => simp [dataIn, tables.data_pieces]
      · cases limit with
        | none => rfl
        | some limit => exact limit.data_pieces
    · cases format <;> simp [dataIn]

theorem QueryBody.data_pieces : (body : QueryBody) → Piece.data body.pieces = body.data
  | .block block => by simpa [QueryBody.pieces, QueryBody.data] using block.data_pieces
  | .nested query => by simp [QueryBody.pieces, QueryBody.data, query.data_pieces]
  | .compound op quantifier left right => by
    simp [QueryBody.pieces, QueryBody.data, left.data_pieces, right.data_pieces]

theorem WithClause.data_pieces : (clause : WithClause) → Piece.data clause.pieces = clause.data
  | ⟨recursive, tables⟩ => by
    simp [WithClause.pieces, WithClause.data, CommonTable.flatMap_data tables]

theorem CommonTable.data_pieces : (table : CommonTable) → Piece.data table.pieces = table.data
  | ⟨table, columns, query⟩ => by
    simp [CommonTable.pieces, CommonTable.data, query.data_pieces]

theorem CommonTable.flatMap_data : (tables : List CommonTable) →
    (CommonTable.each tables).flatMap Piece.data = CommonTable.allData tables
  | [] => rfl
  | table :: tables => by
    simp [CommonTable.each, CommonTable.allData, table.data_pieces,
      CommonTable.flatMap_data tables]

theorem SelectBlock.data_pieces : (block : SelectBlock) → Piece.data block.pieces = block.data
  | ⟨distinct, items, source, selection, groupBy, having⟩ => by
    have columns := SelectItem.flatMap_data items
    have groups := Expr.flatMap_data groupBy
    unfold SelectBlock.pieces
    simp only [SelectBlock.data_eq, Piece.data_append, Piece.data_ahead, Piece.data_flag, Piece.data_listClause,
      Piece.data_commas, Piece.data_keyword, Piece.data_nil, List.nil_append]
    rw [columns, groups]
    congr 1
    · congr 2
      · congr 1
        cases source with
        | none => rfl
        | some source => simp [dataIn, source.data_pieces]
      · cases selection with
        | none => rfl
        | some e => simp [dataIn, e.data_pieces]
    · cases having with
      | none => rfl
      | some e => simp [dataIn, e.data_pieces]

theorem SelectItem.data_pieces : (item : SelectItem) → Piece.data item.pieces = item.data
  | .wildcard => by simp [SelectItem.pieces, SelectItem.data]
  | .tableWildcard table => by simp [SelectItem.pieces, SelectItem.data, table.data_pieces]
  | .expr expr asName => by simp [SelectItem.pieces, SelectItem.data, expr.data_pieces]

theorem SelectItem.flatMap_data : (items : List SelectItem) →
    (SelectItem.each items).flatMap Piece.data = SelectItem.allData items
  | [] => rfl
  | item :: items => by
    simp [SelectItem.each, SelectItem.allData, item.data_pieces, SelectItem.flatMap_data items]

theorem FromClause.data_pieces : (source : FromClause) → Piece.data source.pieces = source.data
  | ⟨relation, joins⟩ => by
    simp [FromClause.pieces, FromClause.data, relation.data_pieces, Join.data_allPieces joins]

theorem Relation.data_pieces : (relation : Relation) → Piece.data relation.pieces = relation.data
  | .table table asName => by simp [Relation.pieces, Relation.data, table.data_pieces]
  | .function function args asName => by
    simp [Relation.pieces, Relation.data, Expr.flatMap_data args]
  | .derived query asName => by simp [Relation.pieces, Relation.data, query.data_pieces]

theorem Join.data_pieces : (join : Join) → Piece.data join.pieces = join.data
  | ⟨kind, relation, constraint⟩ => by
    unfold Join.pieces Join.data
    cases constraint with
    | none => simp [relation.data_pieces]
    | some constraint => simp [relation.data_pieces, constraint.data_pieces]

theorem Join.data_allPieces : (joins : List Join) →
    Piece.data (Join.allPieces joins) = Join.allData joins
  | [] => rfl
  | join :: joins => by
    simp [Join.allPieces, Join.allData, join.data_pieces, Join.data_allPieces joins]

theorem JoinConstraint.data_pieces : (constraint : JoinConstraint) →
    Piece.data constraint.pieces = constraint.data
  | .on condition => by simp [JoinConstraint.pieces, JoinConstraint.data, condition.data_pieces]
  | .using columns => by simp [JoinConstraint.pieces, JoinConstraint.data]

theorem Limit.data_pieces : (limit : Limit) → Piece.data limit.pieces = limit.data
  | ⟨count, offset⟩ => by
    unfold Limit.pieces Limit.data
    cases offset with
    | none => simp [count.data_pieces]
    | some e => simp [count.data_pieces, e.data_pieces]

theorem Setting.data_pieces : (setting : Setting) → Piece.data setting.pieces = setting.data
  | ⟨setting, value⟩ => by simp [Setting.pieces, Setting.data, value.data_pieces]

theorem Setting.flatMap_data : (settings : List Setting) →
    (Setting.each settings).flatMap Piece.data = Setting.allData settings
  | [] => rfl
  | setting :: settings => by
    simp [Setting.each, Setting.allData, setting.data_pieces, Setting.flatMap_data settings]

end

end CanonicalSql
