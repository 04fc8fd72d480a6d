import CanonicalSql.Proofs.Coherent.Piece

/-! The pieces of a printed expression or query are coherent, whatever the tree holds. -/

namespace CanonicalSql

/-! ### Words and signs -/

@[simp] theorem Literal.piece_ne_semicolon (l : Literal) : l.piece ≠ .symbol .semicolon := by
  rcases l with _ | _ | ⟨_ | _⟩ | _ <;> simp [Literal.piece]

@[simp] theorem BinaryOp.piece_ne_semicolon (op : BinaryOp) : op.piece ≠ .symbol .semicolon := by
  cases op <;> simp [BinaryOp.piece]

@[simp] theorem LikeOp.piece_ne_semicolon (op : LikeOp) : op.piece ≠ .symbol .semicolon := by
  cases op <;> simp [LikeOp.piece]

@[simp] theorem FrameUnit.piece_ne_semicolon (u : FrameUnit) : u.piece ≠ .symbol .semicolon := by
  cases u <;> simp [FrameUnit.piece]

@[simp] theorem SetOp.piece_ne_semicolon (op : SetOp) : op.piece ≠ .symbol .semicolon := by
  cases op <;> simp [SetOp.piece]

/-! ### What can stand behind everything -/

@[simp] theorem trailing_sortDirection (direction : Option SortDirection) :
    Trailing (SortDirection.clause direction) := by
  rcases direction with _ | _ | _ <;> simp [SortDirection.clause]

@[simp] theorem coherent_sortDirection (direction : Option SortDirection) :
    Coherent (SortDirection.clause direction) := by
  rcases direction with _ | _ | _ <;> simp [SortDirection.clause]

@[simp] theorem trailing_nullsOrder (nulls : Option NullsOrder) :
    Trailing (NullsOrder.clause nulls) := by
  rcases nulls with _ | _ | _ <;> simp [NullsOrder.clause]

@[simp] theorem coherent_nullsOrder (nulls : Option NullsOrder) :
    Coherent (NullsOrder.clause nulls) := by
  rcases nulls with _ | _ | _ <;> simp [NullsOrder.clause]

@[simp] theorem trailing_quantifier (quantifier : SetQuantifier) : Trailing quantifier.pieces := by
  cases quantifier <;> simp [SetQuantifier.pieces]

@[simp] theorem coherent_quantifier (quantifier : SetQuantifier) : Coherent quantifier.pieces := by
  cases quantifier <;> simp [SetQuantifier.pieces]


theorem Join.trailing_allPieces (joins : List Join) : Trailing (Join.allPieces joins) := by
  cases joins with
  | nil => simp [Join.allPieces]
  | cons join joins =>
    obtain ⟨kind, relation, constraint⟩ := join
    unfold Join.allPieces Join.pieces
    cases kind <;> simp [JoinKind.pieces, Piece.behind]

theorem JoinConstraint.trailing (constraint : JoinConstraint) : Trailing constraint.pieces := by
  cases constraint <;> simp [JoinConstraint.pieces]

theorem Limit.trailing (limit : Limit) : Trailing limit.pieces := by
  obtain ⟨count, offset⟩ := limit
  unfold Limit.pieces
  simp [Piece.clause, Piece.behind]

theorem CaseArm.trailing_allPieces (arms : List CaseArm) :
    Trailing (CaseArm.allPieces arms) := by
  cases arms with
  | nil => simp [CaseArm.allPieces]
  | cons arm arms =>
    obtain ⟨condition, result⟩ := arm
    simp [CaseArm.allPieces, CaseArm.pieces, Piece.clause, Piece.behind]

/-! ### Types and expressions -/

mutual

theorem DataType.coherent : (type : DataType) → Coherent type.pieces
  | ⟨name, args⟩ => by
    have each := DataTypeArg.coherent_each args
    cases args with
    | nil => simp [DataType.pieces, DataTypeArg.each, Piece.optionalParens]
    | cons arg args =>
      simpa [DataType.pieces, DataTypeArg.each, Piece.optionalParens, Piece.parens] using each

theorem DataTypeArg.coherent : (arg : DataTypeArg) → Coherent arg.pieces
  | .number t => by simp [DataTypeArg.pieces]
  | .string value => by simp [DataTypeArg.pieces]
  | .type type => by simpa [DataTypeArg.pieces] using type.coherent

theorem DataTypeArg.coherent_each : (args : List DataTypeArg) →
    ∀ item ∈ DataTypeArg.each args, Coherent item
  | [] => by simp [DataTypeArg.each]
  | arg :: args => by
    simpa [DataTypeArg.each] using ⟨arg.coherent, DataTypeArg.coherent_each args⟩

end

/-- The first piece of an operand that binds at least as tightly as a sign and has none is no sign:
it is no symbol, or an opening parenthesis or bracket. -/
theorem Expr.head_of_signed_le : (e : Expr) → Precedence.signed ≤ e.precedence →
    e.isSigned = false → ∀ q ∈ e.pieces.head?, q.isJoint = true ∨ ∀ s, q ≠ .symbol s
  | .literal value, _, _ => by
    rcases value with _ | _ | ⟨_ | _⟩ | _ <;> simp [Expr.pieces, Literal.piece]
  | .column ⟨table, _⟩, _, _ => by
    rcases table with _ | ⟨_ | _, _⟩ <;>
      simp [Expr.pieces, ColumnRef.pieces, QualifiedName.pieces]
  | .placeholder p, _, _ => by simp [Expr.pieces]
  | .binary left op right, h, _ => by
    cases op <;> simp [Expr.precedence, BinaryOp.precedence, Precedence.signed,
      Precedence.disjunction, Precedence.conjunction, Precedence.comparison,
      Precedence.concatenation, Precedence.additive, Precedence.multiplicative] at h
  | .unary op operand, h, hs => by
    cases op <;> simp [Expr.precedence, UnaryOp.precedence, Expr.isSigned, UnaryOp.isSign,
      Precedence.signed, Precedence.negation] at h hs
  | .between .., h, _ | .member .., h, _ | .like .., h, _ | .isNull .., h, _ => by
    simp [Expr.precedence, Precedence.signed, Precedence.comparison] at h
  | .cases .., _, _ => by unfold Expr.pieces; simp
  | .cast .., _, _ => by simp [Expr.pieces]
  | .existence .., _, _ => by simp [Expr.pieces, Piece.ahead]
  | .subquery .., _, _ => by simp [Expr.pieces, Piece.parens]
  | .call ⟨_, _, _, _⟩, _, _ => by simp [Expr.pieces, Call.pieces]
  | .tuple .., _, _ => by simp [Expr.pieces, Piece.parens]
  | .array .., _, _ => by simp [Expr.pieces]
  | .subscript base index, _, _ => by
    have head := base.head_of_signed_le
    by_cases loose : base.precedence < Precedence.subscript
    · simp [Expr.pieces, Expr.placed, Piece.parensIf, Piece.parens, loose]
    · have tight : Precedence.signed ≤ base.precedence := by
        simp only [Precedence.subscript, Precedence.signed] at loose ⊢
        omega
      have unsigned : base.isSigned = false := by
        cases base with
        | unary op operand =>
          exfalso
          cases op <;> simp [Expr.precedence, UnaryOp.precedence, Precedence.signed,
            Precedence.negation, Precedence.subscript] at loose
        | _ => rfl
      have first := head tight unsigned
      cases hp : base.pieces with
      | nil => simp [Expr.pieces, Expr.placed, Piece.parensIf, loose, hp]
      | cons q ps =>
        rw [hp] at first
        simpa [Expr.pieces, Expr.placed, Piece.parensIf, loose, hp] using first
  | .interval .., _, _ => by simp [Expr.pieces, Piece.ahead]

@[simp] theorem coherent_append_testWords {negated : Bool} {test : Piece} {ps qs : List Piece} :
    Coherent (ps ++ (testWords negated test ++ qs)) ↔
      Coherent ps ∧ test ≠ .symbol .semicolon ∧ Coherent qs := by
  simp [testWords]

/-- Where an operator stands in front of its operand, the two do not run into each other. -/
theorem coherent_unary {op : UnaryOp} {operand : Expr} (h : Coherent operand.pieces) :
    Coherent (Expr.unary op operand).pieces := by
  have sign : ∀ s : Symbol, s = .minus ∨ s = .plus →
      Coherent (.symbol s :: Piece.parensIf
        (operand.isSigned || decide (operand.precedence < Precedence.signed)) operand.pieces) := by
    intro s hs
    have inner : Piece.symbol s ≠ .symbol .semicolon := by rcases hs with rfl | rfl <;> simp
    cases grouped : operand.isSigned || decide (operand.precedence < Precedence.signed) with
    | true => simpa [Piece.parensIf, Piece.parens, h] using inner
    | false =>
      rw [Bool.or_eq_false_iff, decide_eq_false_iff_not, Nat.not_lt] at grouped
      rw [Piece.parensIf, if_neg Bool.false_ne_true, ← List.singleton_append, coherent_append]
      refine ⟨coherent_singleton.2 inner, h, ?_⟩
      intro p hp q hq
      obtain rfl : .symbol s = p := by simpa using hp
      rcases operand.head_of_signed_le grouped.2 grouped.1 q hq with hb | other
      · exact Piece.meets_of_isBreak_right (Piece.isBreak_of_isJoint hb) _
      · rcases hs with rfl | rfl <;> cases q <;> simp_all [Piece.meets]
  rw [Expr.pieces]
  cases op with
  | not => simp [UnaryOp.pieces, h]
  | minus => exact sign .minus (.inl rfl)
  | plus => exact sign .plus (.inr rfl)

mutual

theorem Expr.coherent : (e : Expr) → Coherent e.pieces
  | .literal value => by simp [Expr.pieces]
  | .column column => by simpa [Expr.pieces] using column.coherent
  | .placeholder p => by simp [Expr.pieces]
  | .binary left op right => by
    simp [Expr.pieces, Piece.spaced, left.coherent, right.coherent]
  | .unary op operand => coherent_unary operand.coherent
  | .between value low high negated => by
    simp [Expr.pieces, Piece.spaced, value.coherent, low.coherent, high.coherent]
  | .member value set negated => by
    simp [Expr.pieces, value.coherent, set.coherent]
  | .like value op pattern negated => by
    simp [Expr.pieces, value.coherent, pattern.coherent]
  | .isNull value negated => by
    simp [Expr.pieces, Piece.spaced, value.coherent]
  | .cases operand arms otherwise => by
    have branches := CaseArm.coherent_allPieces arms
    have trailing := CaseArm.trailing_allPieces arms
    unfold Expr.pieces
    cases operand with
    | none =>
      cases otherwise with
      | none => simp [branches, trailing]
      | some f => simp [branches, trailing, f.coherent]
    | some e =>
      cases otherwise with
      | none => simp [branches, trailing, e.coherent]
      | some f => simp [branches, trailing, e.coherent, f.coherent]
  | .cast value type => by
    simp [Expr.pieces, Piece.parens, value.coherent, type.coherent]
  | .existence query => by simp [Expr.pieces, query.coherent]
  | .subquery query => by simp [Expr.pieces, query.coherent]
  | .call call => by simpa [Expr.pieces] using call.coherent
  | .tuple items => by simpa [Expr.pieces] using Expr.coherent_each items
  | .array items => by simpa [Expr.pieces] using Expr.coherent_each items
  | .subscript base index => by simp [Expr.pieces, base.coherent, index.coherent]
  | .interval value unit => by simp [Expr.pieces, value.coherent]

theorem Expr.coherent_each : (es : List Expr) → ∀ item ∈ Expr.each es, Coherent item
  | [] => by simp [Expr.each]
  | e :: es => by simpa [Expr.each] using ⟨e.coherent, Expr.coherent_each es⟩

theorem MemberSet.coherent : (set : MemberSet) → Coherent set.pieces
  | .list items => by simpa [MemberSet.pieces] using Expr.coherent_each items
  | .query query => by simpa [MemberSet.pieces] using query.coherent

theorem CaseArm.coherent : (arm : CaseArm) → Coherent arm.pieces
  | ⟨condition, result⟩ => by simp [CaseArm.pieces, condition.coherent, result.coherent]

theorem CaseArm.coherent_allPieces : (arms : List CaseArm) → Coherent (CaseArm.allPieces arms)
  | [] => by simp [CaseArm.allPieces]
  | arm :: arms => by
    have trailing := CaseArm.trailing_allPieces arms
    simp [CaseArm.allPieces, trailing, arm.coherent, CaseArm.coherent_allPieces arms]

theorem Call.coherent : (call : Call) → Coherent call.pieces
  | ⟨function, args, distinct, window⟩ => by
    unfold Call.pieces
    cases window with
    | none => simp [Piece.parens, args.coherent]
    | some window => simp [Piece.parens, args.coherent, window.coherent]

theorem CallArgs.coherent : (args : CallArgs) → Coherent args.pieces
  | .star => by simp [CallArgs.pieces]
  | .list items => by simpa [CallArgs.pieces] using Expr.coherent_each items

theorem Window.coherent : (window : Window) → Coherent window.pieces
  | ⟨partitionBy, orderBy, frame⟩ => by
    have partitions := Expr.coherent_each partitionBy
    have terms := OrderItem.coherent_each orderBy
    unfold Window.pieces
    refine coherent_intercalate_space fun part hp => ?_
    rw [List.mem_append, List.mem_append] at hp
    rcases hp with (hp | hp) | hp
    · split at hp
      · cases hp
      · obtain rfl := List.mem_singleton.1 hp
        simpa using partitions
    · split at hp
      · cases hp
      · obtain rfl := List.mem_singleton.1 hp
        simpa using terms
    · cases frame with
      | none => cases hp
      | some frame =>
        obtain rfl := List.mem_singleton.1 hp
        exact frame.coherent

theorem Frame.coherent : (frame : Frame) → Coherent frame.pieces
  | ⟨unit, start, finish⟩ => by
    unfold Frame.pieces
    cases finish with
    | none => simp [start.coherent]
    | some finish => simp [start.coherent, finish.coherent]

theorem FrameBound.coherent : (bound : FrameBound) → Coherent bound.pieces
  | .unboundedPreceding | .currentRow | .unboundedFollowing => by simp [FrameBound.pieces]
  | .preceding offset | .following offset => by simp [FrameBound.pieces, offset.coherent]

theorem OrderItem.coherent : (item : OrderItem) → Coherent item.pieces
  | ⟨expr, direction, nulls⟩ => by
    rw [OrderItem.pieces]
    simp [expr.coherent]

theorem OrderItem.coherent_each : (items : List OrderItem) →
    ∀ item ∈ OrderItem.each items, Coherent item
  | [] => by simp [OrderItem.each]
  | item :: items => by
    simpa [OrderItem.each] using ⟨item.coherent, OrderItem.coherent_each items⟩

theorem Query.coherent : (q : Query) → Coherent q.pieces
  | ⟨tables, body, orderBy, limit, settings, format⟩ => by
    have main := body.coherent
    have terms := OrderItem.coherent_each orderBy
    have values := Setting.coherent_each settings
    unfold Query.pieces
    refine .append (.append (.append (.append ?_ ?_ trailing_listClause) ?_ ?_) ?_
      trailing_listClause) ?_ ?_
    · cases tables with
      | none => exact main
      | some tables => simp [tables.coherent, main]
    · simpa using terms
    · cases limit with
      | none => exact coherent_nil
      | some limit => exact limit.coherent
    · cases limit with
      | none => exact trailing_nil
      | some limit => exact limit.trailing
    · simpa using values
    · cases format <;> simp
    · cases format <;> simp

theorem QueryBody.coherent : (body : QueryBody) → Coherent body.pieces
  | .block block => by simpa [QueryBody.pieces] using block.coherent
  | .nested query => by simp [QueryBody.pieces, query.coherent]
  | .compound op quantifier left right => by
    simp [QueryBody.pieces, left.coherent, right.coherent]

theorem WithClause.coherent : (clause : WithClause) → Coherent clause.pieces
  | ⟨recursive, tables⟩ => by
    simpa [WithClause.pieces] using CommonTable.coherent_each tables

theorem CommonTable.coherent : (table : CommonTable) → Coherent table.pieces
  | ⟨table, columns, query⟩ => by simp [CommonTable.pieces, query.coherent]

theorem CommonTable.coherent_each : (tables : List CommonTable) →
    ∀ item ∈ CommonTable.each tables, Coherent item
  | [] => by simp [CommonTable.each]
  | table :: tables => by
    simpa [CommonTable.each] using ⟨table.coherent, CommonTable.coherent_each tables⟩

theorem SelectBlock.coherent : (block : SelectBlock) → Coherent block.pieces
  | ⟨distinct, items, source, selection, groupBy, having⟩ => by
    have columns := SelectItem.coherent_each items
    have groups := Expr.coherent_each groupBy
    unfold SelectBlock.pieces
    refine .append (.append (.append (.append ?_ ?_ ?_) ?_ ?_) ?_ trailing_listClause) ?_ ?_
    · simpa using columns
    · cases source with
      | none => exact coherent_nil
      | some source => simpa using source.coherent
    · cases source <;> simp
    · cases selection with
      | none => exact coherent_nil
      | some e => simpa using e.coherent
    · cases selection <;> simp
    · simpa using groups
    · cases having with
      | none => exact coherent_nil
      | some e => simpa using e.coherent
    · cases having <;> simp

theorem SelectItem.coherent : (item : SelectItem) → Coherent item.pieces
  | .wildcard => by simp [SelectItem.pieces]
  | .tableWildcard table => by
    rw [SelectItem.pieces]
    exact table.coherent_wildcard
  | .expr expr _ => by simp [SelectItem.pieces, expr.coherent]

theorem SelectItem.coherent_each : (items : List SelectItem) →
    ∀ item ∈ SelectItem.each items, Coherent item
  | [] => by simp [SelectItem.each]
  | item :: items => by
    simpa [SelectItem.each] using ⟨item.coherent, SelectItem.coherent_each items⟩

theorem FromClause.coherent : (source : FromClause) → Coherent source.pieces
  | ⟨relation, joins⟩ => by
    have trailing := Join.trailing_allPieces joins
    simp [FromClause.pieces, trailing, relation.coherent, Join.coherent_allPieces joins]

theorem Relation.coherent : (relation : Relation) → Coherent relation.pieces
  | .table table _ => by simp [Relation.pieces, table.coherent]
  | .function function args _ => by
    simpa [Relation.pieces, Piece.parens] using Expr.coherent_each args
  | .derived query _ => by simp [Relation.pieces, query.coherent]

theorem Join.coherent : (join : Join) → Coherent join.pieces
  | ⟨kind, relation, constraint⟩ => by
    unfold Join.pieces
    refine .append ?_ ?_ ?_
    · cases kind <;> simpa [JoinKind.pieces] using relation.coherent
    · cases constraint with
      | none => exact coherent_nil
      | some constraint => exact constraint.coherent
    · cases constraint with
      | none => exact trailing_nil
      | some constraint => exact constraint.trailing

theorem Join.coherent_allPieces : (joins : List Join) → Coherent (Join.allPieces joins)
  | [] => by simp [Join.allPieces]
  | join :: joins => by
    have trailing := Join.trailing_allPieces joins
    simp [Join.allPieces, trailing, join.coherent, Join.coherent_allPieces joins]

theorem JoinConstraint.coherent : (constraint : JoinConstraint) → Coherent constraint.pieces
  | .on condition => by simp [JoinConstraint.pieces, condition.coherent]
  | .using columns => by simp [JoinConstraint.pieces]

theorem Limit.coherent : (limit : Limit) → Coherent limit.pieces
  | ⟨count, offset⟩ => by
    unfold Limit.pieces
    cases offset with
    | none => simp [count.coherent]
    | some e => simp [count.coherent, e.coherent]

theorem Setting.coherent : (setting : Setting) → Coherent setting.pieces
  | ⟨setting, value⟩ => by simp [Setting.pieces, value.coherent]

theorem Setting.coherent_each : (settings : List Setting) →
    ∀ item ∈ Setting.each settings, Coherent item
  | [] => by simp [Setting.each]
  | setting :: settings => by
    simpa [Setting.each] using ⟨setting.coherent, Setting.coherent_each settings⟩

end

end CanonicalSql
