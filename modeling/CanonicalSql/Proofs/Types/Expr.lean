import CanonicalSql.Proofs.Course.Query
import CanonicalSql.Proofs.Types.Step

/-! The types in expressions and queries are those that the rule for types gives, and this rule goes into
itself only behind a parenthesis. -/

namespace CanonicalSql

open Keyword Word CanonicalSql.Symbol

theorem DataTypeArg.allNesting_le {n : ℕ} {args : List DataTypeArg} (h : ∀ arg ∈ args, arg.nesting ≤ n) :
    DataTypeArg.allNesting args ≤ n := by
  induction args with
  | nil => exact Nat.zero_le n
  | cons arg args ih =>
    rw [List.forall_mem_cons] at h
    exact max_le h.1 (ih h.2)

/-- What is asked of a grammar: its rules give no types nested deeper than parentheses are opened. -/
structure Grammar.Keeps (g : Grammar) : Prop where
  expr : ∀ {n} level, (g.expr level).Keeps n fun e => Shallow n e.types
  query : ∀ {n}, g.query.Keeps n fun q => Shallow n q.types
  body : ∀ {n} level, (g.body level).Keeps n fun b => Shallow n b.types
  dataType : ∀ {n}, g.dataType.Keeps n fun type => type.nesting ≤ n
  statement : ∀ {n}, g.statement.Keeps n fun s => Shallow n s.types

namespace Grammar.Keeps

open Parse

variable {g : Grammar} {n : ℕ}

theorem anyExpr (hg : g.Keeps) : g.anyExpr.Keeps n fun e => Shallow n e.types := hg.expr 0

/-! ### Types -/

theorem typeArgument (hg : g.Keeps) : g.typeArgument.Keeps n fun arg => arg.nesting ≤ n + 1 := by
  refine .peek fun k => ?_
  split
  · exact .discard_advance (.pure (Nat.zero_le _))
  · exact .discard_advance (.pure (Nat.zero_le _))
  · exact .bind hg.dataType fun _ h => .pure (Nat.succ_le_succ h)
  · exact .bind hg.dataType fun _ h => .pure (Nat.succ_le_succ h)
  · exact .fail

theorem dataTypeRule (hg : g.Keeps) : g.dataTypeRule.Keeps n fun type => type.nesting ≤ n := by
  refine .peek fun k => ?_
  split
  · refine .discard_advance (.bind (Q := fun args => DataTypeArg.allNesting args ≤ n)
      (.optionalList_opening (Nat.zero_le _) ?_) fun _ h => .pure h)
    rintro m rfl
    exact .bind hg.typeArgument.commaListUpTo fun _ h => .expect (.pure (DataTypeArg.allNesting_le h))
  · exact .fail

/-! ### Windows and calls -/

theorem orderItem (hg : g.Keeps) : g.orderItem.Keeps n fun item => Shallow n item.types := by
  refine .bind hg.anyExpr fun _ h => .past sound_sortDirection fun _ => ?_
  refine .bind (Q := fun _ => True) (.mono (.optional (Q := fun _ => True) ?_) fun _ _ => trivial)
    fun _ _ => .pure h
  exact .accept (.pure trivial) (.accept (.pure trivial) .fail)

theorem orderItems (hg : g.Keeps) :
    g.orderItems.Keeps n fun items => ∀ item ∈ items, Shallow n item.types :=
  .expect hg.orderItem.commaList

theorem frameBound (hg : g.Keeps) : g.frameBound.Keeps n fun b => Shallow n b.types := by
  have fixed : ∀ {b : FrameBound}, b.types = [] →
      (Pure.pure b : Parse FrameBound).Keeps n fun b => Shallow n b.types :=
    fun none => .pure (by rw [none]; exact shallow_nil)
  refine .accept (.accept (fixed rfl) (.expect (fixed rfl))) (.accept (.expect (fixed rfl)) ?_)
  exact .bind (hg.expr _) fun _ h => .accept (.pure h) (.accept (.pure h) .fail)

theorem frame (hg : g.Keeps) (unit : FrameUnit) :
    (g.frame unit).Keeps n fun frame => Shallow n frame.types := by
  refine .accept (.bind hg.frameBound fun _ h1 => .expect (.bind hg.frameBound fun _ h2 => .pure ?_))
    (.bind hg.frameBound fun _ h => .pure ?_)
  · simp [Frame.types, h1, h2]
  · simp [Frame.types, h]

theorem windowParts (hg : g.Keeps) : g.windowParts.Keeps n fun window => Shallow n window.types := by
  refine .bind (.optionalList (.expect hg.anyExpr.commaList)) fun _ h1 =>
    .bind (.optionalList hg.orderItems) fun _ h2 => .past sound_frameUnit fun unit => ?_
  cases unit with
  | some unit =>
    refine .bind (hg.frame unit) fun _ h3 => .pure ?_
    simpa [Window.types, Expr.allTypes_eq, OrderItem.allTypes_eq] using ⟨h1, h2, h3⟩
  | none =>
    refine .pure ?_
    simpa [Window.types, Expr.allTypes_eq, OrderItem.allTypes_eq] using ⟨h1, h2⟩

theorem window (hg : g.Keeps) : g.window.Keeps n fun window => Shallow n window.types :=
  hg.windowParts.between

theorem callArgs (hg : g.Keeps) : g.callArgs.Keeps n fun args => Shallow n args.1.types := by
  refine .accept (.pure shallow_nil) (.sees fun _ => .ite (.pure shallow_nil) ?_)
  refine .past (sound_accept _) fun _ => .bind hg.anyExpr.commaList fun _ h => .pure ?_
  simpa [CallArgs.types, Expr.allTypes_eq] using h

theorem call (hg : g.Keeps) (name : String) : (g.call name).Keeps n fun e => Shallow n e.types := by
  refine .bind hg.callArgs.between fun (args, distinct) h1 =>
    .bind (.optional hg.window) fun window h2 => .pure ?_
  cases window with
  | none => simpa [Expr.types, Call.types] using h1
  | some window => simpa [Expr.types, Call.types] using ⟨h1, h2 window rfl⟩

theorem named (hg : g.Keeps) (first : String) :
    (g.named first).Keeps n fun e => Shallow n e.types := by
  have column : ∀ {c : ColumnRef}, (Pure.pure (.column c) : Parse Expr).Keeps n fun e => Shallow n e.types :=
    .pure shallow_nil
  refine .sees fun _ => .ite (hg.call first) (.accept ?_ column)
  exact .past sound_identifier fun _ => .accept (.past sound_identifier fun _ => column) column

/-! ### Operands -/

theorem caseArms (hg : g.Keeps) (count : ℕ) :
    (g.caseArms count).Keeps n fun arms => ∀ arm ∈ arms, Shallow n arm.types := by
  induction count with
  | zero => exact .pure (by simp)
  | succ count ih =>
    refine .accept (.bind hg.anyExpr fun _ h1 => .expect (.bind hg.anyExpr fun _ h2 =>
      .bind ih fun _ h3 => .pure ?_)) (.pure (by simp))
    exact List.forall_mem_cons.2 ⟨by simp [CaseArm.types, h1, h2], h3⟩

/-- A case distinction from behind its operand. -/
theorem casesBehind (hg : g.Keeps) {operand : Option Expr} (h1 : ∀ e ∈ operand, Shallow n e.types) :
    (do
      let arms ← g.caseArms (← remaining)
      if arms.isEmpty then Parse.fail .caseArm
      let otherwise ← Parse.optional ELSE g.anyExpr
      expect END
      return .cases operand arms otherwise : Parse Expr).Keeps n fun e => Shallow n e.types := by
  refine .remaining fun count => .bind (hg.caseArms count) fun arms h2 => ?_
  cases arms with
  | nil => exact .bind (Q := fun _ => False) .fail fun _ no => no.elim
  | cons arm arms =>
    refine .bind (.optional hg.anyExpr) fun otherwise h3 => .expect (.pure ?_)
    cases operand <;> cases otherwise <;> simp_all [Expr.types, CaseArm.allTypes_eq]

theorem cases (hg : g.Keeps) : g.cases.Keeps n fun e => Shallow n e.types := by
  refine .sees fun _ => .ite ?_ ?_
  · exact .bind (x := Pure.pure none) (.pure (by simp)) fun _ h => hg.casesBehind h
  · exact .bind (x := some <$> g.anyExpr) (.map (hg.anyExpr.mono fun _ h => by simpa using h))
      fun _ h => hg.casesBehind h

theorem cast (hg : g.Keeps) : g.cast.Keeps n fun e => Shallow n e.types := by
  refine .between (.bind hg.anyExpr fun _ h1 => .expect (.bind hg.dataType fun _ h2 => .pure ?_))
  simp [Expr.types, h1, h2]

theorem interval (hg : g.Keeps) : g.interval.Keeps n fun e => Shallow n e.types := by
  refine .bind (hg.expr _) fun _ h => .peek fun k => ?_
  split
  · exact .discard_advance (.pure h)
  · exact .fail

theorem parenthesized (hg : g.Keeps) : g.parenthesized.Keeps n fun e => Shallow n e.types := by
  refine .peek fun k => .ite (.bind hg.query fun _ h => .pure h)
    (.bind hg.anyExpr.commaList fun items h => ?_)
  split
  · exact .pure (h _ (by simp))
  · exact .pure (by simpa [Expr.types, Expr.allTypes_eq] using h)

theorem keywordOperand (hg : g.Keeps) (token : Token) (k : Keyword) :
    (g.keywordOperand token k).Keeps n fun e => Shallow n e.types := by
  unfold Grammar.keywordOperand
  split
  · exact .pure shallow_nil
  · exact .pure shallow_nil
  · exact .pure shallow_nil
  · exact hg.cases
  · exact hg.cast
  · exact .bind hg.query.between fun _ h => .pure h
  · exact hg.interval
  · exact .sees fun _ => .ite (hg.call _) .failAt

theorem symbolOperand (hg : g.Keeps) (token : Token) (s : Symbol) :
    (g.symbolOperand token s).Keeps n fun e => Shallow n e.types := by
  unfold Grammar.symbolOperand
  split
  · refine .bind hg.anyExpr.commaListUpTo fun _ h => .expect (.pure ?_)
    simpa [Expr.types, Expr.allTypes_eq] using h
  · exact .bind hg.parenthesized fun _ h => .expect (.pure h)
  · exact .failAt

theorem operand (hg : g.Keeps) : g.operand.Keeps n fun e => Shallow n e.types := by
  refine .advance fun token => ?_
  split
  · exact .pure shallow_nil
  · exact .pure shallow_nil
  · exact .pure shallow_nil
  · exact .pure shallow_nil
  · exact .pure shallow_nil
  · exact .pure shallow_nil
  · exact hg.named _
  · exact hg.named _
  · exact hg.keywordOperand token _
  · exact hg.symbolOperand token _
  · exact .failAt

theorem signedOperand (hg : g.Keeps) : g.signedOperand.Keeps n fun e => Shallow n e.types := by
  have signed : ∀ (op : UnaryOp) (level : ℕ),
      (do return .unary op (← g.expr level) : Parse Expr).Keeps n fun e => Shallow n e.types :=
    fun _ level => .bind (hg.expr level) fun _ h => .pure h
  exact .accept (signed _ _) (.accept (signed _ _) (.accept (signed _ _) hg.operand))

/-! ### Operators -/

theorem memberSet (hg : g.Keeps) : g.memberSet.Keeps n fun set => Shallow n set.types := by
  refine .peek fun _ => .ite (.bind hg.query fun _ h => .pure h)
    (.bind hg.anyExpr.commaList fun _ h => .pure ?_)
  simpa [MemberSet.types, Expr.allTypes_eq] using h

theorem continued (hg : g.Keeps) {left : Expr} (hl : Shallow n left.types) (c : Continuation) :
    (g.continued left c).Keeps n fun e => Shallow n e.types := by
  unfold Grammar.continued
  cases c with
  | subscript => exact .bind hg.anyExpr fun _ h => .expect (.pure (by simp [Expr.types, hl, h]))
  | binary op => exact .bind (hg.expr _) fun _ h => .pure (by simp [Expr.types, hl, h])
  | nullTest => exact .past (sound_accept _) fun _ => .expect (.pure hl)
  | between negated =>
    exact .bind (hg.expr _) fun _ h1 => .expect (.bind (hg.expr _) fun _ h2 =>
      .pure (by simp [Expr.types, hl, h1, h2]))
  | member negated => exact .bind hg.memberSet.between fun _ h => .pure (by simp [Expr.types, hl, h])
  | like op negated => exact .bind (hg.expr _) fun _ h => .pure (by simp [Expr.types, hl, h])

theorem operators (hg : g.Keeps) (level count : ℕ) {left : Expr} (hl : Shallow n left.types) :
    (g.operators level count left).Keeps n fun e => Shallow n e.types := by
  induction count generalizing left with
  | zero => exact .pure hl
  | succ count ih =>
    refine .peek fun k => .peekAt fun next => ?_
    split
    · exact .pure hl
    · next c _ =>
      split
      · exact .pure hl
      · refine .descend (.skip ?_)
        exact .bind (hg.continued hl c) fun _ h => ih h

theorem exprRule (hg : g.Keeps) (level : ℕ) :
    (g.exprRule level).Keeps n fun e => Shallow n e.types := by
  rw [exprRule_eq_operators]
  exact .descend (.bind hg.signedOperand fun _ h => .remaining fun count => hg.operators level count h)

end Grammar.Keeps

end CanonicalSql
