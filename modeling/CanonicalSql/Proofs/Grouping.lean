import Mathlib
import CanonicalSql.Proofs.Course.Document
import CanonicalSql.Proofs.Types.Step

/-! The parentheses that the printer adds to an expression that was written without any.  An operand that
the parser accepts binds as tightly as the printer asks of its place, with three exceptions.  A sign is an
operand of a sign.  The word `NOT` starts an operand everywhere, whatever the level of its place, and all
that binds more tightly than it belongs to it.  A test for `NULL` ends in front of operators of every level,
also of those that bind more tightly than the test.  Only operands of these shapes come to stand between
parentheses. -/

namespace CanonicalSql

open Keyword Word CanonicalSql.Symbol

namespace Expr

/-- Whether the expression is the word `NOT` and its operand. -/
def isNegation : Expr → Bool
  | .unary .not _ => true
  | _ => false

/-- Whether the expression is a test for `NULL`. -/
def isNullTest : Expr → Bool
  | .isNull _ _ => true
  | _ => false

end Expr

mutual

/-- An expression, printed by the shapes of its operands instead of their levels.  Parentheses stand only
around a sign behind a sign, around a negation where a sign is in front of it or where it is the last operand
of an operator that binds at least as tightly as `NOT`, and around a test for `NULL` in front of an operator
that binds more tightly than tests.  What has parentheses of its own is printed as ever. -/
def Expr.barePieces : Expr → List Piece
  | .binary left op right =>
    Piece.parensIf (left.isNullTest && Precedence.comparison < op.precedence) left.barePieces ++
      Piece.spaced op.piece ++
      Piece.parensIf (right.isNegation && Precedence.negation ≤ op.precedence) right.barePieces
  | .unary op operand =>
    op.pieces ++
      Piece.parensIf (op.isSign && (operand.isSigned || operand.isNegation)) operand.barePieces
  | .between value low high negated =>
    value.barePieces ++ testWords negated BETWEEN ++ Piece.parensIf low.isNegation low.barePieces ++
      Piece.spaced AND ++ Piece.parensIf high.isNegation high.barePieces
  | .like value op pattern negated =>
    value.barePieces ++ testWords negated op.piece ++
      Piece.parensIf pattern.isNegation pattern.barePieces
  | .isNull value negated =>
    value.barePieces ++ Piece.spaced IS ++ Piece.flag negated [NOT] ++ [↑NULL]
  | .cases operand arms otherwise =>
    [↑CASE] ++ (match operand with | none => [] | some e => .space :: e.barePieces) ++
      CaseArm.allBarePieces arms ++
      (match otherwise with | none => [] | some e => Piece.clause [ELSE] e.barePieces) ++
      Piece.behind [END]
  | .array items =>
    [.symbol .leftBracket] ++ Piece.commas (Expr.eachBare items) ++ [.symbol .rightBracket]
  | .subscript base index =>
    Piece.parensIf base.isNullTest base.barePieces ++ [.symbol .leftBracket] ++ index.barePieces ++
      [.symbol .rightBracket]
  | .interval value u =>
    Piece.ahead [INTERVAL] ++ Piece.parensIf value.isNegation value.barePieces ++ [.space, .unit u]
  | e => e.pieces

/-- The expressions one by one. -/
def Expr.eachBare : List Expr → List (List Piece)
  | [] => []
  | e :: es => e.barePieces :: Expr.eachBare es

/-- The arm of a case distinction. -/
def CaseArm.barePieces : CaseArm → List Piece
  | ⟨condition, result⟩ =>
    Piece.clause [WHEN] condition.barePieces ++ Piece.clause [THEN] result.barePieces

/-- The arms one after the other. -/
def CaseArm.allBarePieces : List CaseArm → List Piece
  | [] => []
  | arm :: arms => arm.barePieces ++ CaseArm.allBarePieces arms

end

/-- Whether the expression is printed with no parentheses other than those around a sign behind a sign, a
negation in a place that is too tight for it, and a test for `NULL` in front of a tighter operator. -/
def Expr.Bare (e : Expr) : Prop := e.pieces = e.barePieces

/-! ### Operands in their places -/

namespace Expr

variable {e left right low high value pattern index : Expr} {level : ℕ}

theorem precedence_of_isNegation (h : e.isNegation = true) : e.precedence = Precedence.negation := by
  unfold isNegation at h
  split at h
  · rfl
  · cases h

theorem precedence_of_isNullTest (h : e.isNullTest = true) : e.precedence = Precedence.comparison := by
  unfold isNullTest at h
  split at h
  · rfl
  · cases h

/-- In a place where all operands but negations bind tightly enough, only negations need parentheses. -/
theorem looser_iff_isNegation (h : level ≤ e.precedence ∨ e.isNegation = true) :
    decide (e.precedence < level) = (e.isNegation && decide (Precedence.negation < level)) := by
  cases negation : e.isNegation with
  | true => rw [precedence_of_isNegation negation, Bool.true_and]
  | false =>
    have tight := h.resolve_right (by simp [negation])
    simpa using tight

/-- In a place where all operands but tests for `NULL` bind tightly enough, only these need parentheses. -/
theorem looser_iff_isNullTest (h : level ≤ e.precedence ∨ e.isNullTest = true) :
    decide (e.precedence < level) = (e.isNullTest && decide (Precedence.comparison < level)) := by
  cases test : e.isNullTest with
  | true => rw [precedence_of_isNullTest test, Bool.true_and]
  | false =>
    have tight := h.resolve_right (by simp [test])
    simpa using tight

/-! Nodes whose parts are printed bare are printed bare where the parts are tight enough for their places,
but for the exceptions. -/

namespace Bare

/-- The operand in front of a test, which needs no parentheses. -/
theorem placed_comparison (h : e.Bare)
    (before : Precedence.comparison ≤ e.precedence ∨ e.isNullTest = true) :
    e.placed Precedence.comparison e.pieces = e.barePieces := by
  rw [placed, looser_iff_isNullTest before, h]
  simp [Piece.parensIf]

/-- A bound, a pattern or the value of an interval. -/
theorem placed_operand (h : e.Bare)
    (tight : Precedence.operand ≤ e.precedence ∨ e.isNegation = true) :
    e.placed Precedence.operand e.pieces = Piece.parensIf e.isNegation e.barePieces := by
  rw [placed, looser_iff_isNegation tight, h]
  simp [Precedence.negation, Precedence.operand, Precedence.comparison]

theorem binary (op : BinaryOp) (hl : left.Bare) (hr : right.Bare)
    (before : op.precedence ≤ left.precedence ∨ left.isNullTest = true)
    (behind : op.precedence + 1 ≤ right.precedence ∨ right.isNegation = true) :
    (Expr.binary left op right).Bare := by
  have first : left.placed op.precedence left.pieces =
      Piece.parensIf (left.isNullTest && Precedence.comparison < op.precedence) left.barePieces := by
    rw [placed, looser_iff_isNullTest before, hl]
  have second : right.placed (op.precedence + 1) right.pieces =
      Piece.parensIf (right.isNegation && Precedence.negation ≤ op.precedence) right.barePieces := by
    rw [placed, looser_iff_isNegation behind, hr]
    simp only [Nat.lt_succ_iff]
  exact congrArg₂ (· ++ Piece.spaced op.piece ++ ·) first second

theorem negation (h : e.Bare) (tight : Precedence.negation ≤ e.precedence ∨ e.isNegation = true) :
    (Expr.unary .not e).Bare := by
  have enough : ¬ e.precedence < Precedence.negation := by
    rcases tight with tight | negation
    · exact Nat.not_lt.2 tight
    · exact (precedence_of_isNegation negation).not_lt
  have operand : Piece.parensIf (e.precedence < Precedence.negation) e.pieces = e.barePieces := by
    rw [decide_eq_false enough, h]
    rfl
  exact congrArg (UnaryOp.not.pieces ++ ·) operand

theorem sign {op : UnaryOp} (sign : op.isSign = true) (h : e.Bare)
    (tight : Precedence.signed ≤ e.precedence ∨ e.isNegation = true) : (Expr.unary op e).Bare := by
  have level : op.precedence = Precedence.signed := by
    cases op with
    | not => cases sign
    | minus | plus => rfl
  have operand : Piece.parensIf ((op.isSign && e.isSigned) || e.precedence < op.precedence) e.pieces =
      Piece.parensIf (op.isSign && (e.isSigned || e.isNegation)) e.barePieces := by
    rw [h, level, looser_iff_isNegation tight, sign]
    simp [Precedence.negation, Precedence.signed]
  exact congrArg (op.pieces ++ ·) operand

theorem between (negated : Bool) (hv : value.Bare) (hl : low.Bare) (hh : high.Bare)
    (before : Precedence.comparison ≤ value.precedence ∨ value.isNullTest = true)
    (first : Precedence.operand ≤ low.precedence ∨ low.isNegation = true)
    (second : Precedence.operand ≤ high.precedence ∨ high.isNegation = true) :
    (Expr.between value low high negated).Bare := by
  have front := congrArg₂ (· ++ testWords negated BETWEEN ++ ·) (hv.placed_comparison before)
    (hl.placed_operand first)
  exact congrArg₂ (· ++ Piece.spaced AND ++ ·) front (hh.placed_operand second)

theorem like (op : LikeOp) (negated : Bool) (hv : value.Bare) (hp : pattern.Bare)
    (before : Precedence.comparison ≤ value.precedence ∨ value.isNullTest = true)
    (behind : Precedence.operand ≤ pattern.precedence ∨ pattern.isNegation = true) :
    (Expr.like value op pattern negated).Bare :=
  congrArg₂ (· ++ testWords negated op.piece ++ ·) (hv.placed_comparison before)
    (hp.placed_operand behind)

theorem isNull (negated : Bool) (hv : value.Bare)
    (before : Precedence.comparison ≤ value.precedence ∨ value.isNullTest = true) :
    (Expr.isNull value negated).Bare :=
  congrArg (· ++ Piece.spaced IS ++ Piece.flag negated [NOT] ++ [Piece.keyword NULL])
    (hv.placed_comparison before)

theorem subscript (hb : e.Bare) (hi : index.Bare)
    (before : Precedence.subscript ≤ e.precedence ∨ e.isNullTest = true) :
    (Expr.subscript e index).Bare := by
  have base : e.placed Precedence.subscript e.pieces = Piece.parensIf e.isNullTest e.barePieces := by
    rw [placed, looser_iff_isNullTest before, hb]
    simp [Precedence.comparison, Precedence.subscript]
  exact congrArg₂ (· ++ [Piece.symbol .leftBracket] ++ · ++ [Piece.symbol .rightBracket]) base hi

theorem interval (unit : String) (hv : value.Bare)
    (tight : Precedence.operand ≤ value.precedence ∨ value.isNegation = true) :
    (Expr.interval value unit).Bare :=
  congrArg (Piece.ahead [INTERVAL] ++ · ++ [Piece.space, .unit unit]) (hv.placed_operand tight)

theorem array {items : List Expr} (h : ∀ e ∈ items, e.Bare) : (Expr.array items).Bare := by
  have all : Expr.each items = Expr.eachBare items := by
    induction items with
    | nil => rfl
    | cons e es ih =>
      rw [List.forall_mem_cons] at h
      exact congrArg₂ List.cons h.1 (ih h.2)
  exact congrArg ([Piece.symbol .leftBracket] ++ Piece.commas · ++ [.symbol .rightBracket]) all

theorem cases {operand otherwise : Option Expr} {arms : List CaseArm}
    (first : ∀ e ∈ operand, e.Bare) (all : ∀ arm ∈ arms, arm.condition.Bare ∧ arm.result.Bare)
    (last : ∀ e ∈ otherwise, e.Bare) : (Expr.cases operand arms otherwise).Bare := by
  have same : CaseArm.allPieces arms = CaseArm.allBarePieces arms := by
    induction arms with
    | nil => rfl
    | cons arm arms ih =>
      obtain ⟨condition, result⟩ := arm
      rw [List.forall_mem_cons] at all
      rw [CaseArm.allPieces, CaseArm.allBarePieces, CaseArm.pieces, CaseArm.barePieces, all.1.1,
        all.1.2, ih all.2]
  cases operand <;> cases otherwise <;> simp_all [Bare, pieces, barePieces]

end Bare

end Expr

/-! ### What is read without parentheses -/

/-- No operator binds more tightly than a subscript. -/
theorem Continuation.precedence_le (op : Continuation) : op.precedence ≤ Precedence.subscript := by
  cases op with
  | binary op => cases op <;> decide
  | subscript | nullTest | between | member | like =>
    simp [precedence, Precedence.comparison, Precedence.subscript]

/-- Whether the tokens at the cursor announce the operator. -/
def Cursor.Announces (c : Cursor) (op : Continuation) : Prop :=
  Continuation.ofKinds? c.current.kind (c.peekAt 1).kind = some op

/-- No operator is announced at the end. -/
theorem Cursor.not_announces {c : Cursor} {op : Continuation} (h : c.current.kind = .eof) :
    ¬ c.Announces op := by
  rw [Announces, h]
  exact nofun

/-- Whether an expression that is read up to the cursor can be the first operand of what follows. -/
structure Expr.Leads (e : Expr) (c : Cursor) : Prop where
  bare : e.Bare
  /-- An operator behind a test for `NULL` may be of any level; others were taken before. -/
  follows : ∀ op, c.Announces op → op.precedence ≤ e.precedence ∨ e.isNullTest = true

/-- Whether an expression that is read up to the cursor is one of those that a place of the level asks for:
it binds tightly enough unless it is a negation, and all operators of the level belong to it. -/
structure Expr.Fits (level : ℕ) (e : Expr) (c : Cursor) : Prop where
  bare : e.Bare
  tight : level ≤ e.precedence ∨ e.isNegation = true
  stops : ∀ op, c.Announces op → op.precedence < level

theorem Cursor.Within.current_ne {c : Cursor} (h : c.Within 0) :
    c.current.kind ≠ .symbol .leftParen := fun opens => by
  obtain ⟨m, hm, -⟩ := h.advance_opening opens
  cases hm

namespace Grammar

open Parse

/-- Whether the expressions of a grammar fit the places that they are read for, where no parenthesis is
opened. -/
def FitsPlaces (g : Grammar) : Prop :=
  ∀ level ≤ Precedence.signed, ∀ c : Cursor, c.Within 0 →
    (g.expr level).GivesAt False c fun _ _ e c' => e.Fits level c'

variable {g : Grammar} {c : Cursor} {α : Type}

/-- A step that starts with a parenthesis is refused where none is opened. -/
theorem givesAt_between_leftParen {closing : Symbol} {x : Parse α} {Q : Ask α} (hc : c.Within 0) :
    (between leftParen closing x).GivesAt False c Q :=
  .expect fun found => absurd (Terminal.admits_symbol.1 found) hc.current_ne

/-- Tokens that are passed over, so many of them. -/
theorem givesAt_skip {plain : Prop} {count : ℕ} (hk : ∀ i < count, (c.peekAt i).kind ≠ .eof) :
    (skip count).GivesAt plain c fun _ ts _ _ => ts.length = count := by
  have moves : (skip count >>= fun u => (pure u : Parse Unit)).GivesAt plain c
      fun _ ts _ _ => ts.length = count := .skip hk fun _ => .pure (by simp)
  simpa using moves

namespace FitsPlaces

theorem anyExpr (hg : g.FitsPlaces) (hc : c.Within 0) :
    g.anyExpr.GivesAt False c fun _ _ e _ => e.Bare :=
  (hg 0 (Nat.zero_le _) c hc).mono fun _ _ _ _ h => h.bare

/-! #### Operands -/

theorem named (name : String) (hc : c.Within 0) :
    (g.named name).GivesAt False c fun _ _ e _ => e.Bare ∧ e.precedence = Precedence.atom := by
  have column : ∀ ref : ColumnRef,
      (Expr.column ref).Bare ∧ (Expr.column ref).precedence = Precedence.atom :=
    fun _ => ⟨rfl, rfl⟩
  have word : identifier.Sound False := sound_identifier
  refine .sees ?_
  cases opens : (Terminal.symbol leftParen).admits c.current.kind with
  | true => exact absurd (Terminal.admits_symbol.1 opens) hc.current_ne
  | false =>
    refine .accept (fun _ => ?_) fun _ => .pure (column _)
    refine (word _).bind fun _ _ second c2 _ _ => ?_
    refine .accept (fun _ => ?_) fun _ => .pure (column _)
    exact (word _).bind fun _ _ third c3 _ _ => .pure (column _)

theorem caseArms (hg : g.FitsPlaces) (count : ℕ) (hc : c.Within 0) :
    (g.caseArms count).GivesAt False c fun _ _ arms _ =>
      ∀ arm ∈ arms, arm.condition.Bare ∧ arm.result.Bare := by
  induction count generalizing c with
  | zero => exact .pure (List.forall_mem_nil _)
  | succ count ih =>
    refine .accept (fun _ => ?_) fun _ => .pure (List.forall_mem_nil _)
    refine (hg.anyExpr hc.advance).bind fun _ _ condition c1 h1 hc1 => .expect fun _ => ?_
    have within := (hc.advance.behind hc1).advance
    refine (hg.anyExpr within).bind fun _ _ result c2 h2 hc2 => ?_
    refine (ih (within.behind hc2)).bind fun _ _ arms _ h3 _ => .pure ?_
    exact List.forall_mem_cons.2 ⟨⟨h1, h2⟩, h3⟩

/-- A case distinction from behind what it is about. -/
theorem casesBehind (hg : g.FitsPlaces) {operand : Option Expr} (h : ∀ e ∈ operand, e.Bare)
    (hc : c.Within 0) :
    (do
      let arms ← g.caseArms (← remaining)
      if arms.isEmpty then Parse.fail .caseArm
      let otherwise ← Parse.optional ELSE g.anyExpr
      expect END
      return .cases operand arms otherwise : Parse Expr).GivesAt False c fun _ _ e _ =>
        e.Bare ∧ e.precedence = Precedence.atom := by
  refine .remaining ((hg.caseArms _ hc).bind fun _ _ arms c1 h1 hc1 => ?_)
  cases arms with
  | nil => exact (GivesAt.fail (Q := fun _ _ _ _ => False) _).bind fun _ _ _ _ no _ => no.elim
  | cons arm arms =>
    have last : (Parse.optional ELSE g.anyExpr).GivesAt False c1 fun _ _ otherwise _ =>
        ∀ e ∈ otherwise, e.Bare := by
      refine .accept (fun _ => ?_) fun _ => .pure nofun
      refine (hg.anyExpr (hc.behind hc1).advance).bind fun _ _ e _ he _ => .pure ?_
      exact fun _ same => Option.mem_some.1 same ▸ he
    refine last.bind fun _ _ otherwise _ h2 _ => .expect fun _ => .pure ?_
    exact ⟨.cases h h1 h2, rfl⟩

theorem cases (hg : g.FitsPlaces) (hc : c.Within 0) :
    g.cases.GivesAt False c fun _ _ e _ => e.Bare ∧ e.precedence = Precedence.atom := by
  refine .sees ?_
  cases (Terminal.keyword WHEN).admits c.current.kind with
  | true => exact hg.casesBehind nofun hc
  | false =>
    refine GivesAt.bind (x := some <$> g.anyExpr) (Q := fun _ _ o _ => ∀ e ∈ o, e.Bare) (.map ?_) ?_
    · exact (hg.anyExpr hc).mono fun _ _ e _ he _ same => Option.mem_some.1 same ▸ he
    · exact fun _ _ operand _ h hc' => hg.casesBehind h (hc.behind hc')

theorem interval (hg : g.FitsPlaces) (hc : c.Within 0) :
    g.interval.GivesAt False c fun _ _ e _ => e.Bare ∧ e.precedence = Precedence.atom := by
  refine (hg _ (by decide) c hc).bind fun _ _ value c' h _ => .peek ?_
  cases hk : c'.current.kind with
  | ident unit => exact .discard_advance (by simp [hk]) (.pure ⟨.interval _ h.bare h.tight, rfl⟩)
  | _ => exact .fail _

theorem keywordOperand (hg : g.FitsPlaces) (token : Token) (k : Keyword) (hc : c.Within 0) :
    (g.keywordOperand token k).GivesAt False c fun _ _ e _ =>
      e.Bare ∧ e.precedence = Precedence.atom := by
  unfold Grammar.keywordOperand
  split
  · exact .pure ⟨rfl, rfl⟩
  · exact .pure ⟨rfl, rfl⟩
  · exact .pure ⟨rfl, rfl⟩
  · exact hg.cases hc
  · exact givesAt_between_leftParen hc
  · exact (givesAt_between_leftParen (Q := fun _ _ _ _ => False) hc).bind fun _ _ _ _ no _ => no.elim
  · exact hg.interval hc
  · refine .sees ?_
    split
    · next opens =>
      rw [Bool.and_eq_true] at opens
      exact absurd (Terminal.admits_symbol.1 opens.2) hc.current_ne
    · exact Gives.failAt (Q := fun _ _ _ => _) _ _ c

theorem commaItems (hg : g.FitsPlaces) (count : ℕ) (hc : c.Within 0) :
    (Parse.commaItems g.anyExpr count).GivesAt False c fun _ _ es _ => ∀ e ∈ es, e.Bare := by
  induction count generalizing c with
  | zero => exact .pure (List.forall_mem_nil _)
  | succ count ih =>
    refine .accept (fun _ => ?_) fun _ => .pure (List.forall_mem_nil _)
    refine (hg.anyExpr hc.advance).bind fun _ _ e c1 h1 hc1 => ?_
    refine (ih (hc.advance.behind hc1)).bind fun _ _ es _ h2 _ => .pure ?_
    exact List.forall_mem_cons.2 ⟨h1, h2⟩

theorem items (hg : g.FitsPlaces) {closing : Symbol} (hc : c.Within 0) :
    (commaListUpTo closing g.anyExpr).GivesAt False c fun _ _ es _ => ∀ e ∈ es, e.Bare := by
  refine .sees ?_
  split
  · exact .pure (List.forall_mem_nil _)
  · refine (hg.anyExpr hc).bind fun _ _ e c1 h1 hc1 => .remaining ?_
    refine (hg.commaItems _ (hc.behind hc1)).bind fun _ _ es _ h2 _ => .pure ?_
    exact List.forall_mem_cons.2 ⟨h1, h2⟩

/-- An operand binds as tightly as there is. -/
theorem operand (hg : g.FitsPlaces) (hc : c.Within 0) :
    g.operand.GivesAt False c fun _ _ e _ => e.Bare ∧ e.precedence = Precedence.atom := by
  by_cases ended : c.current.kind = .eof
  · refine .advance_end ended ?_
    rw [ended]
    exact Gives.failAt (Q := fun _ _ _ => _) _ _ c
  refine .advance ended ?_
  have closed := hc.current_ne
  have within := hc.advance
  revert closed
  cases c.current.kind with
  | number | string | question | questionNumber | colonParam | dollarParam =>
    exact fun _ => .pure ⟨rfl, rfl⟩
  | ident name | quotedIdent name => exact fun _ => named name within
  | keyword k => exact fun _ => hg.keywordOperand _ k within
  | eof => exact fun _ => Gives.failAt (Q := fun _ _ _ => _) _ _ _
  | symbol s =>
    intro closed
    unfold Grammar.symbolOperand
    dsimp only
    split
    · exact (hg.items within).bind fun _ _ items _ h _ => .expect fun _ => .pure ⟨.array h, rfl⟩
    · exact absurd rfl closed
    · exact Gives.failAt (Q := fun _ _ _ => _) _ _ _

/-- The first operand of an expression, with what is in front of it. -/
theorem signedOperand (hg : g.FitsPlaces) (hc : c.Within 0) :
    g.signedOperand.GivesAt False c fun _ _ e c' =>
      e.Leads c' ∧ (Precedence.signed ≤ e.precedence ∨ e.isNegation = true) := by
  have signed : ∀ {op : UnaryOp}, op.isSign = true →
      (do return .unary op (← g.expr Precedence.signed) : Parse Expr).GivesAt False c.advance
        fun _ _ e c' => e.Leads c' ∧ (Precedence.signed ≤ e.precedence ∨ e.isNegation = true) := by
    intro op sign
    have level : op.precedence = Precedence.signed := by
      cases op with
      | not => cases sign
      | minus | plus => rfl
    refine (hg _ le_rfl _ hc.advance).bind fun _ _ e _ h _ => .pure ?_
    refine ⟨⟨.sign sign h.bare h.tight, ?_⟩, ?_⟩
    · exact fun op' ho => .inl ((h.stops op' ho).le.trans level.ge)
    · exact .inl level.ge
  refine .accept (fun _ => ?_) fun _ => .accept (fun _ => signed rfl) fun _ =>
    .accept (fun _ => signed rfl) fun _ => ?_
  · refine (hg _ (by decide) _ hc.advance).bind fun _ _ e _ h _ => .pure ?_
    refine ⟨⟨.negation h.bare h.tight, ?_⟩, ?_⟩
    · exact fun op' ho => .inl (h.stops op' ho).le
    · exact .inr rfl
  · refine (hg.operand hc).mono fun _ _ e _ h => ⟨⟨h.1, fun op _ => .inl ?_⟩, .inl ?_⟩
    · rw [h.2]
      exact op.precedence_le.trans (by decide)
    · rw [h.2]
      decide

/-! #### Operators -/

/-- An operator puts its node on top of `left`. -/
theorem continued (hg : g.FitsPlaces) {left : Expr} {op : Continuation} (hl : left.Bare)
    (before : op.precedence ≤ left.precedence ∨ left.isNullTest = true) (hc : c.Within 0) :
    (g.continued left op).GivesAt False c fun _ _ e c' => e.Leads c' ∧ e.precedence = op.precedence := by
  cases op with
  | subscript =>
    refine (hg.anyExpr hc).bind fun _ _ index _ h _ => .expect fun _ => .pure ?_
    exact ⟨⟨.subscript hl h before, fun op _ => .inl op.precedence_le⟩, rfl⟩
  | binary op =>
    have tightest : op.precedence + 1 ≤ Precedence.signed := by cases op <;> decide
    refine (hg _ tightest c hc).bind fun _ _ right _ h _ => .pure ?_
    refine ⟨⟨.binary op hl h.bare before h.tight, fun op' ho => .inl ?_⟩, rfl⟩
    exact Nat.lt_succ_iff.1 (h.stops op' ho)
  | nullTest =>
    have here : (Expr.isNull left true).Bare ∧ (Expr.isNull left false).Bare :=
      ⟨.isNull _ hl before, .isNull _ hl before⟩
    refine .accept (fun _ => .expect fun _ => .pure ?_) fun _ => .expect fun _ => .pure ?_
    · exact ⟨⟨here.1, fun _ _ => .inr rfl⟩, rfl⟩
    · exact ⟨⟨here.2, fun _ _ => .inr rfl⟩, rfl⟩
  | between negated =>
    refine (hg _ (by decide) c hc).bind fun _ _ low c1 h1 hc1 => .expect fun _ => ?_
    refine (hg _ (by decide) _ (hc.behind hc1).advance).bind fun _ _ high _ h2 _ => .pure ?_
    refine ⟨⟨.between _ hl h1.bare h2.bare before h1.tight h2.tight, fun op' ho => .inl ?_⟩, rfl⟩
    exact Nat.lt_succ_iff.1 (h2.stops op' ho)
  | member negated =>
    exact (givesAt_between_leftParen (Q := fun _ _ _ _ => False) hc).bind fun _ _ _ _ no _ => no.elim
  | like op negated =>
    refine (hg _ (by decide) c hc).bind fun _ _ pattern _ h _ => .pure ?_
    refine ⟨⟨.like _ _ hl h.bare before h.tight, fun op' ho => .inl ?_⟩, rfl⟩
    exact Nat.lt_succ_iff.1 (h.stops op' ho)

/-- A chain of operators takes all operators of its level.  Where one is taken it binds no more tightly than
what is in front of it. -/
theorem operators (hg : g.FitsPlaces) {level : ℕ} (count : ℕ) {left : Expr} (enough : c.remaining ≤ count)
    (leads : left.Leads c) (tight : level ≤ left.precedence ∨ left.isNegation = true) (hc : c.Within 0) :
    (g.operators level count left).GivesAt False c fun _ _ e c' => e.Fits level c' := by
  induction count generalizing left c with
  | zero =>
    have ended := hc.ready.atEnd_iff.2 (Nat.le_zero.1 enough)
    exact .pure ⟨leads.bare, tight, fun op ho => absurd ho (Cursor.not_announces ended)⟩
  | succ count ih =>
    refine .peek (.peekAt ?_)
    cases ho : Continuation.ofKinds? c.current.kind (c.peekAt 1).kind with
    | none => exact .pure ⟨leads.bare, tight, fun op h => by cases ho.symm.trans h⟩
    | some op =>
      dsimp only
      split
      · next below =>
        refine .pure ⟨leads.bare, tight, fun op' h => ?_⟩
        cases ho.symm.trans h
        exact below
      next within =>
      obtain ⟨-, noEnd, second, width⟩ := Continuation.silent_of_ofKinds? ho
      have inside : ∀ i < op.width, (c.peekAt i).kind ≠ .eof := by
        intro i hi
        rcases width with one | two
        · obtain rfl : i = 0 := by omega
          exact noEnd
        · obtain rfl | rfl : i = 0 ∨ i = 1 := by omega
          · exact noEnd
          · exact (second two).2
      refine .descend ((givesAt_skip inside).bind fun _ ts _ c1 long hc1 => ?_)
      have within1 := hc.behind hc1
      refine (hg.continued leads.bare (leads.follows op ho) within1).bind fun _ us e c2 h hc2 => ?_
      have remain1 := Cursor.remaining_add hc1
      have remain2 := Cursor.remaining_add hc2
      refine ih (by omega) h.1 (.inl ?_) (within1.behind hc2)
      exact (Nat.not_lt.1 within).trans h.2.ge

theorem exprRule (hg : g.FitsPlaces) {level : ℕ} (hlevel : level ≤ Precedence.signed) (hc : c.Within 0) :
    (g.exprRule level).GivesAt False c fun _ _ e c' => e.Fits level c' := by
  rw [exprRule_eq_operators]
  refine .descend ((hg.signedOperand hc).bind fun _ _ left c1 h hc1 => .remaining ?_)
  exact hg.operators _ le_rfl h.1 (h.2.imp_left hlevel.trans) (hc.behind hc1)

end FitsPlaces

theorem fitsPlaces_upTo (count : ℕ) : (upTo count).FitsPlaces := by
  induction count with
  | zero => exact fun _ _ _ _ => .fail _
  | succ count ih => exact fun _ hlevel _ hc => FitsPlaces.exprRule (g := upTo count) ih hlevel hc

end Grammar

/-! ### Texts -/

/-- An expression that is a whole text. -/
theorem givesAt_wholeExpr {c : Cursor} (hc : c.Within 0) :
    Parse.wholeExpr.GivesAt False c fun _ _ e _ => e.Bare := by
  have first : Parse.expr.GivesAt False c fun _ _ e _ => e.Bare :=
    .remaining ((Grammar.fitsPlaces_upTo _).anyExpr hc)
  refine first.bind fun _ _ e c' bare _ => ?_
  have behind : (do
      unless ← Parse.atEnd do Parse.fail .expressionEnd
      return e : Parse Expr).Gives False fun _ _ e => e.Bare := by
    refine fun c => .atEnd ?_
    cases c.atEnd with
    | true => exact .pure bare
    | false =>
      exact (Parse.GivesAt.fail (Q := fun _ _ _ _ => False) _).bind fun _ _ _ _ no _ => no.elim
  exact Parse.Gives.discard_accept (fun _ _ => behind) behind c'

/-- The printer agrees with the parser on levels, but for negations and tests for `NULL`.  An expression that
was written without parentheses is printed with parentheses only around signs behind signs, around negations
in places that need operands that bind more tightly, and around tests for `NULL` in front of operators that
bind more tightly. -/
theorem bare_of_parseExpr {text : String} {tokens : List Token} {limit : ℕ} {e : Expr}
    (lexed : tokenize text = .ok tokens) (unopened : ∀ t ∈ tokens, t.kind ≠ .symbol .leftParen)
    (h : parseExpr text limit = .ok e) : e.Bare := by
  rw [parseExpr, Parse.ofText, lexed] at h
  obtain ⟨q, run⟩ := Parse.exists_of_outcome h
  have ready := ready_ofTokens lexed limit
  have none : openings (Parser.ofTokens tokens limit).cursor.upcoming = 0 := by
    rw [upcoming_ofTokens lexed, openings, List.countP_eq_zero]
    simpa using unopened
  have within : (Parser.ofTokens tokens limit).cursor.Within 0 :=
    ⟨⟨ready.genuine, ready.ended, False.elim⟩, none.le⟩
  obtain ⟨-, -, bare⟩ := (givesAt_wholeExpr within).of_ok within.ready rfl run
  exact bare

set_option maxRecDepth 2000 in
/-- A negation behind a comparison, and a test for `NULL` in front of an addition inside it. -/
theorem bare_of_parseExpr_negation :
    ∃ e tokens, tokenize "a = NOT b IS NULL + 1" = .ok tokens ∧
      (∀ t ∈ tokens, t.kind ≠ .symbol .leftParen) ∧ parseExpr "a = NOT b IS NULL + 1" 8 = .ok e ∧
      sql e = "a = (NOT (b IS NULL) + 1)" ∧ e.Bare := by
  let a : Expr := .column ⟨none, "a"⟩
  let b : Expr := .column ⟨none, "b"⟩
  let e : Expr := .binary a .equal (.unary .not (.binary (.isNull b false) .plus (.number "1")))
  have read : parseExpr "a = NOT b IS NULL + 1" 8 = .ok e := by cbv
  cases lexed : tokenize "a = NOT b IS NULL + 1" with
  | error err => simp [parseExpr, Parse.ofText, lexed] at read
  | ok tokens =>
    have kinds : (tokenize "a = NOT b IS NULL + 1").map (·.map Token.kind) =
        .ok [.ident "a", .symbol equal, .keyword NOT, .ident "b", .keyword IS, .keyword NULL,
          .symbol plus, .number "1", .eof] := by
      cbv
    have unopened : ∀ t ∈ tokens, t.kind ≠ .symbol .leftParen := fun t ht opens => by
      simpa [opens] using kind_mem_of_tokenize lexed kinds ht
    exact ⟨e, tokens, rfl, unopened, read, by decide +kernel, bare_of_parseExpr lexed unopened read⟩

end CanonicalSql
