import CanonicalSql.Parser.Query
import CanonicalSql.Printed.Statement
import CanonicalSql.Proofs.Course.Name

/-! What the rules for expressions give, if the grammar gives as much for what stands inside. -/

namespace CanonicalSql

open Keyword Word CanonicalSql.Symbol

/-! ### The constructs of the grammar -/

/-- A construct with its canonical text. -/
@[reducible] def Construct.ofPieces {α : Type} (wellFormed : α → Prop) (depth : α → ℕ)
    (pieces : α → List Piece) : Construct α :=
  ⟨wellFormed, depth, fun a => Piece.literals (pieces a)⟩

instance : Construct SortDirection := .silent _
instance : Construct NullsOrder := .silent _
instance : Construct FrameUnit := .silent _
instance : Construct JoinKind := .silent _
instance : Construct SetQuantifier := .silent _
instance : Construct DataType := .ofPieces DataType.WellFormed (fun _ => 0) DataType.pieces
instance : Construct DataTypeArg := .ofPieces DataTypeArg.WellFormed (fun _ => 0) DataTypeArg.pieces
instance : Construct Expr := .ofPieces Expr.WellFormed Expr.depth Expr.pieces
instance : Construct MemberSet := .ofPieces MemberSet.WellFormed MemberSet.depth MemberSet.pieces
instance : Construct CaseArm := .ofPieces CaseArm.WellFormed CaseArm.depth CaseArm.pieces
/-- Arguments of a call, and whether they are distinct. -/
instance : Construct (CallArgs × Bool) where
  WellFormed p := p.1.WellFormed p.2
  depth p := p.1.depth
  literals p := Piece.literals p.1.pieces

instance : Construct Window := .ofPieces Window.WellFormed Window.depth Window.pieces
instance : Construct Frame := .ofPieces Frame.WellFormed Frame.depth Frame.pieces
instance : Construct FrameBound :=
  .ofPieces FrameBound.WellFormed FrameBound.depth FrameBound.pieces
instance : Construct OrderItem := .ofPieces OrderItem.WellFormed OrderItem.depth OrderItem.pieces
instance : Construct Query := .ofPieces Query.WellFormed Query.depth Query.pieces
instance : Construct QueryBody := .ofPieces QueryBody.WellFormed QueryBody.depth QueryBody.pieces
instance : Construct WithClause :=
  .ofPieces WithClause.WellFormed WithClause.depth WithClause.pieces
instance : Construct CommonTable :=
  .ofPieces CommonTable.WellFormed CommonTable.depth CommonTable.pieces
instance : Construct SelectBlock :=
  .ofPieces SelectBlock.WellFormed SelectBlock.depth SelectBlock.pieces
instance : Construct SelectItem :=
  .ofPieces SelectItem.WellFormed SelectItem.depth SelectItem.pieces
instance : Construct FromClause :=
  .ofPieces FromClause.WellFormed FromClause.depth FromClause.pieces
instance : Construct Relation := .ofPieces Relation.WellFormed Relation.depth Relation.pieces
instance : Construct Join := .ofPieces Join.WellFormed Join.depth Join.pieces
instance : Construct JoinConstraint :=
  .ofPieces JoinConstraint.WellFormed JoinConstraint.depth JoinConstraint.pieces
instance : Construct Limit := .ofPieces Limit.WellFormed Limit.depth Limit.pieces
instance : Construct Setting := .ofPieces Setting.WellFormed Setting.depth Setting.pieces
instance : Construct Statement :=
  .ofPieces Statement.WellFormed Statement.depth Statement.pieces

section

@[simp] theorem literals_sortDirection (o : Option SortDirection) :
    Piece.literals (SortDirection.clause o) = [] := by
  rcases o with _ | ⟨⟨⟩⟩ <;> rfl

@[simp] theorem literals_nullsOrder (o : Option NullsOrder) :
    Piece.literals (NullsOrder.clause o) = [] := by
  rcases o with _ | ⟨⟨⟩⟩ <;> rfl

@[simp] theorem literals_exprEach (es : List Expr) :
    (Expr.each es).flatMap Piece.literals = es.flatMap fun e => Piece.literals e.pieces := by
  induction es with
  | nil => rfl
  | cons e es ih => simp [Expr.each, ih]

@[simp] theorem literals_typeArgEach (args : List DataTypeArg) :
    (DataTypeArg.each args).flatMap Piece.literals =
      args.flatMap fun arg => Piece.literals arg.pieces := by
  induction args with
  | nil => rfl
  | cons arg args ih => simp [DataTypeArg.each, ih]

@[simp] theorem literals_orderItemEach (items : List OrderItem) :
    (OrderItem.each items).flatMap Piece.literals =
      items.flatMap fun item => Piece.literals item.pieces := by
  induction items with
  | nil => rfl
  | cons item items ih => simp [OrderItem.each, ih]

@[simp] theorem literals_armPieces (arms : List CaseArm) :
    Piece.literals (CaseArm.allPieces arms) = arms.flatMap fun arm => Piece.literals arm.pieces := by
  induction arms with
  | nil => rfl
  | cons arm arms ih => simp [CaseArm.allPieces, ih]

@[simp] theorem literals_frameUnit (unit : FrameUnit) (ps : List Piece) :
    Piece.literals (unit.piece :: ps) = Piece.literals ps := by
  cases unit <;> rfl

@[simp] theorem literals_binaryOp (op : BinaryOp) (ps : List Piece) :
    Piece.literals (op.piece :: ps) = Piece.literals ps := by
  cases op <;> rfl

@[simp] theorem literals_unaryOp (op : UnaryOp) : Piece.literals op.pieces = [] := by
  cases op <;> rfl

@[simp] theorem literals_likeOp (op : LikeOp) (ps : List Piece) :
    Piece.literals (op.piece :: ps) = Piece.literals ps := by
  cases op <;> rfl

@[simp] theorem literals_placed (e : Expr) (level : Nat) (ps : List Piece) :
    Piece.literals (e.placed level ps) = Piece.literals ps := Piece.literals_parensIf _

@[simp] theorem literals_testWords (negated : Bool) (test : Piece) :
    Piece.literals (testWords negated test) = Piece.literals [test] := by
  cases negated <;> simp [testWords]

@[simp] theorem literals_spaced (p : Piece) :
    Piece.literals (Piece.spaced p) = Piece.literals [p] := by
  simp [Piece.spaced]

end

/-! ### Starts and ends -/

/-- Whether the tokens of a query tell whether it starts bare, and whether it opens with a
parenthesis and a query that does. -/
def Opens (ts : List Token) (bare opens : Bool) : Prop :=
  ∃ t us, ts = t :: us ∧ (t.kind.startsQuery = true → bare = true) ∧
    (t.kind = .symbol leftParen → ∃ u vs, us = u :: vs ∧ (u.kind.startsQuery = true → opens = true))

/-- What is asked of a grammar: its rules give trees of which all is known that can be known of
constructs.  The body of a query has no level of its own. -/
structure Grammar.Sound (plain : Prop) (g : Grammar) : Prop where
  expr : ∀ level, (g.expr level).Sound plain
  reading : ∀ {p q : Parser} {e : Expr}, g.anyExpr p = .ok e q →
    ∃ n, (Grammar.upTo n).anyExpr p = .ok e q
  query : g.query.Gives plain fun n ts q =>
    Holds plain (triangle n) (literalsOf ts) q ∧ Opens ts q.startsBare q.opensBare
  body : ∀ level ≤ 3, ∀ c, (g.body level).GivesAt plain c fun n ts b c' =>
    Holds plain (triangle n + n) (literalsOf ts) b ∧ Opens ts b.startsBare b.opensBare ∧
      level ≤ b.precedence ∧
      ∀ op, Grammar.setOp? c'.current.kind = some op → op.precedence < level
  dataType : g.dataType.Sound plain
  statement : g.statement.Sound plain

namespace Grammar

open Parse

attribute [local simp] Construct.depth Construct.literals Expr.depth Expr.pieces

variable {plain : Prop} {g : Grammar}

namespace Sound

theorem anyExpr (hg : g.Sound plain) : g.anyExpr.Sound plain := hg.expr 0

theorem someQuery (hg : g.Sound plain) : g.query.Sound plain :=
  Gives.mono hg.query fun _ _ _ h => h.1

end Sound

/-! ### Types -/

theorem Sound.typeArgument (hg : g.Sound plain) : g.typeArgument.Sound plain := by
  intro c ready
  refine GivesAt.peek ?_ ready
  cases hk : c.current.kind with
  | number t =>
    have genuine := ready.genuine c.current (by simp [Cursor.upcoming])
    rw [hk] at genuine
    exact GivesAt.literal hk rfl
      (.pure ⟨lexesAs_number.2 genuine, Nat.zero_le _, fun _ => rfl⟩)
  | string value =>
    exact GivesAt.literal hk rfl (.pure ⟨trivial, Nat.zero_le _, fun _ => rfl⟩)
  | ident _ | quotedIdent _ =>
    exact Yields.here (.last (hg.dataType.mono fun _ _ _ h => h.into id le_rfl rfl))
  | _ => exact .fail _

theorem Sound.dataTypeRule (hg : g.Sound plain) : g.dataTypeRule.Sound plain := by
  refine .peek fun c => ?_
  cases hn : c.current.kind.name? with
  | none => exact .fail _
  | some name =>
    obtain ⟨literal, noEnd⟩ := Token.Kind.of_name? hn
    refine .silent literal noEnd (.last ((Sound.optionalList _ ?_).mono fun _ _ args h => ?_))
    · refine .bind (hg.typeArgument.commaListUpTo rightParen) fun _ _ args h => .expect (.pure ?_)
      simpa using h
    · refine h.into (fun w => ?_) (by simp) ?_
      · exact DataTypeArg.allWellFormed_iff.2 w
      · simp [DataType.pieces]

/-! ### Windows -/

theorem sound_sortDirection : sortDirection.Sound plain :=
  .accept (.pure (holds_silent trivial rfl rfl))
    (.accept (.pure (holds_silent trivial rfl rfl)) (.pure (holds_silent trivial rfl rfl)))

theorem Sound.orderItem (hg : g.Sound plain) : g.orderItem.Sound plain := by
  refine .bind hg.anyExpr fun _ _ e he => .bind sound_sortDirection fun _ _ d hd => ?_
  refine .last ((Parse.Sound.optional NULLS ?_).mono fun _ _ o ho => ?_)
  · exact .accept (.pure (holds_silent trivial rfl rfl))
      (.accept (.pure (holds_silent trivial rfl rfl)) (.fail _))
  · refine (he.and (hd.and ho)).into (fun w => w.1) ?_ ?_
    · simp [OrderItem.depth]
    · simp [OrderItem.pieces]

theorem Sound.orderItems (hg : g.Sound plain) : g.orderItems.Sound plain :=
  .expect hg.orderItem.commas

theorem Sound.frameBound (hg : g.Sound plain) : g.frameBound.Sound plain := by
  have fixed : ∀ bound : FrameBound, bound.WellFormed → bound.depth = 0 →
      Piece.literals bound.pieces = [] → Holds plain (triangle 0) [] bound :=
    fun _ wf depth literals => holds_silent wf depth literals
  refine .accept (.accept (.pure (fixed _ trivial rfl rfl))
    (.expect (.pure (fixed _ trivial rfl rfl)))) (.accept
    (.expect (.pure (fixed _ trivial rfl rfl))) ?_)
  refine .bind (hg.expr _) fun _ _ offset h => .accept (.pure ?_) (.accept (.pure ?_) (.fail _))
  all_goals
    simp only [Nat.max_zero, List.append_nil]
    exact h.into id (by simp [FrameBound.depth])
      (by simp [FrameBound.pieces])

theorem Sound.frame (hg : g.Sound plain) (unit : FrameUnit) : (g.frame unit).Sound plain := by
  refine .accept (.bind hg.frameBound fun _ _ start h1 => .expect ?_) ?_
  · refine .last (hg.frameBound.mono fun _ _ finish h2 => ?_)
    exact (h1.and h2).into id (by simp [Frame.depth])
      (by simp [Frame.pieces])
  · refine .last (hg.frameBound.mono fun _ _ start h => ?_)
    exact h.into (fun w => ⟨w, trivial⟩) (by simp [Frame.depth])
      (by simp [Frame.pieces])

theorem sound_frameUnit : frameUnit.Sound plain :=
  .accept (.pure (holds_silent trivial rfl rfl))
    (.accept (.pure (holds_silent trivial rfl rfl)) (.pure (holds_silent trivial rfl rfl)))

theorem Sound.windowParts (hg : g.Sound plain) : g.windowParts.Sound plain := by
  refine .bind (Parse.Sound.optionalList _ (.expect hg.anyExpr.commas))
    fun _ _ partitionBy h1 => ?_
  refine .bind (Parse.Sound.optionalList _ hg.orderItems) fun _ _ orderBy h2 => ?_
  refine .bind sound_frameUnit fun _ _ unit h3 => ?_
  cases unit with
  | some unit =>
    refine .last ((hg.frame unit).mono fun _ _ frame h4 => ?_)
    refine (h1.and (h2.and (h3.and h4))).into (fun w => ?_) ?_ ?_
    · exact ⟨Expr.allWellFormed_iff.2 w.1, OrderItem.allWellFormed_iff.2 w.2.1, w.2.2.2⟩
    · simp [Window.depth]
    · cases partitionBy <;> cases orderBy <;> simp [Window.pieces]
  | none =>
    refine .pure ((h1.and (h2.and (h3.and (holds_nil (α := Expr))))).into (fun w => ?_) ?_ ?_)
    · exact ⟨Expr.allWellFormed_iff.2 w.1, OrderItem.allWellFormed_iff.2 w.2.1, trivial⟩
    · simp [Window.depth, deepest]
    · cases partitionBy <;> cases orderBy <;> simp [Window.pieces]

theorem Sound.window (hg : g.Sound plain) : g.window.Sound plain :=
  .between _ _ hg.windowParts

/-! ### Operands -/

/-- What is known of an expression of which nothing but the node on top is left to be counted. -/
def SoundOperand (plain : Prop) (x : Parse Expr) : Prop :=
  x.Yields plain fun n ls e => Holds plain (triangle n + 1) ls e

theorem holds_leaf {bound : ℕ} {ls : List Token.Kind} {e : Expr} (wellFormed : e.WellFormed)
    (depth : e.depth = 1) (literals : Piece.literals e.pieces = ls) :
    Holds plain (bound + 1) ls e :=
  ⟨wellFormed, depth.trans_le (Nat.le_add_left 1 bound), fun _ => literals.symm⟩

theorem Sound.callArgs (hg : g.Sound plain) : g.callArgs.Sound plain := by
  refine .accept (.pure (holds_silent rfl rfl rfl)) (.seen (.pure ?_) ?_)
  · exact holds_silent ⟨by simp, trivial⟩ rfl rfl
  · refine .bind (sound_accept _) fun _ _ distinct h1 => ?_
    refine .last (hg.anyExpr.commaList.mono fun _ _ args h2 => ?_)
    refine (h1.and h2.2).into (fun w => ⟨fun _ => h2.1, Expr.allWellFormed_iff.2 w.2⟩) ?_ ?_
    · simp [CallArgs.depth]
    · simp [CallArgs.pieces]

theorem Sound.call (hg : g.Sound plain) (name : String) : SoundOperand plain (g.call name) := by
  refine .bind (hg.callArgs.between _ _) fun _ _ args h1 => ?_
  obtain ⟨args, distinct⟩ := args
  refine .last ((Parse.Sound.optional _ hg.window).mono fun _ _ window h2 => ?_)
  refine (h1.and h2).node (fun w => ?_) ?_ ?_
  · cases window <;> simpa [Construct.WellFormed, Expr.WellFormed, Call.WellFormed] using w
  · cases window <;> simp [Call.depth, depthIn] <;> omega
  · cases window <;> cases distinct <;>
      simp [Call.pieces]

theorem Sound.named (hg : g.Sound plain) (first : String) :
    SoundOperand plain (g.named first) := by
  have column : ∀ (n : ℕ) (ls : List Token.Kind) (c : ColumnRef), (plain → ls = []) →
      Holds plain (triangle n + 1) ls (Expr.column c) := by
    rintro n ls ⟨table, column⟩ silent
    refine ⟨trivial, by simp, fun hp => ?_⟩
    rcases table with _ | ⟨_ | _, _⟩ <;>
      simp [silent hp, ColumnRef.pieces, QualifiedName.pieces]
  refine .seen (hg.call first) (.accept ?_ (.pure (column _ _ _ fun _ => rfl)))
  refine .bind sound_identifier fun _ _ second h1 => .accept ?_ (.pure (column _ _ _ fun hp => ?_))
  · refine .last (sound_identifier.mono fun _ _ third h2 => column _ _ _ fun hp => ?_)
    rw [h1.literals hp, h2.literals hp]
    rfl
  · rw [h1.literals hp]
    rfl

theorem Sound.caseArms (hg : g.Sound plain) (count : ℕ) : (g.caseArms count).Sound plain := by
  induction count with
  | zero => exact .pure holds_nil
  | succ count ih =>
    refine .accept ?_ (.pure holds_nil)
    refine .bind hg.anyExpr fun _ _ condition h1 => .expect ?_
    refine .bind hg.anyExpr fun _ _ result h2 => .last (ih.mono fun _ _ others h3 => ?_)
    refine (h1.and (h2.and h3)).into (fun w => List.forall_mem_cons.2 ⟨⟨w.1, w.2.1⟩, w.2.2⟩) ?_ ?_
    · simp [CaseArm.depth, deepest]
    · simp [CaseArm.pieces]

/-- A case distinction from behind what it is about. -/
theorem Sound.casesBehind (hg : g.Sound plain) {n : ℕ} {ls : List Token.Kind}
    {operand : Option Expr} (h1 : Holds plain (triangle n) ls operand) :
    (do
      let arms ← g.caseArms (← remaining)
      if arms.isEmpty then Parse.fail .caseArm
      let otherwise ← Parse.optional ELSE g.anyExpr
      expect END
      return .cases operand arms otherwise : Parse Expr).Yields plain fun m ks e =>
        Holds plain (triangle (max n m) + 1) (ls ++ ks) e := by
  refine .remaining fun count => .bind (hg.caseArms count) fun _ _ arms h2 => ?_
  cases arms with
  | nil =>
    exact .bind (Q := fun _ _ _ => False) (.fail _) fun _ _ _ no => no.elim
  | cons arm arms =>
    refine .bind (Parse.Sound.optional _ hg.anyExpr) fun _ _ otherwise h3 => .expect (.pure ?_)
    simp only [Nat.max_zero, List.append_nil]
    refine (h1.and (h2.and h3)).node (fun w => ?_) ?_ ?_
    · change Expr.WellFormed _
      unfold Expr.WellFormed
      cases operand <;> cases otherwise <;>
        exact ⟨w.1, List.cons_ne_nil _ _, CaseArm.allWellFormed_iff.2 w.2.1, w.2.2⟩
    · cases operand <;> cases otherwise <;>
        simp [depthIn] <;> omega
    · cases operand <;> cases otherwise <;>
        simp

theorem Sound.cases (hg : g.Sound plain) : SoundOperand plain g.cases := by
  refine .sees fun found => ?_
  cases found with
  | true =>
    refine .bind (x := Pure.pure none) (.pure ?_) fun _ _ _ h => hg.casesBehind h
    exact holds_silent trivial rfl rfl
  | false =>
    refine .bind (x := some <$> g.anyExpr) (.map (hg.anyExpr.mono fun _ _ _ h => ?_))
      fun _ _ _ h => hg.casesBehind h
    exact h.into id le_rfl rfl

theorem Sound.cast (hg : g.Sound plain) : SoundOperand plain g.cast := by
  refine Yields.between _ _ (.bind hg.anyExpr fun _ _ value h1 => .expect ?_)
  refine .last (hg.dataType.mono fun _ _ type h2 => ?_)
  refine (h1.and h2).node (fun w => w) ?_ ?_
  · simp
    omega
  · simp

/-- The unit of an interval is read in capitals. -/
theorem lexesAs_capitals {unit : String} (h : (Token.Kind.ident unit).Genuine) :
    LexesAs (capitals unit) (.ident (capitals unit)) ∧ capitals (capitals unit) = capitals unit := by
  refine ⟨lexesAs_ident.2 ⟨WordChars.capitals h.1, ?_⟩, capitals_capitals unit⟩
  have notReserved := h.2
  unfold Lexeme.wordKind Keyword.ofWord? at notReserved ⊢
  rw [capitals_capitals]
  split at notReserved <;> simp_all

theorem Sound.interval (hg : g.Sound plain) : SoundOperand plain g.interval := by
  intro c
  refine (hg.expr _ c).bind fun n ts value c' h _ => ?_
  intro ready
  refine GivesAt.peek ?_ ready
  cases hk : c'.current.kind with
  | ident unit =>
    have genuine := ready.genuine c'.current (by simp [Cursor.upcoming])
    rw [hk] at genuine
    refine GivesAt.mono (GivesAt.silent (R := fun m ks e => m = 0 ∧ ks = [] ∧
      e = Expr.interval value (capitals unit)) (by rw [hk]; rfl) (by rw [hk]; simp)
      (.pure ⟨rfl, rfl, rfl⟩)) ?_
    rintro m us e c'' ⟨rfl, silent, rfl⟩
    rw [Nat.max_zero, literalsOf_append, silent, List.append_nil]
    refine h.node (fun w => ?_) ?_ ?_
    · exact ⟨w, lexesAs_capitals genuine⟩
    · simp
      omega
    · simp
  | _ => exact .fail _

theorem Sound.parenthesized (hg : g.Sound plain) : SoundOperand plain g.parenthesized := by
  intro c
  refine .peek ?_
  split
  · next starts =>
    refine (hg.query c).bind fun n ts query c' h hc => .pure ?_
    obtain ⟨holds, t, us, rfl, bare, -⟩ := h
    obtain rfl : c.current = t := by
      simpa [Cursor.upcoming] using congrArg List.head? hc
    simp only [Nat.max_zero, List.append_nil]
    refine holds.node (fun w => ⟨w, bare starts⟩) ?_ ?_
    · simp
      omega
    · simp
  · refine Yields.here (.bind hg.anyExpr.commaList fun n ls items h => ?_)
    obtain ⟨some, holds⟩ := h
    rcases items with _ | ⟨first, _ | ⟨second, others⟩⟩
    · exact absurd rfl some
    · refine .pure ?_
      simp only [Nat.max_zero, List.append_nil]
      refine (holds.into (b := first) (fun w => w first (by simp)) ?_ ?_).loosen (Nat.le_succ _)
      · simp [deepest]
      · simp
    · refine .pure ?_
      simp only [Nat.max_zero, List.append_nil]
      refine holds.node (fun w => ⟨by simp, Expr.allWellFormed_iff.2 w⟩) ?_ ?_
      · simp
        omega
      · simp

theorem Sound.keywordOperand (hg : g.Sound plain) (token : Token) (k : Keyword) :
    SoundOperand plain (g.keywordOperand token k) := by
  unfold Grammar.keywordOperand
  split
  · exact .pure (holds_leaf trivial rfl rfl)
  · exact .pure (holds_leaf trivial rfl rfl)
  · exact .pure (holds_leaf trivial rfl rfl)
  · exact hg.cases
  · exact hg.cast
  · refine .last ((hg.someQuery.between _ _).mono fun _ _ q h => h.node id ?_ ?_)
    · simp
      omega
    · simp
  · exact hg.interval
  · refine .sees fun found => ?_
    split
    · exact hg.call _
    · exact Gives.failAt _ _

theorem Sound.symbolOperand (hg : g.Sound plain) (token : Token) (s : Symbol) :
    SoundOperand plain (g.symbolOperand token s) := by
  unfold Grammar.symbolOperand
  split
  · refine .bind (hg.anyExpr.commaListUpTo _) fun _ _ items h => .expect (.pure ?_)
    simp only [Nat.max_zero, List.append_nil]
    refine h.node (fun w => Expr.allWellFormed_iff.2 w) ?_ ?_
    · simp
      omega
    · simp
  · refine .bind hg.parenthesized fun _ _ e h => .expect (.pure ?_)
    simpa using h
  · exact Gives.failAt _ _

theorem Sound.operand (hg : g.Sound plain) : SoundOperand plain g.operand := by
  intro c ready
  have genuine := ready.genuine c.current (by simp [Cursor.upcoming])
  by_cases ended : c.current.kind = .eof
  · refine GivesAt.advance_end ended ?_ ready
    rw [ended]
    exact Gives.failAt _ _ c
  refine GivesAt.advance ended ?_ ready
  have literal : ∀ {e : Expr}, c.current.kind.isLiteral = true → e.WellFormed → e.depth = 1 →
      Piece.literals e.pieces = [c.current.kind] →
      (Pure.pure e : Parse Expr).GivesAt plain c.advance fun n ts e _ =>
        Holds plain (triangle n + 1) (literalsOf (c.current :: ts)) e := by
    intro e hl wf depth literals
    refine .pure (holds_leaf wf depth ?_)
    simp [literalsOf, hl, literals]
  have silent : ∀ {y : Parse Expr}, c.current.kind.isLiteral = false → SoundOperand plain y →
      y.GivesAt plain c.advance fun n ts e _ =>
        Holds plain (triangle n + 1) (literalsOf (c.current :: ts)) e := by
    intro y hl hy
    simp only [literalsOf_silent hl]
    exact hy c.advance
  revert genuine literal silent
  cases hk : c.current.kind with
  | number t => exact fun genuine literal _ => literal rfl (lexesAs_number.2 genuine) rfl rfl
  | string value => exact fun _ literal _ => literal rfl trivial rfl rfl
  | question => exact fun _ literal _ => literal rfl trivial rfl rfl
  | questionNumber n => exact fun genuine literal _ => literal rfl genuine rfl rfl
  | colonParam name => exact fun genuine literal _ => literal rfl genuine rfl rfl
  | dollarParam name => exact fun genuine literal _ => literal rfl genuine rfl rfl
  | ident name | quotedIdent name => exact fun _ _ silent => silent rfl (hg.named name)
  | keyword k => exact fun _ _ silent => silent rfl (hg.keywordOperand c.current k)
  | symbol s => exact fun _ _ silent => silent rfl (hg.symbolOperand c.current s)
  | eof => exact absurd hk ended

end Grammar

end CanonicalSql
