import CanonicalSql.Parser.Statement
import CanonicalSql.Printed.Statement
import CanonicalSql.Proofs.Chain
import CanonicalSql.Proofs.Reading.Name
import CanonicalSql.Proofs.WellFormed

/-! The operators of expressions and what ends an expression.  An expression that is read at a level
ends before a token only if the token announces no operator of that level. -/

namespace CanonicalSql

open Keyword Word CanonicalSql.Symbol

/-! ### Operators as tokens -/

/-- The terminal that a binary operator is printed as. -/
def BinaryOp.terminal : BinaryOp → Terminal
  | .or => .keyword OR
  | .and => .keyword AND
  | .equal => .symbol .equal
  | .notEqual => .symbol .bangEqual
  | .less => .symbol .less
  | .lessEqual => .symbol .lessEqual
  | .greater => .symbol .greater
  | .greaterEqual => .symbol .greaterEqual
  | .concat => .symbol .doubleBar
  | .plus => .symbol .plus
  | .minus => .symbol .minus
  | .multiply => .symbol .star
  | .divide => .symbol .slash
  | .modulo => .symbol .percent

theorem BinaryOp.tokensOf_piece (op : BinaryOp) : tokensOf [op.piece] = [op.terminal.spelled] := by
  cases op <;> simp [BinaryOp.piece, BinaryOp.terminal]

/-- The word `NOT` in front of a test, if the test is negated. -/
def negation (negated : Bool) : List Terminal := if negated then [NOT] else []

/-- The terminals that announce an operator. -/
def Continuation.printed : Continuation → List Terminal
  | .subscript => [leftBracket]
  | .binary op => [op.terminal]
  | .nullTest => [IS]
  | .between negated => negation negated ++ [.keyword BETWEEN]
  | .member negated => negation negated ++ [.keyword IN]
  | .like .like negated => negation negated ++ [.keyword LIKE]
  | .like .ilike negated => negation negated ++ [.keyword ILIKE]

/-- The tokens that announce an operator. -/
def Continuation.tokens (c : Continuation) : List Spelled := c.printed.map Terminal.spelled

namespace Continuation

/-- An operator is recognized by its tokens, whatever follows them. -/
theorem ofKinds?_tokens (c : Continuation) (s : List Spelled) :
    ofKinds? (kindAt (c.tokens ++ s) 0) (kindAt (c.tokens ++ s) 1) = some c := by
  cases c with
  | subscript => rfl
  | nullTest => rfl
  | binary op => cases op <;> rfl
  | between negated | member negated => cases negated <;> rfl
  | like op negated => cases op <;> cases negated <;> rfl

theorem length_tokens (c : Continuation) : c.tokens.length = c.width := by
  cases c with
  | subscript => rfl
  | nullTest => rfl
  | binary op => rfl
  | between negated | member negated => cases negated <;> rfl
  | like op negated => cases op <;> cases negated <;> rfl

theorem width_pos (c : Continuation) : 0 < c.width := by
  unfold width
  split <;> decide

/-- No word, and neither a parenthesis nor a dot, announces an operator. -/
theorem first_tokens (c : Continuation) (t : Terminal) (s : List Spelled)
    (ht : t = leftParen ∨ t = dot ∨ t = OVER) : t.admits (kindAt (c.tokens ++ s) 0) = false := by
  rcases ht with rfl | rfl | rfl <;> cases c with
  | subscript => rfl
  | nullTest => rfl
  | binary op => cases op <;> rfl
  | between negated | member negated => cases negated <;> rfl
  | like op negated => cases op <;> cases negated <;> rfl

/-- No operator behind an operand binds as tightly as one in front of its operand does. -/
theorem precedence_ne_unary (c : Continuation) (op : UnaryOp) : c.precedence ≠ op.precedence := by
  cases c with
  | binary c => cases c <;> cases op <;> decide
  | subscript | nullTest => cases op <;> decide
  | between _ | member _ | like _ _ =>
    change Precedence.comparison ≠ _
    cases op <;> decide

end Continuation

/-! ### The end of an expression -/

/-- What is known of the tokens behind an expression that is read at a level: they continue no
expression of this level, and `beforeOver` tells whether they start with `OVER`. -/
structure Ends (level : Nat) (beforeOver : Bool) (r : List Spelled) : Prop where
  stops : ∀ c, Continuation.ofKinds? (kindAt r 0) (kindAt r 1) = some c → c.precedence < level
  noCall : (Terminal.symbol leftParen).admits (kindAt r 0) = false
  noDot : (Terminal.symbol dot).admits (kindAt r 0) = false
  opensWindow : (Terminal.word OVER).admits (kindAt r 0) = beforeOver
  noWindow : beforeOver = true → (Terminal.symbol leftParen).admits (kindAt r 1) = false

namespace Ends

variable {level level' : Nat} {beforeOver : Bool} {r : List Spelled} {ts : List Terminal}

theorem mono (h : Ends level beforeOver r) (hl : level ≤ level') : Ends level' beforeOver r :=
  { h with stops := fun c hc => Nat.lt_of_lt_of_le (h.stops c hc) hl }

/-- Behind an operator in front of an operand the same operators end the operand as the whole. -/
theorem of_unary {op : UnaryOp} (h : Ends (op.precedence + 1) beforeOver r) : Ends op.precedence beforeOver r :=
  { h with
    stops := fun c hc => by
      have bound := h.stops c hc
      have differs := c.precedence_ne_unary op
      omega }

theorem ofKinds?_of_endsExpr {t : Terminal} (h : t.endsExpr = true) (next : Token.Kind) :
    Continuation.ofKinds? t.spelled.kind next = none := by
  cases t with
  | keyword k => cases k <;> first | rfl | cases h
  | word w => rfl
  | symbol s => cases s <;> first | rfl | cases h

/-- A terminal that ends every expression ends one of every level. -/
theorem of_terminal {t : Terminal} (ht : t.endsExpr = true) (s : List Spelled) :
    Ends level false (t.spelled :: s) := by
  have differs : ∀ u : Terminal, u.endsExpr = false → u.admits t.spelled.kind = false := by
    rintro u hu
    have other : u ≠ t := fun h => by simp [← h, hu] at ht
    simp [other]
  refine ⟨fun c hc => ?_, differs _ rfl, differs _ rfl, differs _ (by decide), fun h => by cases h⟩
  rw [kindAt_cons_zero, ofKinds?_of_endsExpr ht] at hc
  cases hc

theorem nil (level : Nat) : Ends level false [] :=
  ⟨(fun c hc => by cases hc), rfl, rfl, rfl, (fun h => by cases h)⟩

theorem of_begins (h : Begins ts r) (ht : ts.all Terminal.endsExpr = true) :
    Ends level false r := by
  rcases h with rfl | ⟨t, hm, s, rfl⟩
  · exact nil level
  · exact of_terminal (List.all_eq_true.1 ht t hm) s

/-- An operator ends the operand before it if it binds less tightly. -/
theorem of_continuation {c : Continuation} (hc : c.precedence < level) (s : List Spelled) :
    Ends level false (c.tokens ++ s) where
  stops d hd := by
    rw [c.ofKinds?_tokens s] at hd
    cases hd
    exact hc
  noCall := c.first_tokens _ s (.inl rfl)
  noDot := c.first_tokens _ s (.inr (.inl rfl))
  opensWindow := c.first_tokens _ s (.inr (.inr rfl))
  noWindow h := by cases h

/-- A bare word ends every expression before it; only `OVER` is told from other words. -/
theorem of_unit (u : String) (s : List Spelled)
    (hs : (Terminal.symbol leftParen).admits (kindAt s 0) = false) :
    Ends level (OVER.spelledBy u) (⟨.ident u, u⟩ :: s) :=
  ⟨(fun c hc => by cases hc), rfl, rfl, rfl, fun _ => hs⟩

end Ends

/-! ### What grammars read -/

/-- What can follow a query: the parenthesis around it, or the end of its statement. -/
def queryEnds : List Terminal := [rightParen, semicolon]

/-- What can follow the body of a query. -/
def bodyEnds : List Terminal :=
  [UNION, INTERSECT, EXCEPT, ORDER, LIMIT, SETTINGS, FORMAT, rightParen, semicolon]

/-- Whether the tokens end the body of a query that is read at a level. -/
def BodyEnds (level : Nat) (r : List Spelled) : Prop :=
  Begins bodyEnds r ∧ ∀ op, Grammar.setOp? (kindAt r 0) = some op → op.precedence < level

/-- The grammar reads every construct of less than `size` tokens, in front of everything that ends
it. -/
structure Grammar.Reads (g : Grammar) (size : Nat) : Prop where
  expr : ∀ {grouped beforeOver : Bool} {e : Expr} {level : Nat} {r : List Spelled}, e.WellFormed →
    (grouped = false → level ≤ e.precedence) →
    (tokensOf (Piece.parensIf grouped e.pieces)).length < size → Ends level beforeOver r →
    (g.expr level).Reads (e.groupedLevels grouped beforeOver)
      (tokensOf (Piece.parensIf grouped e.pieces) ++ r) e r
  query : ∀ {q : Query} {r : List Spelled}, q.WellFormed → (tokensOf q.pieces).length < size →
    Begins queryEnds r → g.query.Reads q.levels (tokensOf q.pieces ++ r) q r
  body : ∀ {b : QueryBody} {level : Nat} {r : List Spelled}, b.WellFormed →
    level ≤ b.precedence → (tokensOf b.pieces).length < size → BodyEnds level r →
    (g.body level).Reads b.levels (tokensOf b.pieces ++ r) b r
  dataType : ∀ {type : DataType} {r : List Spelled}, (tokensOf type.pieces).length < size →
    (Terminal.symbol leftParen).admits (kindAt r 0) = false →
    g.dataType.Reads 0 (tokensOf type.pieces ++ r) type r
  statement : ∀ {statement : Statement} {r : List Spelled}, statement.WellFormed →
    (tokensOf statement.pieces).length < size → Begins [semicolon] r →
    g.statement.Reads statement.levels (tokensOf statement.pieces ++ r) statement r

namespace Grammar

open Parse

variable {g : Grammar} {size : Nat} {level : Nat} {beforeOver : Bool} {e left : Expr} {n : ℕ∞}
  {r s s' : List Spelled}

theorem Reads.anyExpr (hg : g.Reads size) (he : e.WellFormed)
    (hs : (tokensOf e.pieces).length < size) (hr : Ends 0 beforeOver r) :
    g.anyExpr.Reads (e.levels beforeOver) (tokensOf e.pieces ++ r) e r :=
  @Reads.expr g size hg false beforeOver e 0 r he (fun _ => Nat.zero_le _) hs hr

/-- An operand in its place, with parentheses if it binds less tightly than the place needs. -/
theorem Reads.placed (hg : g.Reads size) (he : e.WellFormed)
    (hs : (tokensOf (e.placed level e.pieces)).length < size) (hr : Ends level beforeOver r) :
    (g.expr level).Reads (e.placedLevels level e.inner beforeOver)
      (tokensOf (e.placed level e.pieces) ++ r) e r := by
  have read := @Reads.expr g size hg (decide (e.precedence < level)) beforeOver e level r he
    (fun h => Nat.le_of_not_lt (of_decide_eq_false h)) hs hr
  refine read.cast ?_
  simp only [Expr.groupedLevels, Expr.placedLevels, decide_eq_true_eq]

/-! ### Chains of operators -/

/-- Where nothing continues an expression, it ends. -/
theorem reads_operators_end (count : Nat) (hr : Ends level beforeOver r) :
    (g.operators level count e).Reads 0 r e r := by
  cases count with
  | zero => exact .pure e r
  | succ count =>
    unfold operators
    refine (reads_peek r).next ((reads_peekAt 1 r).next ?_)
    cases hc : Continuation.ofKinds? (kindAt r 0) (kindAt r 1) with
    | none => exact .pure e r
    | some c =>
      have stops := hr.stops c hc
      simp only [stops, ↓reduceIte]
      exact .pure e r

/-- An operator that is ahead is read with what follows it, one level deeper. -/
theorem reads_operators_next {c : Continuation} (hc : level ≤ c.precedence) (count : Nat)
    (h : (g.continued left c >>= g.operators level count).Reads n s e s') :
    (g.operators level (count + 1) left).Reads (1 + n) (c.tokens ++ s) e s' := by
  unfold operators
  refine (reads_peek _).next ((reads_peekAt 1 _).next ?_)
  rw [c.ofKinds?_tokens s]
  simp only [Nat.not_lt.mpr hc, ↓reduceIte]
  have skipped := reads_skip c.tokens s
  rw [c.length_tokens] at skipped
  exact .descend (skipped.next h)

end Grammar

end CanonicalSql
