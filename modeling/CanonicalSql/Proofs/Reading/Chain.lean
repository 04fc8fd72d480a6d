import CanonicalSql.Proofs.Reading.Atom

/-! Reading back chains of operators.  The operators of one chain are read by a loop that holds what
it has read so far, so the text of a left operand is followed through the loop: it is read as the
head of a chain, and what the loop makes of the rest is a hypothesis. -/

namespace CanonicalSql

open Keyword Word CanonicalSql.Symbol

namespace Grammar

open Parse

/-- An operand and the operators that continue it, at the level of the rule around them. -/
def chain (g : Grammar) (level : Nat) : Parse Expr := do
  let left ← g.signedOperand
  g.operators level (← remaining) left

theorem exprRule_eq (g : Grammar) (level : Nat) : g.exprRule level = descend (g.chain level) :=
  g.exprRule_eq_operators level

/-- The expression is read as the head of a chain: where the loop makes `b` of it in front of `r`,
the chain gives `b`.  The operators inside the expression hold their levels open to the end. -/
def Heads (g : Grammar) (e : Expr) : Prop :=
  ∀ ⦃level : Nat⦄ ⦃beforeOver : Bool⦄ ⦃n : ℕ∞⦄ ⦃b : Expr⦄ ⦃r s' : List Spelled⦄, level ≤ e.precedence →
    Ends (e.precedence + 1) beforeOver r →
    (∀ count, r.length ≤ count → (g.operators level count e).Reads n r b s') →
    (g.chain level).Reads (max (e.inner beforeOver) (e.links + n)) (tokensOf e.pieces ++ r) b s'

variable {g : Grammar} {size level : Nat} {beforeOver : Bool} {n m : ℕ∞} {e b : Expr}
  {r s s' t : List Spelled}

/-! ### Heads without a left operand -/

/-- Where no sign and no `NOT` is ahead, the first operand is one without them. -/
theorem reads_signedOperand (start : (kindAt s 0).startsOperand = true)
    (h : g.operand.Reads n s e r) : g.signedOperand.Reads n s e r := by
  have absent : ∀ t : Terminal, t = NOT ∨ t = minus ∨ t = plus →
      t.admits (kindAt s 0) = false := by
    rintro t ht
    cases hk : kindAt s 0 with
    | keyword k => rw [hk] at start; rcases ht with rfl | rfl | rfl <;> cases k <;> first
      | rfl | cases start
    | symbol c => rw [hk] at start; rcases ht with rfl | rfl | rfl <;> cases c <;> first
      | rfl | cases start
    | _ => rcases ht with rfl | rfl | rfl <;> rfl
  unfold Grammar.signedOperand
  refine .rejected (absent _ (.inl rfl)) (.rejected (absent _ (.inr (.inl rfl))) ?_)
  exact .rejected (absent _ (.inr (.inr rfl))) h

/-- What the loop makes of a first operand is what the chain gives. -/
theorem reads_chain (h : g.signedOperand.Reads m s e r)
    (hl : ∀ count, r.length ≤ count → (g.operators level count e).Reads n r b s') :
    (g.chain level).Reads (max m n) s b s' :=
  h.bind ((reads_remaining r).next (hl r.length (Nat.le_refl _)))

theorem Heads.of_atom (hg : g.Reads size) (he : e.WellFormed) (atom : e.precedence = Precedence.atom)
    (links : e.links = 0) (hs : (tokensOf e.pieces).length ≤ size) : g.Heads e := by
  intro level beforeOver n b r s' hl hr loop
  have read := @Reads.operand g size _ beforeOver r hg false e he (fun _ => atom) hs hr
  refine .cast (reads_chain (reads_signedOperand (startsOperand_tokensOf atom r) read) loop) ?_
  rw [links, Nat.cast_zero, zero_add]
  rfl

/-- The tokens of an operator in front of its operand. -/
def unaryTerminal : UnaryOp → Terminal
  | .not => NOT
  | .minus => minus
  | .plus => plus

theorem reads_signedOperand_unary (op : UnaryOp)
    (h : (g.expr op.precedence).Reads n s e r) :
    g.signedOperand.Reads n ((unaryTerminal op).spelled :: s) (.unary op e) r := by
  unfold Grammar.signedOperand
  cases op with
  | not => exact .accepted (Terminal.admits_self NOT) (h.last (.pure _ r))
  | minus =>
    refine .rejected (by simp [unaryTerminal]) ?_
    exact .accepted (Terminal.admits_self minus) (h.last (.pure _ r))
  | plus =>
    refine .rejected (by simp [unaryTerminal]) (.rejected (by simp [unaryTerminal]) ?_)
    exact .accepted (Terminal.admits_self plus) (h.last (.pure _ r))

theorem Heads.unary (hg : g.Reads size) (op : UnaryOp) {operand : Expr} (he : operand.WellFormed)
    (hs : (tokensOf (Expr.pieces (.unary op operand))).length ≤ size) :
    g.Heads (.unary op operand) := by
  intro level beforeOver n b r s' hl hr loop
  have pieces : tokensOf (Expr.pieces (.unary op operand)) = (unaryTerminal op).spelled ::
      tokensOf (Piece.parensIf ((op.isSign && operand.isSigned) ||
        operand.precedence < op.precedence) operand.pieces) := by
    rw [Expr.pieces, tokensOf_append]
    cases op <;> simp [UnaryOp.pieces, unaryTerminal]
  rw [pieces] at hs ⊢
  have read := @Reads.expr g size hg ((op.isSign && operand.isSigned) ||
    decide (operand.precedence < op.precedence)) beforeOver operand op.precedence r he
    (fun h => by
      rw [Bool.or_eq_false_iff] at h
      exact Nat.le_of_not_lt (of_decide_eq_false h.2)) hs (.of_unary hr)
  refine .cast (reads_chain (reads_signedOperand_unary op read) loop) ?_
  have links : (Expr.unary op operand).links = 0 := rfl
  rw [links, Nat.cast_zero, zero_add, Expr.inner, Expr.groupedLevels]

/-! ### Heads with a left operand -/

theorem length_le_placed (e : Expr) (level : Nat) :
    (tokensOf e.pieces).length ≤ (tokensOf (e.placed level e.pieces)).length := by
  unfold Expr.placed Piece.parensIf
  split
  · rw [tokensOf_parens, List.length_cons, List.length_append]
    omega
  · exact Nat.le_refl _

/-- A left operand is read as the head of the chain that its operator belongs to. -/
theorem Heads.placed (hg : g.Reads size) (he : e.WellFormed) (head : g.Heads e) {c : Continuation}
    (hs : (tokensOf (e.placed c.precedence e.pieces)).length ≤ size) (hl : level ≤ c.precedence)
    (loop : ∀ count, (c.tokens ++ t).length ≤ count →
      (g.operators level count e).Reads n (c.tokens ++ t) b s') :
    (g.chain level).Reads (max (e.headLevels c.precedence (e.inner false))
        (e.headLinks c.precedence e.links + n))
      (tokensOf (e.placed c.precedence e.pieces) ++ (c.tokens ++ t)) b s' := by
  unfold Expr.placed Expr.headLevels Expr.headLinks at *
  by_cases looser : e.precedence < c.precedence
  · simp only [looser, decide_true, Piece.parensIf, ↓reduceIte, Nat.cast_zero, zero_add] at hs ⊢
    have shorter : (tokensOf e.pieces).length < size := by
      rw [tokensOf_parens, List.length_cons, List.length_append] at hs
      omega
    exact reads_chain (reads_signedOperand rfl (hg.grouped he shorter _)) loop
  · simp only [looser, decide_false, Piece.parensIf, Bool.false_eq_true, ↓reduceIte] at hs ⊢
    exact head (by omega) (.of_continuation (by omega) t) loop

/-- The levels of a chain through one more operator. -/
theorem levels_link (first m n : ℕ∞) (links : Nat) :
    max first (links + (1 + max m n)) =
      max (max first (links + 1 + m)) ((links + 1 : Nat) + n) := by
  rw [max_assoc, ← add_assoc, add_max]
  push_cast
  rfl

/-- An expression made of a left operand and an operator is read as the head of a chain, if what is
behind the operator is read. -/
theorem Heads.continued (hg : g.Reads size) {left : Expr} (hw : left.WellFormed)
    (head : g.Heads left) {c : Continuation} {rest : List Spelled}
    (pieces : tokensOf e.pieces = tokensOf (left.placed c.precedence left.pieces) ++
      (c.tokens ++ rest))
    (hp : e.precedence = c.precedence) (hs : (tokensOf e.pieces).length ≤ size)
    {i : Bool → ℕ∞}
    (inner : ∀ beforeOver, e.inner beforeOver = max (left.headLevels c.precedence (left.inner false))
      (left.headLinks c.precedence left.links + 1 + i beforeOver))
    (links : e.links = left.headLinks c.precedence left.links + 1)
    (h : ∀ beforeOver r, Ends (c.precedence + 1) beforeOver r →
      (g.continued left c).Reads (i beforeOver) (rest ++ r) e r) : g.Heads e := by
  intro level beforeOver n b r s' hl hr loop
  rw [hp] at hl hr
  rw [pieces, List.length_append] at hs
  rw [pieces, inner, links, List.append_assoc, List.append_assoc, ← levels_link]
  refine head.placed hg hw (by omega) hl fun count enough => ?_
  have wide := c.width_pos
  rw [List.length_append, List.length_append, c.length_tokens] at enough
  obtain ⟨count, rfl⟩ : ∃ k, count = k + 1 := ⟨count - 1, by omega⟩
  exact reads_operators_next hl count ((h beforeOver r hr).bind (loop count (by omega)))

theorem tokensOf_testWords (negated : Bool) (test : Piece) :
    tokensOf (testWords negated test) =
      (negation negated).map Terminal.spelled ++ tokensOf [test] := by
  have behind : tokensOf [test, .space] = tokensOf [test] := tokensOf_spaced test
  unfold testWords
  rw [List.cons_append, tokensOf_space, tokensOf_append, tokensOf_flag, behind]
  cases negated <;> simp [negation]

/-- The set behind `IN`, without its parentheses. -/
theorem Reads.memberSet (hg : g.Reads size) {set : MemberSet} (hw : set.WellFormed)
    (hs : (tokensOf set.pieces).length < size) (r : List Spelled) :
    g.memberSet.Reads set.levels (tokensOf set.pieces ++ (Terminal.symbol rightParen).spelled :: r)
      set ((Terminal.symbol rightParen).spelled :: r) := by
  unfold Grammar.memberSet
  cases set with
  | list items =>
    rw [MemberSet.WellFormed] at hw
    rw [MemberSet.pieces] at hs ⊢
    rw [MemberSet.levels]
    refine (reads_peek _).next ?_
    rw [startsQuery_of_startsExpr (startsExpr_commas hw.1 _)]
    exact (hg.exprs hw.1 hw.2 hs (.cons (List.mem_singleton_self (Terminal.symbol rightParen)) r)
      (by decide) (by decide)).last (.pure _ _)
  | query q =>
    rw [MemberSet.WellFormed] at hw
    rw [MemberSet.pieces] at hs ⊢
    rw [MemberSet.levels]
    refine (reads_peek _).next ?_
    rw [startsQuery_query hw.1, hw.2]
    exact (hg.query hw.1 hs (.cons (t := rightParen) (by decide) r)).last (.pure _ _)

/-! ### Operators and their operands -/

/-- The tokens of an expression with a left operand and the operator `c`, whose further tokens are
`rest`. -/
def Continues (e left : Expr) (c : Continuation) (rest : List Spelled) : Prop :=
  tokensOf e.pieces = tokensOf (left.placed c.precedence left.pieces) ++ (c.tokens ++ rest)

theorem Continues.shorter {left : Expr} {c : Continuation} {rest : List Spelled}
    (h : Continues e left c rest) (hs : (tokensOf e.pieces).length ≤ size) :
    (tokensOf left.pieces).length ≤ size ∧ rest.length < size := by
  rw [h, List.length_append, List.length_append, c.length_tokens] at hs
  have wide := c.width_pos
  have longer := length_le_placed left c.precedence
  omega

theorem continues_binary (left : Expr) (op : BinaryOp) (right : Expr) :
    Continues (.binary left op right) left (.binary op)
      (tokensOf (right.placed (op.precedence + 1) right.pieces)) := by
  rw [Continues, Expr.pieces, tokensOf_append, tokensOf_append, tokensOf_spaced, op.tokensOf_piece,
    List.append_assoc]
  rfl

theorem continues_between (value low high : Expr) (negated : Bool) :
    Continues (.between value low high negated) value (.between negated)
      (tokensOf (low.placed Precedence.operand low.pieces) ++
        (Continuation.tokens (.binary .and) ++
          tokensOf (high.placed Precedence.operand high.pieces))) := by
  simp only [Continues, Expr.pieces, tokensOf_append, tokensOf_testWords, tokensOf_spaced,
    tokensOf_keyword, tokensOf_nil, List.append_assoc, Continuation.tokens, Continuation.printed,
    List.map_append]
  rfl

theorem continues_member (value : Expr) (set : MemberSet) (negated : Bool) :
    Continues (.member value set negated) value (.member negated)
      (tokensOf (Piece.parens set.pieces)) := by
  simp only [Continues, Expr.pieces, tokensOf_append, tokensOf_testWords, tokensOf_keyword,
    tokensOf_nil, List.append_assoc, Continuation.tokens, Continuation.printed, List.map_append]
  rfl

theorem continues_like (value : Expr) (op : LikeOp) (pattern : Expr) (negated : Bool) :
    Continues (.like value op pattern negated) value (.like op negated)
      (tokensOf (pattern.placed Precedence.operand pattern.pieces)) := by
  simp only [Continues, Expr.pieces, tokensOf_append, tokensOf_testWords, List.append_assoc,
    Continuation.tokens]
  cases op <;> simp [LikeOp.piece, Continuation.printed] <;> rfl

theorem continues_isNull (value : Expr) (negated : Bool) :
    Continues (.isNull value negated) value .nullTest
      ((negation negated ++ [Terminal.keyword NULL]).map Terminal.spelled) := by
  simp only [Continues, Expr.pieces, tokensOf_append, tokensOf_spaced, tokensOf_keyword,
    tokensOf_nil, tokensOf_flag, List.append_assoc, Continuation.tokens, Continuation.printed,
    List.map_append]
  cases negated <;> rfl

theorem continues_subscript (base index : Expr) :
    Continues (.subscript base index) base .subscript
      (tokensOf index.pieces ++ [(Terminal.symbol rightBracket).spelled]) := by
  simp only [Continues, Expr.pieces, tokensOf_append, tokensOf_symbol, tokensOf_nil,
    List.append_assoc]
  rfl

/-- Every expression is read as the head of a chain. -/
theorem Reads.heads (hg : g.Reads size) : (e : Expr) → e.WellFormed →
    (tokensOf e.pieces).length ≤ size → g.Heads e
  | .binary left op right, he, hs => by
    rw [Expr.WellFormed] at he
    have pieces := continues_binary left op right
    obtain ⟨shorter, shorterRest⟩ := pieces.shorter hs
    refine .continued hg he.1 (hg.heads left he.1 shorter) pieces rfl hs
      (fun beforeOver => by rw [Expr.inner]; rfl) rfl fun beforeOver r hr => ?_
    exact (hg.placed he.2 shorterRest hr).last (.pure _ r)
  | .between value low high negated, he, hs => by
    rw [Expr.WellFormed] at he
    have pieces := continues_between value low high negated
    obtain ⟨shorter, shorterRest⟩ := pieces.shorter hs
    simp only [List.length_append] at shorterRest
    refine .continued hg he.1 (hg.heads value he.1 shorter) pieces rfl hs
      (fun beforeOver => by rw [Expr.inner]; rfl) rfl fun beforeOver r hr => ?_
    rw [List.append_assoc, List.append_assoc]
    refine .bind (hg.placed he.2.1 (by omega) (.of_continuation (by decide) _)) ?_
    refine (reads_expect (Terminal.admits_self AND) _).next ?_
    exact .last (hg.placed he.2.2 (by omega) (show Ends Precedence.operand beforeOver r from hr))
      (.pure _ r)
  | .member value set negated, he, hs => by
    rw [Expr.WellFormed] at he
    have pieces := continues_member value set negated
    obtain ⟨shorter, shorterRest⟩ := pieces.shorter hs
    rw [tokensOf_parens, List.length_cons, List.length_append] at shorterRest
    refine .continued hg he.1 (hg.heads value he.1 shorter) pieces rfl hs
      (fun beforeOver => by rw [Expr.inner]; rfl) rfl fun beforeOver r hr => ?_
    rw [tokensOf_parens, List.cons_append, List.append_assoc]
    exact .last (.between (Terminal.admits_self leftParen) (Terminal.admits_self rightParen)
      (hg.memberSet he.2 (by omega) r)) (.pure _ r)
  | .like value op pattern negated, he, hs => by
    rw [Expr.WellFormed] at he
    have pieces := continues_like value op pattern negated
    obtain ⟨shorter, shorterRest⟩ := pieces.shorter hs
    refine .continued hg he.1 (hg.heads value he.1 shorter) pieces rfl hs
      (fun beforeOver => by rw [Expr.inner]; rfl) rfl fun beforeOver r hr => ?_
    exact (hg.placed he.2 shorterRest hr).last (.pure _ r)
  | .isNull value negated, he, hs => by
    rw [Expr.WellFormed] at he
    have pieces := continues_isNull value negated
    obtain ⟨shorter, -⟩ := pieces.shorter hs
    refine .continued hg he (hg.heads value he shorter) pieces rfl hs (fun beforeOver => ?_) rfl
      (i := fun _ => 0) fun beforeOver r hr => ?_
    · rw [Expr.inner, add_zero]
      rfl
    · cases negated with
      | true =>
        refine (reads_accept (Terminal.admits_self NOT) _).next ?_
        exact (reads_expect (Terminal.admits_self NULL) r).next (.pure _ r)
      | false =>
        refine (reads_accept_none (by simp [negation])).next ?_
        exact (reads_expect (Terminal.admits_self NULL) r).next (.pure _ r)
  | .subscript base index, he, hs => by
    rw [Expr.WellFormed] at he
    have pieces := continues_subscript base index
    obtain ⟨shorter, shorterRest⟩ := pieces.shorter hs
    rw [List.length_append] at shorterRest
    refine .continued hg he.1 (hg.heads base he.1 shorter) pieces rfl hs
      (fun beforeOver => by rw [Expr.inner]; rfl) rfl fun beforeOver r hr => ?_
    rw [List.append_assoc]
    refine .last (hg.anyExpr he.2 (by omega) (.of_terminal (t := rightBracket) (by decide) r)) ?_
    exact (reads_expect (Terminal.admits_self rightBracket) r).next (.pure _ r)
  | .unary op operand, he, hs => .unary hg op (by rwa [Expr.WellFormed] at he) hs
  | .literal _, he, hs | .column _, he, hs | .placeholder _, he, hs | .cases .., he, hs
  | .cast .., he, hs | .existence _, he, hs | .subquery _, he, hs | .call _, he, hs
  | .tuple _, he, hs | .array _, he, hs | .interval .., he, hs => .of_atom hg he rfl rfl hs

/-! ### The rule -/

/-- The levels inside an expression count those that its own operators hold open. -/
theorem links_le_inner (e : Expr) (beforeOver : Bool) : (e.links : ℕ∞) ≤ e.inner beforeOver := by
  cases e with
  | binary left op right | between value low high negated | member value set negated
  | like value op pattern negated | subscript base index =>
    rw [Expr.inner, Expr.links]
    push_cast
    exact le_max_of_le_right le_self_add
  | isNull value negated =>
    rw [Expr.inner, Expr.links]
    push_cast
    exact le_max_right _ _
  | _ => exact zero_le

/-- An expression is read back at every level of its place, with or without parentheses. -/
theorem Reads.exprRule (hg : g.Reads size) {grouped : Bool} (he : e.WellFormed)
    (hl : grouped = false → level ≤ e.precedence)
    (hs : (tokensOf (Piece.parensIf grouped e.pieces)).length ≤ size) (hr : Ends level beforeOver r) :
    (g.exprRule level).Reads (e.groupedLevels grouped beforeOver)
      (tokensOf (Piece.parensIf grouped e.pieces) ++ r) e r := by
  rw [exprRule_eq]
  cases grouped with
  | true =>
    have read := @Reads.operand g size level beforeOver r hg true e he (fun h => by cases h) hs hr
    refine .cast (.descend (reads_chain (reads_signedOperand rfl read)
      fun count _ => reads_operators_end count hr)) ?_
    rw [max_eq_left zero_le, Expr.groupedLevels, Expr.levels]
    simp only [↓reduceIte]
    rw [← add_assoc]
    rfl
  | false =>
    have low := hl rfl
    refine .cast (.descend (hg.heads e he hs low (hr.mono (by omega))
      fun count _ => reads_operators_end count hr)) ?_
    rw [add_zero, max_eq_left (links_le_inner e beforeOver), Expr.groupedLevels]
    rfl

end Grammar

end CanonicalSql
