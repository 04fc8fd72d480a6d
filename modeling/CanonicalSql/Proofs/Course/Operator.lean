import CanonicalSql.Proofs.Chain
import CanonicalSql.Proofs.Course.Expr

/-! What the rules for operators give.  An operator nests the tree one level deeper, but the levels of
its chain are given back when the chain ends, so operands of a chain can be as deep as the chain is
long and as deep again as its levels allow. -/

namespace CanonicalSql

open Keyword Word CanonicalSql.Symbol

namespace Continuation

/-- The tokens that announce an operator are no constants and no marks of the end. -/
theorem silent_of_ofKinds? {first next : Token.Kind} {c : Continuation}
    (h : ofKinds? first next = some c) :
    first.isLiteral = false ∧ first ≠ .eof ∧
      (c.width = 2 → next.isLiteral = false ∧ next ≠ .eof) ∧ (c.width = 1 ∨ c.width = 2) := by
  have width : c.width = 1 ∨ c.width = 2 := by
    unfold width
    split <;> simp
  cases first with
  | symbol s =>
    refine ⟨rfl, by simp, fun two => ?_, width⟩
    unfold ofKinds? at h
    cases s <;> cases h <;> simp [Continuation.width] at two
  | keyword k =>
    refine ⟨rfl, by simp, fun two => ?_, width⟩
    have plainly : ∀ k', test? false k' = some c → c.width = 1 := by
      intro k' hk
      unfold test? at hk
      split at hk <;> cases hk <;> rfl
    cases next with
    | keyword k' => exact ⟨rfl, by simp⟩
    | _ =>
      unfold ofKinds? ofKeyword? at h
      dsimp only at h
      split at h
      all_goals first | (cases h; simp [Continuation.width] at two) | skip
      · simp_all
      · have one := plainly _ h
        omega
  | _ => simp [ofKinds?] at h

end Continuation

namespace Grammar

open Parse

variable {plain : Prop} {g : Grammar}

theorem Sound.signedOperand (hg : g.Sound plain) : SoundOperand plain g.signedOperand := by
  have signed : ∀ (op : UnaryOp) (level : Nat),
      SoundOperand plain (do return .unary op (← g.expr level)) := by
    intro op level
    refine .last ((hg.expr level).mono fun _ _ e h => h.node id ?_ ?_)
    · simp [Construct.depth, Expr.depth]
      omega
    · simp [Construct.literals, Expr.pieces]
  exact .accept (signed _ _) (.accept (signed _ _) (.accept (signed _ _) hg.operand))

theorem Sound.memberSet (hg : g.Sound plain) : g.memberSet.Sound plain := by
  intro c
  refine .peek ?_
  split
  · next starts =>
    refine (hg.query c).bind fun n ts query c' h hc => .pure ?_
    obtain ⟨holds, t, us, rfl, bare, -⟩ := h
    obtain rfl : c.current = t := by
      simpa [Cursor.upcoming] using congrArg List.head? hc
    simp only [Nat.max_zero, List.append_nil]
    refine holds.into (fun w => ⟨w, bare starts⟩) ?_ ?_
    · simp [Construct.depth, MemberSet.depth]
    · simp [Construct.literals, MemberSet.pieces]
  · refine Yields.here (.last (hg.anyExpr.commaList.mono fun _ _ items h => ?_))
    refine h.2.into (fun w => ⟨h.1, Expr.allWellFormed_iff.2 w⟩) ?_ ?_
    · simp [Construct.depth, MemberSet.depth]
    · simp [Construct.literals, MemberSet.pieces]

/-- What is known of an expression that goes on from `left`. -/
def SoundBehind (plain : Prop) (left : Expr) (bound : ℕ → ℕ) (x : Parse Expr) : Prop :=
  x.Yields plain fun n ls e => Holds plain (bound n) (Piece.literals left.pieces ++ ls) e

/-- An operator puts its node on top of `left` and its other operands. -/
theorem holds_operator {α : Type} [Construct α] {left e : Expr} {n : ℕ} {ls : List Token.Kind}
    {a : α} (hl : left.WellFormed) (h : Holds plain (triangle n) ls a)
    (wellFormed : left.WellFormed → Construct.WellFormed a → e.WellFormed)
    (shallow : e.depth ≤ max left.depth (Construct.depth a) + 1)
    (literals : Piece.literals e.pieces = Piece.literals left.pieces ++ Construct.literals a) :
    Holds plain (max left.depth (triangle n) + 1) (Piece.literals left.pieces ++ ls) e where
  wellFormed := wellFormed hl h.wellFormed
  shallow := by
    have inner := h.shallow
    change e.depth ≤ _
    omega
  literals hp := by
    rw [h.literals hp]
    exact literals.symm

theorem Sound.continued (hg : g.Sound plain) {left : Expr} (hl : left.WellFormed)
    (c : Continuation) :
    SoundBehind plain left (fun n => max left.depth (triangle n) + 1) (g.continued left c) := by
  cases c with
  | subscript =>
    refine .bind hg.anyExpr fun _ _ index h => .expect (.pure ?_)
    simp only [Nat.max_zero, List.append_nil]
    exact holds_operator hl h (fun wl w => ⟨wl, w⟩)
      (by simp only [Construct.depth, Expr.depth]; omega)
      (by simp [Construct.literals, Expr.pieces])
  | binary op =>
    refine .last ((hg.expr _).mono fun _ _ right h => holds_operator hl h (fun wl w => ⟨wl, w⟩) ?_ ?_)
    · simp only [Construct.depth, Expr.depth]
      omega
    · simp [Construct.literals, Expr.pieces]
  | nullTest =>
    refine .bind (sound_accept _) fun _ _ negated h => .expect (.pure ?_)
    simp only [Nat.max_zero, List.append_nil]
    exact holds_operator hl h (fun wl _ => wl)
      (by simp only [Expr.depth]; omega)
      (by cases negated <;> simp [Construct.literals, Expr.pieces])
  | between negated =>
    refine .bind (hg.expr _) fun _ _ low h1 => .expect (.last ((hg.expr _).mono fun _ _ high h2 => ?_))
    refine holds_operator hl (h1.and h2) (fun wl w => ⟨wl, w⟩) ?_ ?_
    · simp only [Construct.depth, Expr.depth]
      omega
    · simp [Construct.literals, Expr.pieces]
  | member negated =>
    refine .last ((hg.memberSet.between _ _).mono fun _ _ set h => ?_)
    refine holds_operator hl h (fun wl w => ⟨wl, w⟩) ?_ ?_
    · simp only [Construct.depth, Expr.depth]
      omega
    · simp [Construct.literals, Expr.pieces]
  | like op negated =>
    refine .last ((hg.expr _).mono fun _ _ pattern h => ?_)
    refine holds_operator hl h (fun wl w => ⟨wl, w⟩) ?_ ?_
    · simp only [Construct.depth, Expr.depth]
      omega
    · simp [Construct.literals, Expr.pieces]

/-- The tokens that announce an operator are passed over. -/
theorem gives_skip_width {c : Cursor} {op : Continuation} {y : Parse Expr}
    {R : ℕ → List Token.Kind → Expr → Prop}
    (ho : Continuation.ofKinds? c.current.kind (c.peekAt 1).kind = some op)
    (hy : y.Yields plain R) :
    (Parse.skip op.width >>= fun _ => y).GivesAt plain c fun n ts e _ => R n (literalsOf ts) e := by
  obtain ⟨silent, noEnd, second, width⟩ := Continuation.silent_of_ofKinds? ho
  refine .silently (fun i hi => ?_) hy
  rcases width with one | two
  · obtain rfl : i = 0 := by omega
    exact ⟨silent, noEnd⟩
  · obtain rfl | rfl : i = 0 ∨ i = 1 := by omega
    · exact ⟨silent, noEnd⟩
    · exact second two

/-- A chain of operators from `left` on. -/
theorem Sound.operators (hg : g.Sound plain) (level count : Nat) {left : Expr}
    (hl : left.WellFormed) :
    SoundBehind plain left (fun n => max left.depth (triangle n) + n)
      (g.operators level count left) := by
  have stop : ∀ {left : Expr}, left.WellFormed →
      Holds plain (max left.depth (triangle 0) + 0) (Piece.literals left.pieces ++ []) left :=
    fun hl => ⟨hl, le_max_left _ _, fun _ => List.append_nil _⟩
  induction count generalizing left with
  | zero => exact .pure (stop hl)
  | succ count ih =>
    intro c
    refine .peek (.peekAt ?_)
    cases ho : Continuation.ofKinds? c.current.kind (c.peekAt 1).kind with
    | none => exact .pure (stop hl)
    | some op =>
      dsimp only
      split
      · exact .pure (stop hl)
      refine .descend (gives_skip_width (R := fun n ls e =>
        Holds plain (max left.depth (triangle (n + 1)) + (n + 1))
          (Piece.literals left.pieces ++ ls) e) ho ?_)
      refine .bind (hg.continued hl op) fun n ls next h => ?_
      refine (ih h.wellFormed).mono fun m ks e h' => ⟨h'.wellFormed, h'.shallow.trans ?_, fun hp => ?_⟩
      · have deep : next.depth ≤ max left.depth (triangle n) + 1 := h.shallow
        change max next.depth (triangle m) + m ≤ _
        rw [triangle, triangle_max]
        omega
      · rw [← List.append_assoc, h.literals hp]
        exact h'.literals hp

theorem Sound.exprRule (hg : g.Sound plain) (level : Nat) : (g.exprRule level).Sound plain := by
  rw [exprRule_eq_operators]
  refine .descend (.bind hg.signedOperand fun n ls left h => .remaining fun count => ?_)
  refine (hg.operators level count h.wellFormed).mono fun m ks e h' =>
    ⟨h'.wellFormed, h'.shallow.trans ?_, fun hp => ?_⟩
  · have deep : left.depth ≤ triangle n + 1 := h.shallow
    change max left.depth (triangle m) + m ≤ _
    rw [triangle, triangle_max]
    omega
  · rw [h.literals hp]
    exact h'.literals hp

end Grammar

end CanonicalSql
