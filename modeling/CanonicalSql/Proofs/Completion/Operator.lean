import Mathlib
import CanonicalSql.Proofs.Completion.Operand

/-! Operators: the rule for expressions is viable if the grammar for what stands inside is. -/

namespace CanonicalSql

open Keyword Word CanonicalSql.Symbol

namespace Continuation

variable {first next next' : Token.Kind} {c : Continuation}

/-- Only `NOT` announces an operator together with the token behind it. -/
theorem ofKinds?_congr (other : first ≠ .keyword NOT) (next next' : Token.Kind) :
    ofKinds? first next = ofKinds? first next' := by
  cases first with
  | keyword k => cases k <;> first | rfl | contradiction
  | _ => rfl

theorem width_of_other (other : first ≠ .keyword NOT) (h : ofKinds? first next = some c) :
    c.width = 1 := by
  cases first with
  | keyword k => cases k <;> first | contradiction | (cases h; rfl)
  | symbol s => cases s <;> cases h <;> rfl
  | _ => cases h

/-- The tests that `NOT` stands before are told by their words. -/
theorem test_of_negated (h : ofKinds? (.keyword NOT) next = some c) :
    c.width = 2 ∧ ∃ t ∈ tellingTerminals, t.admits next = true := by
  cases next with
  | keyword k =>
    have test : c.width = 2 ∧ Terminal.keyword k ∈ tellingTerminals := by
      cases k <;> first | (cases h; decide) | cases h
    exact ⟨test.1, _, test.2, Terminal.admits_self (.keyword k)⟩
  | _ => cases h

/-- The tokens that announce an operator announce it in front of all others. -/
theorem exists_announced {s : List Spelled} (h : ofKinds? (kindAt s 0) (kindAt s 1) = some c) :
    ∃ w s', s = w ++ s' ∧ w.length = c.width ∧
      ∀ r, ofKinds? (kindAt (w ++ r) 0) (kindAt (w ++ r) 1) = some c := by
  cases s with
  | nil => cases h
  | cons first s =>
    by_cases negated : first.kind = .keyword NOT
    · have test := h
      rw [kindAt_cons_zero, negated, kindAt_cons_succ] at test
      obtain ⟨width, t, -, admits⟩ := test_of_negated test
      cases s with
      | nil => simp [t.admits_eof] at admits
      | cons second s => exact ⟨[first, second], s, rfl, width.symm, fun r => h⟩
    · exact ⟨[first], s, rfl, (width_of_other negated h).symm, fun r =>
        (ofKinds?_congr negated _ _).trans h⟩

end Continuation

/-- Whether no operator of the level is ahead. -/
def Stops (level : ℕ) (s : List Spelled) : Prop :=
  ∀ c, Continuation.ofKinds? (kindAt s 0) (kindAt s 1) = some c → c.precedence < level

theorem Harmless.admits {s : List Spelled} (h : Harmless s) :
    ∀ t ∈ tellingTerminals, t.admits (kindAt s 0) = false := by
  cases s with
  | nil => exact fun t _ => t.admits_eof
  | cons first s =>
    rcases h with semicolon | ⟨silent, -⟩
    · rw [kindAt_cons_zero, semicolon]
      decide
    · exact silent

theorem Stops.near {level : ℕ} {s s' : List Spelled} (h : Stops level s) (near : Near s s') :
    Stops level s' := by
  obtain ⟨w, t, t', some, rfl, rfl, harmless⟩ := near
  obtain ⟨first, w, rfl⟩ := List.exists_cons_of_ne_nil some
  intro c hc
  cases w with
  | cons second w => exact h c hc
  | nil =>
    rw [List.cons_append, List.nil_append, kindAt_cons_zero, kindAt_cons_succ] at hc
    by_cases negated : first.kind = .keyword NOT
    · rw [negated] at hc
      obtain ⟨-, u, hu, admits⟩ := Continuation.test_of_negated hc
      rw [harmless.admits u hu] at admits
      cases admits
    · exact h c ((Continuation.ofKinds?_congr negated _ _).trans hc)

namespace Completion

open Parse Grammar

variable {K : Completion} {α : Type} {I S F : Rests} {near : Prop} {us : List Terminal} {level n : ℕ}
  {s : List Spelled} {first : Spelled}

namespace Inside

/-- An expression at a level that is not below that of the whole. -/
theorem tighter (h : K.Inside) {l : ℕ} (tight : min level Precedence.negation ≤ l) :
    K.Viable Nothing (StartsWith someNumber) (ExprEnds level) near (fun g _ => g.expr l) :=
  (h.expr l).mono (fun _ _ h => h) (fun _ h => h) (fun _ ends => ends.mono (by omega)) fun _ => trivial

theorem continued (h : K.Inside) {c : Continuation} (hl : level ≤ c.precedence) (left : Expr) :
    K.Viable Anything Anything (ExprEnds level) near fun g _ => g.continued left c := by
  cases c with
  | subscript =>
    have index : K.Viable Nothing (StartsWith someNumber) (ExprEnds level) near fun g _ =>
        g.anyExpr >>= fun index =>
        expect rightBracket >>= fun _ => pure (Expr.subscript left index) :=
      .bind (G := Starts [rightBracket]) (h.anyExpr (by decide)) fun index => .closing (.result _) (by decide)
    exact index.anywhere
  | binary op =>
    change level ≤ op.precedence at hl
    exact ((h.tighter (by omega)).made (Expr.binary left op)).anywhere
  | nullTest =>
    have test : K.Viable (Starts [NULL]) (Starts [NULL]) (ExprEnds level) near fun _ _ =>
        accept NOT >>= fun negated =>
        expect NULL >>= fun _ => pure (Expr.isNull left negated) :=
      .bind (.accepted fun _ h => h.admits (by decide)) fun negated => .closing (.result _) (by decide)
    exact test.anywhere
  | between negated =>
    have bounds : K.Viable Nothing (StartsWith someNumber) (ExprEnds level) near fun g _ =>
        g.expr Precedence.operand >>= fun low => expect AND >>= fun _ =>
          g.expr Precedence.operand >>= fun high => pure (Expr.between left low high negated) :=
      .bind ((h.expr _).before fun _ => ends_and) fun low => .closing
        ((h.tighter ((Nat.min_le_right _ _).trans (by decide))).made fun high =>
          Expr.between left low high negated) (by decide)
    exact bounds.anywhere
  | member negated =>
    have set : K.Viable Nothing Anything (ExprEnds level) near fun g _ =>
        between leftParen rightParen g.memberSet >>= fun set => pure (Expr.member left set negated) :=
      (Viable.between h.memberSet (by decide) (by decide)).made fun set => Expr.member left set negated
    exact set.anywhere
  | like op negated =>
    exact ((h.tighter ((Nat.min_le_right _ _).trans (by decide))).made fun pattern =>
      Expr.like left op pattern negated).anywhere

/-- One level deeper behind the tokens `w`, if there is a level left. -/
theorem descend_skip {α : Type} (x : Parse α) {w : List Spelled} {p : Parser} (hp : p.cursor.Shows (w ++ s)) :
    ∃ c : Cursor, c.Shows s ∧ p.cursor.Moves w c ∧
      (descend (skip w.length >>= fun _ => x) p = descend x { p with cursor := c } ∨ p.room = 0 ∧
        ∃ position limit q, descend (skip w.length >>= fun _ => x) p = .error
          (.tooDeep position limit) q) := by
  obtain ⟨c, hc, moves, run⟩ := skip_of_shows (p := { p with depth := p.depth + 1 }) hp
  refine ⟨c, hc, moves, ?_⟩
  by_cases room : p.depth < p.limit
  · left
    simp only [descend, room, ↓reduceIte, Parse.bind_of_ok run]
  · right
    refine ⟨by unfold Parser.room; omega, p.cursor.current.position, p.limit, p, ?_⟩
    simp only [descend, room, ↓reduceIte]

theorem operators_of_stops {g : Grammar} {left : Expr} {p : Parser} (hp : p.cursor.Shows s)
    (stops : Stops level s) : g.operators level n left p = .ok left p := by
  cases n with
  | zero => rfl
  | succ n =>
    rw [Grammar.operators, peek_bind, peekAt_bind, hp.kind, hp.peekAt 1]
    cases announced : Continuation.ofKinds? (kindAt s 0) (kindAt s 1) with
    | none => rfl
    | some c =>
      simp only [stops c announced, ↓reduceIte]
      rfl

theorem operators_of_announced {g : Grammar} {left : Expr} {p : Parser} {c : Continuation}
    (hp : p.cursor.Shows s) (announced : Continuation.ofKinds? (kindAt s 0) (kindAt s 1) = some c)
    (tight : level ≤ c.precedence) : g.operators level (n + 1) left p =
      descend (skip c.width >>= fun _ => g.continued left c >>= fun left => g.operators level n left) p := by
  rw [Grammar.operators, peek_bind, peekAt_bind, hp.kind, hp.peekAt 1, announced]
  simp only [Nat.not_lt.2 tight, ↓reduceIte]

theorem operators (h : K.Inside) (left : Expr) : K.Viable (ExprEnds level) (ExprEnds level)
    (ExprEnds level) near
    fun g n => g.operators level n left := by
  have stop : ∀ r, ExprEnds level r → Stops level r := fun r ends c hc =>
    (ends.stops c hc).trans_le (Nat.min_le_left _ _)
  refine .loop (X := fun left g n => g.operators level n left) (e := id) ?_ ?_ left
  · rintro left g n r (rfl | ends) p hp
    · exact operators_of_stops hp fun c hc => by cases hc
    · exact operators_of_stops hp (stop r ends)
  · intro fill left n s less others
    by_cases stops : Stops level s
    · have here : ∀ r, Fits (ExprEnds level) r → ExprEnds level r ∧ Stops level r := fun r fits =>
        ⟨fits.1, stop r fits.1⟩
      refine (Goes.pure left here).told stops (fun s' => stops.near) fun s g n p stops hp => ?_
      rw [operators_of_stops hp stops]
      rfl
    · obtain ⟨c, announced, tight⟩ : ∃ c, Continuation.ofKinds? (kindAt s 0) (kindAt s 1) = some c ∧
          level ≤ c.precedence := by
        simpa [Stops] using stops
      obtain ⟨w, s, rfl, width, announces⟩ := Continuation.exists_announced announced
      have some : w ≠ [] := by
        have pos := c.width_pos
        rintro rfl
        simp at width
        omega
      have shorter : s.length ≤ n := by
        have pos := c.width_pos
        rw [List.length_append] at less
        omega
      have node : K.Viable Anything Anything (ExprEnds level) True fun g _ => g.continued left c :=
        h.continued tight left
      have goes : K.Goes Anything (ExprEnds level) near
          (fun g n => g.continued left c >>= fun left => g.operators level n left) n s :=
        ((node.course n s shorter).bind (fun a u r whole _ => others a r (by
          rw [whole, List.length_append, List.length_append]
          have pos := c.width_pos
          omega)) fill fun _ h => h).mono (fun _ _ h => h.1) (fun _ h => h) id
      refine goes.descend.deeper (node.fill.bind fill).descend some trivial (fun _ _ => trivial)
        fun s g n p _ hp => ?_
      rw [operators_of_announced hp (announces s) tight, ← width]
      exact descend_skip _ hp

theorem exprRule (h : K.Inside) (level : ℕ) : K.Course Nothing (ExprEnds level) near fun g _ =>
    g.exprRule level := by
  simp only [exprRule_eq_operators]
  intro n s less
  have rule : K.Course (fun r => Nothing r ∧ ExprEnds level r) (ExprEnds level) near fun g _ =>
      g.signedOperand >>= fun left => remaining >>= fun n => g.operators level n left :=
    .bind h.signedOperand (fun left => (h.operators left).remaining) fun _ h => h
  exact ((rule.mono (fun _ _ h => h.1) (fun _ h => h) id) n s less).descend

end Inside

end Completion

end CanonicalSql
