import Mathlib
import CanonicalSql.Proofs.Completion.Expr

/-! Operands and operators: the rule for expressions is viable if the grammar for what stands inside is. -/

namespace CanonicalSql

open Keyword Word CanonicalSql.Symbol

namespace Completion

open Parse Grammar

variable {K : Completion} {α : Type} {I S F : Rests} {near : Prop} {us : List Terminal} {level n : ℕ}
  {s : List Spelled} {first : Spelled}

/-- The token that stands for the unit of an interval wherever one is missing. -/
def someUnit : Spelled := ⟨.ident "DAY", "DAY"⟩

theorem filling_someUnit : Filling [someUnit] :=
  .of_token? (.unit "DAY") (by cbv) rfl (by decide)

theorem ends_someUnit {r : List Spelled} (h : StartsWith someUnit r) : Ends level false r := by
  obtain ⟨s, rfl⟩ := h
  exact ⟨(fun c hc => by cases hc), rfl, rfl, rfl, (fun h => by cases h)⟩

/-- A conjunction binds less tightly than a test. -/
theorem ends_and {r : List Spelled} (h : Starts [AND] r) : ExprEnds Precedence.operand r := by
  obtain ⟨t, ht, s, rfl⟩ := h
  rw [List.mem_singleton.1 ht]
  exact Ends.of_continuation (c := .binary .and) (by decide) s

namespace Inside

/-! ### Case distinctions, casts and intervals -/

theorem caseArm (h : K.Inside) (ends : us.all Terminal.endsExpr = true) :
    K.Viable Nothing (StartsWith someNumber) (Starts us) near (fun g _ => g.anyExpr >>= fun condition =>
      expect THEN >>= fun _ => g.anyExpr >>= fun result => pure (⟨condition, result⟩ : CaseArm)) :=
  .bind (G := Starts [THEN]) (h.anyExpr (by decide)) fun condition =>
    .closing ((h.anyExpr ends).made (CaseArm.mk condition)) (by decide)

theorem caseArms (h : K.Inside) :
    K.Viable (Starts [END]) (Starts [END]) (Starts [END]) near (fun g n => g.caseArms n) := by
  refine .items (t := WHEN) (fun _ => rfl) (fun g n => ?_) (h.caseArm (by decide)) fun r h =>
    h.admits (by decide)
  simp only [Grammar.caseArms, bind_assoc, pure_bind]

/-- The arms of a case distinction.  Without an arm it is refused. -/
theorem someArms {Y : List CaseArm → Grammar → Parse Expr} (h : K.Inside)
    (hy : ∀ arms, K.Viable (Starts [END]) (Starts [END]) F near fun g _ => Y arms g) :
    K.Viable Nothing (Starts [WHEN]) F near (fun g n => g.caseArms n >>= fun arms =>
      if arms.isEmpty = true then fail .caseArm else Y arms g) := by
  -- Behind the first arm nothing is refused for the want of one.
  have others : K.Viable Nothing (StartsWith someNumber) F near fun g n => g.anyExpr >>= fun condition =>
      expect THEN >>= fun _ => g.anyExpr >>= fun result => g.caseArms n >>= fun others =>
        Y (⟨condition, result⟩ :: others) g := by
    have arms : K.Viable Nothing (StartsWith someNumber) F near fun g n => (g.anyExpr >>= fun condition =>
        expect THEN >>= fun _ => g.anyExpr >>= fun result =>
          pure (⟨condition, result⟩ : CaseArm)) >>= fun arm =>
          g.caseArms n >>= fun others => Y (arm :: others) g :=
      .bind (G := Starts [END]) (h.caseArm (by decide)) fun arm => h.caseArms.bind fun others => hy _
    simpa only [bind_assoc, pure_bind] using arms
  have round : ∀ g n, (g.caseArms (n + 1) >>= fun arms =>
      if arms.isEmpty = true then fail .caseArm else Y arms g) = accept WHEN >>= fun b =>
        if b = true then g.anyExpr >>= fun condition =>
          expect THEN >>= fun _ => g.anyExpr >>= fun result => g.caseArms n >>= fun others =>
            Y (⟨condition, result⟩ :: others) g
        else fail .caseArm := fun g n => by
    rw [Grammar.caseArms, accept_bind]
    simp only [bind_assoc, pure_bind, List.isEmpty_cons, Bool.false_eq_true, ↓reduceIte, List.isEmpty_nil]
  refine ⟨fun n s less => ?_, .round ?_⟩
  · cases n with
    | zero => exact .refused fun p hp => ⟨.caseArm, p, rfl⟩
    | succ n =>
      refine .round ?_
      simp only [round]
      refine .accept (Y := fun b g n => if b = true then _ else fail .caseArm) (fun first s' whole => ?_)
        (others.anywhere.fill) (.fail _)
      exact others.anywhere.course n s' (by rw [whole, List.length_cons] at less; omega)
  · simp only [round]
    exact .accept (Y := fun b g n => if b = true then _ else fail .caseArm) others.anywhere.fill (by decide)
      fun s => .first _ _ s

theorem cases_eq (g : Grammar) : g.cases =
    (sees WHEN >>= fun b => if b = true then pure none else some <$> g.anyExpr) >>= fun operand =>
      remaining >>= fun n => g.caseArms n >>= fun arms =>
        if arms.isEmpty = true then fail .caseArm else
          optional ELSE g.anyExpr >>= fun otherwise => expect END >>= fun _ =>
            pure (Expr.cases operand arms otherwise) := by
  rw [bind_assoc]
  refine congrArg _ (funext fun b => ?_)
  cases b <;> rfl

theorem cases (h : K.Inside) : K.Viable Nothing Anything F near (fun g _ => g.cases) := by
  have operand : K.Viable (Starts [WHEN]) (Starts [WHEN]) (Starts [WHEN]) True fun g _ =>
      sees WHEN >>= fun b =>
      if b = true then pure none else some <$> g.anyExpr :=
    .empty (fun r h => ⟨h, h.sees⟩) (((h.anyExpr (by decide)).map some))
  simp only [cases_eq]
  refine (operand.bind_solid fun operand => ?_).mono (fun _ _ h => h) (fun _ _ => trivial) (fun _ h => h) id
  exact (h.someArms (Y := fun arms g => optional ELSE g.anyExpr >>= fun otherwise => expect END >>= fun _ =>
    pure (Expr.cases operand arms otherwise)) fun arms =>
      .bind (.clause (h.anyExpr (by decide)) (by decide)) fun otherwise =>
      .closing (.result _) (by decide)).remaining

theorem cast (h : K.Inside) : K.Viable Nothing Anything F near (fun g _ => g.cast) :=
  .between (.bind (G := Starts [AS]) (h.anyExpr (by decide)) fun value => .closing
    ((h.dataType.before fun _ h => h.admits (by decide)).made (Expr.cast value)) (by decide))
      (by decide) (by decide)

theorem interval (h : K.Inside) : K.Viable Nothing (StartsWith someNumber) F near
    (fun g _ => g.interval) := by
  refine .bind (G := StartsWith someUnit) ((h.expr _).before fun _ => ends_someUnit) fun value => ?_
  refine .peek (fun k => k) (.ident "DAY") (fun n s less => ?_) ?fill
  case fill => exact .taken _ filling_someUnit fun s => ⟨⟨s, rfl⟩, rfl⟩
  cases hk : kindAt s 0 with
  | ident => exact .taken _ (ne_nil_of_kindAt hk (by simp))
  | _ => exact .fail _

/-! ### Parentheses -/

/-- A query, where one starts, and something else elsewhere. -/
theorem queryOr {A B : Grammar → Parse α} (some : K.Viable Nothing (Starts [SELECT]) F near fun g _ => A g)
    (none : K.Viable Nothing S F near fun g _ => B g) : K.Viable Nothing (Starts [SELECT]) F near
      (fun g _ => peek >>= fun k => if k.startsQuery = true then A g else B g) := by
  refine .peek (Y := fun b g _ => if b = true then A g else B g) Token.Kind.startsQuery true
    (fun n s less => ?_) (some.fill.mono (fun r h => ⟨h, ?_⟩) fun _ h => h)
  · cases (kindAt s 0).startsQuery with
    | true => exact (some.course n s less).mono (fun _ _ h => h.elim) (fun _ h => h) id
    | false => exact (none.course n s less).mono (fun _ _ h => h.elim) (fun _ h => h) id
  · obtain ⟨t, ht, s, rfl⟩ := h
    rw [List.mem_singleton.1 ht]
    rfl

/-- A query between parentheses or in front of what ends a statement. -/
theorem queryBefore (h : K.Inside) (ends : us ⊆ queryEnds) :
    K.Viable Nothing (Starts [SELECT]) (Starts us) near (fun g _ => g.query) :=
  h.query.mono (fun _ _ h => h) (fun _ h => h) (fun _ h => h.mono ends) fun _ => trivial

theorem parenthesized (h : K.Inside) :
    K.Viable Nothing (Starts [SELECT]) (Starts [rightParen]) True (fun g _ => g.parenthesized) := by
  refine queryOr ((h.queryBefore (by decide)).made Expr.subquery)
    (.bind (G := Starts [rightParen]) (.list (h.anyExpr (by decide)) (by decide)) fun items => ?_)
  split
  · exact .idle _
  · exact .idle _

theorem memberSet (h : K.Inside) :
    K.Viable Nothing (Starts [SELECT]) (Starts [rightParen]) True (fun g _ => g.memberSet) :=
  queryOr (A := fun g => g.query >>= fun q => pure (MemberSet.query q))
    (B := fun g => commaList g.anyExpr >>= fun items => pure (MemberSet.list items))
    ((h.queryBefore (by decide)).made MemberSet.query)
      ((Viable.list (h.anyExpr (by decide)) (by decide)).made MemberSet.list)

/-! ### Operands -/

/-- A rule that stands behind the first token of an operand. -/
theorem startedBy {X : Scheme Expr} {k : Token.Kind} (hk : first.kind = k)
    (hx : K.Viable I S F near X) (less : s.length ≤ n)
    (same : ∀ (g : Grammar) (n : ℕ) (p : Parser), p.cursor.current.kind = k →
      g.operand p = X g n { p with cursor := p.cursor.advance }) :
    K.Goes Nothing F near (fun g _ => g.operand) n (first :: s) :=
  .behind (w := [first]) (hx.anywhere.course n s less) hx.anywhere.fill (by simp) fun s g n p hp =>
    ⟨_, hp.advance, .advance hp, same g n p ((congrArg Spelled.kind hp.current).trans hk)⟩

theorem keywordOperand_other (g : Grammar) (token : Token) {k : Keyword}
    (other : k ∉ [TRUE, FALSE, NULL, CASE, CAST, EXISTS, INTERVAL]) :
    g.keywordOperand token k = sees leftParen >>= fun b =>
      if (k.namesFunction && b) = true then g.call token.text else failAt token .expression := by
  cases k <;> first | rfl | exact absurd (by decide) other

theorem keywordGoes (h : K.Inside) {k : Keyword} (hk : first.kind = .keyword k) (less : s.length ≤ n) :
    K.Goes Nothing (Ends level false) near (fun g _ => g.operand) n (first :: s) := by
  have run : ∀ (g : Grammar) (p : Parser), p.cursor.current.kind = .keyword k → g.operand p =
      g.keywordOperand p.cursor.current k { p with cursor := p.cursor.advance } := fun g p kind => by
    rw [Grammar.operand, advance_bind, kind]
  by_cases special : k ∈ [TRUE, FALSE, NULL, CASE, CAST, EXISTS, INTERVAL]
  · simp only [List.mem_cons, List.not_mem_nil, or_false] at special
    rcases special with rfl | rfl | rfl | rfl | rfl | rfl | rfl
    · exact startedBy hk (.result (.literal (.boolean true))) less fun g _ p kind => run g p kind
    · exact startedBy hk (.result (.literal (.boolean false))) less fun g _ p kind => run g p kind
    · exact startedBy hk (.result (.literal .null)) less fun g _ p kind => run g p kind
    · exact startedBy hk h.cases less fun g _ p kind => run g p kind
    · exact startedBy hk h.cast less fun g _ p kind => run g p kind
    · exact startedBy hk ((Viable.between (h.queryBefore (by decide)) (by decide)
      (by decide)).made Expr.existence) less
        fun g _ p kind => run g p kind
    · exact startedBy hk h.interval less fun g _ p kind => run g p kind
  by_cases called : k.namesFunction = true ∧ (Terminal.symbol leftParen).admits (kindAt s 0) = true
  · obtain ⟨function, opens⟩ := called
    cases s with
    | nil => simp [Terminal.admits_eof] at opens
    | cons paren s =>
      have args : K.Viable Anything Anything (Ends level false) near fun g _ => g.callArgs >>= fun args =>
          expect rightParen >>= fun _ => optional OVER g.window >>= fun window =>
            pure (Expr.call ⟨first.text, args.1, args.2, window⟩) := h.opened first.text
      refine .behind (w := [first, paren]) (args.course n s (Nat.le_of_succ_le less)) args.fill (by simp)
        fun s g n p hp => ⟨_, hp.advance.advance, (Cursor.Moves.advance hp).trans (.advance hp.advance), ?_⟩
      have text : p.cursor.current.text = first.text := congrArg Spelled.text hp.current
      have here : (Terminal.symbol leftParen).admits p.cursor.advance.current.kind = true :=
        hp.advance.kind ▸ opens
      rw [run g p ((congrArg Spelled.kind hp.current).trans hk), keywordOperand_other g _ special, text,
        function, call_eq, expect_bind, sees_bind, here, Bool.and_self, if_pos rfl,
        Parse.bind_of_ok (accept_of_admits here), if_pos rfl]
  · refine .refused fun p hp => ⟨.expression, { p with cursor := p.cursor.advance }, ?_⟩
    have other : (k.namesFunction && (Terminal.symbol leftParen).admits p.cursor.advance.current.kind) = false := by
      rw [hp.advance.kind]
      simpa using called
    rw [run _ p ((congrArg Spelled.kind hp.current).trans hk), keywordOperand_other _ _ special, sees_bind,
      other]
    rfl

theorem symbolGoes (h : K.Inside) {c : Symbol} (hk : first.kind = .symbol c) (less : s.length ≤ n) :
    K.Goes Nothing F near (fun g _ => g.operand) n (first :: s) := by
  have run : ∀ (g : Grammar) (p : Parser), p.cursor.current.kind = .symbol c → g.operand p =
      g.symbolOperand p.cursor.current c { p with cursor := p.cursor.advance } := fun g p kind => by
    rw [Grammar.operand, advance_bind, kind]
  have array : K.Viable Anything Anything F near fun g _ =>
      commaListUpTo rightBracket g.anyExpr >>= fun items =>
      expect rightBracket >>= fun _ => pure (Expr.array items) :=
    .bind (.commaListUpTo (by decide) (h.anyExpr (by decide))) fun items => .closing (.result _) (by decide)
  have grouped : K.Viable Nothing (Starts [SELECT]) F near fun g _ => g.parenthesized >>= fun e =>
      expect rightParen >>= fun _ => pure e :=
    .bind h.parenthesized fun e => .closing (.result e) (by decide)
  by_cases bracket : c = leftBracket
  · subst bracket
    exact startedBy hk array less fun g _ p kind => run g p kind
  by_cases paren : c = leftParen
  · subst paren
    exact startedBy hk grouped less fun g _ p kind => run g p kind
  · refine .refused fun p hp => ⟨.expression, { p with cursor := p.cursor.advance }, ?_⟩
    rw [run _ p ((congrArg Spelled.kind hp.current).trans hk)]
    cases c <;> first | rfl | contradiction

theorem operand (h : K.Inside) : K.Course Nothing (Ends level false) near fun g _ => g.operand := by
  rintro n (_ | ⟨first, s⟩) less
  · refine .refused fun p hp => ⟨.expression, { p with cursor := p.cursor.advance }, ?_⟩
    have kind : p.cursor.current.kind = .eof := hp.kind
    rw [Grammar.operand, advance_bind, kind]
    rfl
  · have shorter : s.length ≤ n := Nat.le_of_succ_le less
    cases hk : first.kind with
    | number t =>
      exact startedBy hk (.result (.number t)) shorter fun g _ p kind => by
        rw [Grammar.operand, advance_bind, kind]
    | string value =>
      exact startedBy hk (.result (.string value)) shorter fun g _ p kind => by
        rw [Grammar.operand, advance_bind, kind]
    | question =>
      exact startedBy hk (.result (.placeholder .anonymous)) shorter fun g _ p kind => by
        rw [Grammar.operand, advance_bind, kind]
    | questionNumber number =>
      exact startedBy hk (.result (.placeholder (.numbered number))) shorter fun g _ p kind => by
        rw [Grammar.operand, advance_bind, kind]
    | colonParam name =>
      exact startedBy hk (.result (.placeholder (.named name))) shorter fun g _ p kind => by
        rw [Grammar.operand, advance_bind, kind]
    | dollarParam name =>
      exact startedBy hk (.result (.placeholder (.dollar name))) shorter fun g _ p kind => by
        rw [Grammar.operand, advance_bind, kind]
    | ident name | quotedIdent name =>
      exact startedBy hk (h.named name) shorter fun g _ p kind => by
        rw [Grammar.operand, advance_bind, kind]
    | keyword k => exact h.keywordGoes hk shorter
    | symbol c => exact h.symbolGoes hk shorter
    | eof =>
      refine .refused fun p hp => ⟨.expression, { p with cursor := p.cursor.advance }, ?_⟩
      have kind : p.cursor.current.kind = .eof := (congrArg Spelled.kind hp.current).trans hk
      rw [Grammar.operand, advance_bind, kind]
      rfl

theorem signedOperand (h : K.Inside) : K.Course Nothing (ExprEnds level) near
    (fun g _ => g.signedOperand) := by
  have inner : ∀ (op : UnaryOp) (l : ℕ), Precedence.negation ≤ l → K.Viable Nothing
      (StartsWith someNumber) (ExprEnds level) near
      fun g _ => g.expr l >>= fun e => pure (Expr.unary op e) := fun op l tight => by
    refine Viable.made (Expr.unary op) ((h.expr l).mono (fun _ _ h => h) (fun _ h => h) (fun r ends => ?_)
      fun _ => trivial)
    exact ends.mono (by omega)
  exact .choose (inner .not _ le_rfl) (.choose (inner .minus _ (by decide))
    (.choose (inner .plus _ (by decide)) h.operand))

end Inside

end Completion

end CanonicalSql
