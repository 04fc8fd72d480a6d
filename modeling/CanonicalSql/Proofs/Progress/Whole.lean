import CanonicalSql.Proofs.Progress.Statement

/-! The grammar as a whole, each construct of which is read to its end, and what this makes of the parser:
every run of it is a way of single steps, and it closes just the levels that it has opened. -/

namespace CanonicalSql

namespace Grammar

open Parse

/-! ### Grammars whose rules have plans -/

/-- Whether every rule is made of single steps. -/
abbrev Planned (g : Grammar) : Prop := g.Together 0 g

/-- There are never fewer than no tokens behind the current one. -/
theorem Planned.nowhere {g : Grammar} (hg : g.Planned) (g' : Grammar) : g.Together 0 g' := by
  have none : ∀ {α : Type} (x y : Parse α), Parse.Agree 0 x y :=
    fun _ _ _ _ near => absurd near (Nat.not_lt_zero _)
  exact ⟨fun level => ⟨(hg.expr level).planned, none _ _⟩, ⟨hg.query.planned, none _ _⟩,
    fun level => ⟨(hg.body level).planned, none _ _⟩, ⟨hg.dataType.planned, none _ _⟩,
    ⟨hg.statement.planned, none _ _⟩⟩

theorem planned_upTo (count : ℕ) : (upTo count).Planned := by
  induction count with
  | zero => exact ⟨fun _ => .fail _, .fail _, fun _ => .fail _, .fail _, .fail _⟩
  | succ count ih => exact ih.step.mono (Nat.zero_le 1)

/-- Two grammars that are deep enough do the same. -/
theorem together_upTo {n count other : ℕ} (enough : n ≤ count) (enough' : n ≤ other) :
    (upTo count).Together n (upTo other) := by
  induction n generalizing count other with
  | zero => exact (planned_upTo count).nowhere _
  | succ n ih =>
    cases count with
    | zero => exact absurd enough (Nat.not_succ_le_zero n)
    | succ count =>
      cases other with
      | zero => exact absurd enough' (Nat.not_succ_le_zero n)
      | succ other =>
        exact (ih (Nat.le_of_succ_le_succ enough) (Nat.le_of_succ_le_succ enough')).step

/-- The grammar of constructs that hold at most `count` others of their kinds inside one another, with `base`
for those that are deeper. -/
def above (base : Grammar) : (count : ℕ) → Grammar
  | 0 => base
  | count + 1 => (above base count).step

/-- What stands at the bottom of a grammar that is deep enough plays no part. -/
theorem together_above (base : Grammar) (n : ℕ) : (upTo n).Together n (above base n) := by
  induction n with
  | zero => exact (planned_upTo 0).nowhere base
  | succ n ih => exact ih.step

/-- The grammar that reads each construct to its end. -/
def whole : Grammar where
  expr level := rule fun g => g.expr level
  query := rule fun g => g.query
  body level := rule fun g => g.body level
  dataType := rule fun g => g.dataType
  statement := rule fun g => g.statement

/-- A rule that reads to its end does what it does within every grammar that is deep enough. -/
theorem together_rule {α : Type} (x : Grammar → Parse α)
    (h : ∀ {n count other}, n ≤ count → n ≤ other →
      Parse.Together n (x (upTo count)) (x (upTo other)))
    {n count : ℕ} (enough : n ≤ count) : Parse.Together n (rule x) (x (upTo count)) := by
  constructor
  · exact .bind (.look Cursor.remaining) fun size => (h (Nat.zero_le _) (Nat.zero_le (size + 1))).planned
  · intro p closed near
    have deep : p.cursor.remaining + 1 ≤ count := Nat.succ_le_of_lt (near.trans_le enough)
    exact (h le_rfl deep).agree p closed (Nat.lt_succ_self _)

/-- The whole grammar does what every grammar does that is deep enough. -/
theorem together_whole {n count : ℕ} (enough : n ≤ count) : whole.Together n (upTo count) where
  expr level := together_rule (fun g => g.expr level) (fun h h' => (together_upTo h h').expr level) enough
  query := together_rule (fun g => g.query) (fun h h' => (together_upTo h h').query) enough
  body level := together_rule (fun g => g.body level) (fun h h' => (together_upTo h h').body level) enough
  dataType := together_rule (fun g => g.dataType) (fun h h' => (together_upTo h h').dataType) enough
  statement := together_rule (fun g => g.statement) (fun h h' => (together_upTo h h').statement) enough

theorem planned_whole : whole.Planned :=
  have plans := together_whole (Nat.zero_le 0)
  ⟨fun level => .refl (plans.expr level).planned, .refl plans.query.planned,
    fun level => .refl (plans.body level).planned, .refl plans.dataType.planned,
    .refl plans.statement.planned⟩

end Grammar

namespace Parse

/-! ### Runs of the parser -/

theorem planned_expr : Planned expr := (Grammar.planned_whole.expr 0).planned

theorem planned_statement : Planned statement := Grammar.planned_whole.statement.planned

theorem planned_skipSemicolons (count : ℕ) : Planned (skipSemicolons count) := by
  induction count with
  | zero => exact .pure ()
  | succ count ih => exact (Together.accept (n := 0) (.refl ih) (.pure ())).planned

theorem planned_statementsWithin (count : ℕ) : Planned (statementsWithin count) := by
  induction count with
  | zero => exact .pure []
  | succ count ih =>
    have behind : ∀ first : Statement, Together 0
        (statementsWithin count >>= fun others => pure (first :: others))
        (statementsWithin count >>= fun others => pure (first :: others)) :=
      fun first => .bind (.refl ih) fun others => .pure (first :: others)
    refine (Together.remaining fun size => .bind (.refl (planned_skipSemicolons size)) fun _ => ?_ :
      Together 0 (statementsWithin (count + 1)) (statementsWithin (count + 1))).planned
    refine .atEnd fun _ => .ite (.pure []) (.bind (.refl planned_statement) fun first => ?_)
    refine .bind (.accepted _) fun _ => .atEnd fun _ => .ite (behind first) ?_
    exact .bind (.fail _) fun _ => behind first

theorem planned_statements : Planned statements :=
  .bind (.look Cursor.remaining) fun remaining => planned_statementsWithin (remaining + 1)

/-- Whether a step opens and closes levels in balance: it is made of single steps, and however it is made of
them, its way from a parser within the limit ends with just the levels open that were open at its start,
whatever the outcome.  On the way these levels stay open, no level is closed that is not open, and the limit
is kept. -/
structure Balanced {α : Type} (x : Parse α) : Prop where
  planned : ∃ plan : Plan α, plan.run = x
  way : ∀ plan : Plan α, plan.run = x → ∀ p : Parser, p.depth ≤ p.limit →
    p.Way p.depth (plan.way p) (x.outcome p).2 ∧ (x.outcome p).2.depth = p.depth ∧
      ∀ q ∈ plan.way p, p.depth ≤ q.depth ∧ q.depth ≤ p.limit

theorem Planned.balanced {α : Type} {x : Parse α} (h : Planned x) : Balanced x := by
  refine ⟨h, ?_⟩
  rintro plan rfl p room
  obtain ⟨way, level⟩ := plan.balanced p
  exact ⟨way, level, fun q hq => ⟨way.floor_le q hq, way.depth_le room q hq⟩⟩

end Parse

/-- Whether a chain that is run from `p` on counts the levels that it opens.  When it has ended, whatever the
outcome, there are at least as many levels open as there are links to be closed, and without them just the
levels that were open at its start are left. -/
structure Chain.Counted {α : Type} (x : Chain α) (p : Parser) : Prop where
  links_le : (x.finish ⟨p, 0⟩).links ≤ (x.finish ⟨p, 0⟩).parser.depth
  depth_sub : (x.finish ⟨p, 0⟩).parser.depth - (x.finish ⟨p, 0⟩).links = p.depth

theorem Chain.Planned.counted {α : Type} {x : Chain α} (h : Planned x) (p : Parser) : Counted x p := by
  obtain ⟨plan, rfl⟩ := h
  have counted : (plan.run.finish ⟨p, 0⟩).parser.depth = p.depth + (plan.run.finish ⟨p, 0⟩).links :=
    (plan.counted ⟨p, 0⟩).2.2
  exact ⟨by omega, by omega⟩

/-- Whatever is parsed, and however it ends, the levels are in balance; and the chains of operators and of set
operations, wherever they are run, close no level that is not open and no other levels than their own. -/
theorem balanced_statements :
    (Parse.Balanced Parse.statements ∧ Parse.Balanced Parse.statement ∧ Parse.Balanced Parse.expr) ∧
    ∀ (n level count : ℕ) (p : Parser),
      (∀ left, Chain.Counted ((Grammar.upTo n).operatorChain level count left) p) ∧
      ∀ left, Chain.Counted ((Grammar.upTo n).setOperationChain level count left) p :=
  ⟨⟨Parse.planned_statements.balanced, Parse.planned_statement.balanced, Parse.planned_expr.balanced⟩,
    fun n level count p =>
      ⟨fun left => ((Grammar.planned_upTo n).operatorChain level count left).planned.counted p,
        fun left => ((Grammar.planned_upTo n).setOperationChain level count left).planned.counted p⟩⟩

end CanonicalSql
