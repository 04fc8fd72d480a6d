import Mathlib
import CanonicalSql.Proofs.Completion.Statement
import CanonicalSql.Proofs.Levels.Finite

/-! The grammar as a whole is viable.  A run may be refused with a grammar of any depth, and the runs that
complete it have grammars that are deep enough; the rules for what stands inside are those of the depth
below, so all are viable by induction on the depth. -/

namespace CanonicalSql

open Keyword Word CanonicalSql.Symbol

namespace Completion

open Parse Grammar

variable {α : Type} {I S F : Rests} {near : Prop}

/-- The runs with the grammar of the depth `depth`, and those that complete them with deeper ones. -/
def upTo (depth : ℕ) : Completion := ⟨.upTo depth, .upTo⟩

/-! ### Fillings -/

/-- What grammars that are deep enough read in front of all that fits can be filled in. -/
theorem Fill.of_reads {K : Completion} {x : Grammar → Parse α} (depth : ℕ) {levels : ℕ∞} {v : List Spelled}
    (a : α) (filling : Filling v) (starts : ∀ r, S (v ++ r)) (finite : levels < ⊤)
    (deep : K.again = .upTo)
    (reads : ∀ m, depth ≤ m → ∀ r, F r → (x (.upTo m)).Reads levels (v ++ r) a r) :
    K.Fill S F (fun g _ => x g) := by
  obtain ⟨levels, rfl⟩ := ENat.ne_top_iff_exists.1 finite.ne
  refine ⟨v, a, filling, fun r _ => starts r, max depth levels, fun r fits m hm n _ p hp room _ => ?_⟩
  rw [deep]
  exact (reads m (by omega) r fits.1 p hp).1 (by exact_mod_cast (by omega : levels ≤ p.room))

/-- The block that stands for a query wherever one is missing. -/
def someBlock : SelectBlock := ⟨false, [.expr (.number "1") none], none, none, [], none⟩

theorem tokensOf_someBlock : tokensOf someBlock.pieces = [(Terminal.keyword SELECT).spelled, someNumber] := by
  cbv

theorem wellFormed_someBlock : someBlock.WellFormed := by
  have one : LexesAs "1" (.number "1") := by cbv
  simpa [someBlock, SelectBlock.WellFormed, SelectItem.AllWellFormed, SelectItem.WellFormed,
    Expr.AllWellFormed, Expr.number, Expr.WellFormed, Literal.WellFormed] using one

theorem filling_someBlock : Filling [(Terminal.keyword SELECT).spelled, someNumber] :=
  (Filling.terminal (by decide)).append filling_someNumber

theorem fill_expr (depth level : ℕ) :
    (upTo depth).Fill (StartsWith someNumber) (ExprEnds level) (fun g _ => g.expr level) := by
  refine .of_reads 1 (.number "1") filling_someNumber
    (fun r => ⟨r, rfl⟩) ENat.one_lt_top rfl fun m deep r ends => ?_
  obtain ⟨m, rfl⟩ : ∃ n, m = n + 1 := ⟨m - 1, by omega⟩
  have operand : (Grammar.upTo m).operand.Reads 0 ([someNumber] ++ r) (.number "1") r := by
    unfold Grammar.operand
    refine .advance fun token same => ?_
    rw [kind_of_spelled same]
    exact .pure _ r
  have stops : Stops level r := fun c hc => (ends.stops c hc).trans_le (Nat.min_le_left _ _)
  have loop : ∀ count, r.length ≤ count →
      ((Grammar.upTo m).operators level count (.number "1")).Reads 0 r (.number "1") r :=
    fun count _ p hp => ⟨fun _ => ⟨p.cursor, hp, Inside.operators_of_stops hp stops⟩, fun none => absurd zero_le none⟩
  have chain : ((Grammar.upTo m).chain level).Reads (max 0 0) ([someNumber] ++ r) (.number "1") r :=
    reads_chain (reads_signedOperand rfl operand) loop
  have rule := chain.descend
  rwa [← Grammar.exprRule_eq] at rule

theorem reads_someBody {g : Grammar} {size : ℕ} (hg : g.Reads size) (level : ℕ) (enough : 2 ≤ size)
    {r : List Spelled} (ends : BodyEnds level r) : (g.bodyRule level).Reads someBlock.levels
      ([(Terminal.keyword SELECT).spelled, someNumber] ++ r) (.block someBlock) r := by
  have block := hg.selectBlock wellFormed_someBlock (by rw [tokensOf_someBlock]; exact enough) ends.1
  rw [tokensOf_someBlock] at block
  have operand : g.setOperand.Reads someBlock.levels
      ([(Terminal.keyword SELECT).spelled, someNumber] ++ r) (.block someBlock) r :=
    .seen (Terminal.admits_self SELECT) (block.last (.pure _ r))
  exact (reads_bodyRule operand fun count _ => reads_setOperations_end count ends).cast (max_eq_left zero_le)

theorem levels_someBlock : someBlock.levels < ⊤ :=
  SelectBlock.levels_lt_top someBlock (by unfold WithoutOver; decide)

theorem fill_body (depth level : ℕ) :
    (upTo depth).Fill (Starts [SELECT]) (BodyEnds level) (fun g _ => g.body level) := by
  refine .of_reads 3 (.block someBlock) filling_someBlock (fun r => .first _ _ _)
    levels_someBlock rfl
    fun m deep r ends => ?_
  obtain ⟨m, rfl⟩ : ∃ n, m = n + 1 := ⟨m - 1, by omega⟩
  exact reads_someBody (reads_upTo m) level (by omega) ends

/-- The query that stands for one wherever one is missing. -/
def someQuery : Query := .ofBody (.block someBlock)

theorem tokensOf_someQuery : tokensOf someQuery.pieces = [(Terminal.keyword SELECT).spelled, someNumber] := by
  cbv

theorem wellFormed_someQuery : someQuery.WellFormed := by
  simpa [someQuery, Query.ofBody, Query.WellFormed, QueryBody.WellFormed, OrderItem.AllWellFormed,
    Setting.AllWellFormed] using wellFormed_someBlock

theorem levels_someQuery : someQuery.levels < ⊤ := Query.levels_lt_top someQuery (by unfold WithoutOver; decide)

theorem fill_query (depth : ℕ) :
    (upTo depth).Fill (Starts [SELECT]) (Starts queryEnds) (fun g _ => g.query) := by
  refine .of_reads 3 someQuery filling_someBlock (fun r => .first _ _ _) levels_someQuery rfl
    fun m deep r ends => ?_
  rw [← tokensOf_someQuery]
  exact (reads_upTo m).query wellFormed_someQuery (by rw [tokensOf_someQuery]; exact deep) ends.begins

theorem fill_statement (depth : ℕ) :
    (upTo depth).Fill (Starts [SELECT]) Semicolon (fun g _ => g.statement) := by
  refine .of_reads 3 (.select someQuery) filling_someBlock (fun r => .first _ _ _)
    levels_someQuery rfl fun m deep r ends => ?_
  have whole : (Statement.select someQuery).WellFormed := wellFormed_someQuery
  exact tokensOf_someQuery ▸ (reads_upTo m).statement whole (tokensOf_someQuery ▸ deep) ends.begins

theorem fill_dataType (depth : ℕ) : (upTo depth).Fill Anything NoParen (fun g _ => g.dataType) := by
  refine .of_reads 2 ⟨"a", []⟩ filling_someName
    (fun r => trivial) ENat.top_pos rfl fun m deep r ends => ?_
  obtain ⟨m, rfl⟩ : ∃ n, m = n + 1 := ⟨m - 1, by omega⟩
  have rule : (Grammar.upTo m).dataTypeRule.Reads 0 ([someName] ++ r) ⟨"a", []⟩ r := by
    unfold Grammar.dataTypeRule
    refine (reads_peek _).next ((reads_discard_advance someName r).next ?_)
    exact (Reads.optionalList_none ends).next (.pure _ r)
  exact rule

/-! ### Parentheses -/

/-- Where no query can start, none is read. -/
theorem queryRule_refused {g : Grammar} {p : Parser}
    (noTables : (Terminal.keyword WITH).admits p.cursor.current.kind = false)
    (noBody : ∀ depth, ∃ e q, g.setOperand { p with depth } = .error e q) :
    ∀ q p', g.queryRule p ≠ .ok q p' := by
  intro q p' run
  obtain ⟨e, q', refused⟩ := noBody (p.depth + 1)
  have tables : ∀ q : Parser, q.cursor = p.cursor → optional WITH g.withClause q = .ok none q :=
    fun q same => Parse.bind_of_ok (accept_of_not_admits (same ▸ noTables))
  have body : g.bodyRule 0 { p with depth := p.depth + 1 } = .error e q' := by
    rw [Grammar.bodyRule, Parse.bind_of_error refused]
  rw [Grammar.queryRule, descend] at run
  split at run
  · rw [Parse.bind_of_ok (tables { p with depth := p.depth + 1 } rfl), Parse.bind_of_error body] at run
    cases run
  · cases run

/-- What ends a query starts none. -/
theorem setOperand_of_ends {g : Grammar} {p : Parser} {r : List Spelled} (ends : Starts queryEnds r)
    (hp : p.cursor.Shows r) : g.setOperand p = .error (.unexpected p.cursor.current .queryBody) p := by
  rw [Grammar.setOperand, sees_bind, hp.kind, ends.admits (by decide), if_neg (by simp), sees_bind, hp.kind,
    ends.admits (by decide), if_neg (by simp)]
  rfl

theorem query_of_ends {depth : ℕ} {p : Parser} {r : List Spelled} (ends : Starts queryEnds r)
    (hp : p.cursor.Shows r) : ∀ q p', (Grammar.upTo depth).query p ≠ .ok q p' := by
  cases depth with
  | zero => rintro q p' ⟨⟩
  | succ depth =>
    exact queryRule_refused (g := Grammar.upTo depth) (hp.kind ▸ ends.admits (by decide))
      fun _ => ⟨_, _, setOperand_of_ends ends hp⟩

/-- A parenthesis alone is no query. -/
theorem query_of_paren {depth : ℕ} {p : Parser} {paren : Spelled} {r : List Spelled}
    (opens : paren.kind = .symbol leftParen) (ends : Starts queryEnds r) (hp : p.cursor.Shows (paren :: r)) :
    ∀ q p', (Grammar.upTo depth).query p ≠ .ok q p' := by
  have kind : p.cursor.current.kind = .symbol leftParen := by rw [hp.kind, kindAt_cons_zero, opens]
  cases depth with
  | zero => rintro q p' ⟨⟩
  | succ depth =>
    refine queryRule_refused (g := Grammar.upTo depth) (by rw [kind]; rfl) fun n => ?_
    have operand : (Grammar.upTo depth).setOperand { p with depth := n } =
        (between leftParen rightParen (Grammar.upTo depth).query >>= fun query => pure (QueryBody.nested query))
          { p with depth := n } := by
      rw [Grammar.setOperand, sees_bind, kind, if_neg (by decide), sees_bind, kind, if_pos (by decide)]
    have opened : expect leftParen { p with depth := n } =
        .ok () { p with cursor := p.cursor.advance, depth := n } := by
      rw [expect, Parse.bind_of_ok (accept_of_admits (by rw [kind]; rfl))]
      rfl
    cases run : (Grammar.upTo depth).query { p with cursor := p.cursor.advance, depth := n } with
    | ok q p' => exact absurd run (query_of_ends ends hp.advance q p')
    | error e q =>
      refine ⟨e, q, ?_⟩
      rw [operand, between, bind_assoc, Parse.bind_of_ok opened, bind_assoc, Parse.bind_of_error run]

/-! ### Rules -/

/-- What leads a rule to its results with the grammars of some depths leads the construct that it is the rule
of to them with those one deeper. -/
theorem Leads.deeper {X Y : Scheme α} {depth : ℕ} {R : Rests} {u : List Spelled} {a : α}
    (h : (upTo depth).Leads X R u a)
    (same : ∀ m n p, Y (Grammar.upTo (m + 1)) n p = X (Grammar.upTo m) n p) :
    (upTo (depth + 1)).Leads Y R u a := by
  obtain ⟨bound, passes⟩ := h
  refine ⟨bound + 1, fun r hr m hm n hn p hp room more => ?_⟩
  obtain ⟨m, rfl⟩ : ∃ k, m = k + 1 := ⟨m - 1, by omega⟩
  obtain ⟨c, hc, run⟩ := passes r hr m (by omega) n (by omega) p hp (by omega) (by omega)
  exact ⟨c, hc, (same m n p).trans run⟩

/-- What becomes of a rule becomes of the construct that it is the rule of, one deeper. -/
theorem Course.deeper {X Y : Scheme α} {depth : ℕ} (h : (upTo depth).Course I F near X)
    (same : ∀ m n p, Y (Grammar.upTo (m + 1)) n p = X (Grammar.upTo m) n p) :
    (upTo (depth + 1)).Course I F near Y := by
  intro n s less p hp
  have outcome : (upTo depth).Outcome I F near X p (X (Grammar.upTo depth) n p) := h n s less p hp
  rw [← same] at outcome
  exact outcome.transfer fun R u a leads => leads.deeper same

/-- The grammar of every depth is viable. -/
theorem inside_upTo (depth : ℕ) : (upTo depth).Inside := by
  induction depth with
  | zero =>
    have refused : ∀ {α : Type} {X : Scheme α} {F : Rests} {near : Prop},
        (∀ n p, ∃ expected, X Grammar.empty n p = .error (.unexpected p.cursor.current expected) p) →
          (upTo 0).Course Nothing F near X := fun run n _ _ => .refused fun p _ => by
      obtain ⟨expected, run⟩ := run n p
      exact ⟨expected, p, run⟩
    exact ⟨fun level => ⟨refused fun _ _ => ⟨_, rfl⟩, fill_expr 0 level⟩,
      ⟨refused fun _ _ => ⟨_, rfl⟩, fill_query 0⟩,
      fun level => ⟨refused fun _ _ => ⟨_, rfl⟩, fill_body 0 level⟩,
      fun _ _ _ _ opens ends hp => query_of_paren opens ends hp,
      ⟨refused fun _ _ => ⟨_, rfl⟩, fill_dataType 0⟩, ⟨refused fun _ _ => ⟨_, rfl⟩, fill_statement 0⟩⟩
  | succ depth ih =>
    exact ⟨fun level => ⟨(ih.exprRule level).deeper fun _ _ _ => rfl, fill_expr _ level⟩,
      ⟨ih.queryRule.course.deeper fun _ _ _ => rfl, fill_query _⟩,
      fun level => ⟨(ih.bodyRule level).course.deeper fun _ _ _ => rfl, fill_body _ level⟩,
      fun _ _ _ _ opens ends hp => query_of_paren opens ends hp,
      ⟨ih.dataTypeRule.deeper fun _ _ _ => rfl, fill_dataType _⟩,
      ⟨ih.statementRule.course.deeper fun _ _ _ => rfl, fill_statement _⟩⟩

end Completion

end CanonicalSql
