import CanonicalSql.Proofs.Hosting.Host

/-! Expressions inside statements.  What a text is as an expression it is as well where it stands as the value
of a setting, as a condition, or as a column of the result: the look ahead for the columns of a whole table
and the words in front of a result take no token of it, and nothing of it is taken for an alias. -/

namespace CanonicalSql

open Keyword Word CanonicalSql.Symbol

/-! ### How expressions start -/

/-- A terminal that is ahead is the first of some tokens. -/
theorem exists_cons_of_admits {t : Terminal} {s : List Spelled}
    (h : t.admits (kindAt s 0) = true) : ∃ u s', s = u :: s' ∧ t.admits u.kind = true := by
  cases s with
  | nil => simp [t.admits_eof] at h
  | cons u s => exact ⟨u, s, rfl, h⟩

theorem exists_cons_of_name? {name : String} {s : List Spelled}
    (h : (kindAt s 0).name? = some name) : ∃ u s', s = u :: s' := by
  cases s with
  | nil => cases h
  | cons u s => exact ⟨u, s, rfl⟩

namespace Grammar

open Parse

variable {g : Grammar} {n : ℕ∞} {s r : List Spelled} {e : Expr} {t : Spelled}

/-- An expression is refused if its first operand is. -/
theorem exprRule_top (level : ℕ) (h : g.operand.Reads ⊤ (t :: s) e r)
    (hn : (Terminal.keyword NOT).admits t.kind = false)
    (hm : (Terminal.symbol minus).admits t.kind = false)
    (hp : (Terminal.symbol plus).admits t.kind = false) :
    (g.exprRule level).Reads ⊤ (t :: s) e r := by
  rw [exprRule_eq_operators]
  have first : g.signedOperand.Reads ⊤ (t :: s) e r := .rejected hn (.rejected hm (.rejected hp h))
  exact (Reads.descend (first.top_bind (b := e) (w := r))).cast (add_top 1)

/-- No operand starts with one of the words in front of a result, nor with the sign for all columns. -/
theorem operand_top (h : t.kind = .keyword DISTINCT ∨ t.kind = .keyword ALL ∨ t.kind = .symbol star) :
    g.operand.Reads ⊤ (t :: s) e r := by
  refine .advance fun token same => ?_
  have kind : token.kind = t.kind := congrArg Spelled.kind same
  have refused : (failAt token .expression : Parse Expr).Reads ⊤ s e r :=
    reads_top fun p _ => ⟨_, p, rfl⟩
  rcases h with h | h | h <;> rw [kind, h] <;> exact refused

/-- Where no name is ahead, a step that needs one is refused. -/
theorem identifier_bind_top {f : String → Parse Expr} (h : (kindAt s 0).name? = none) :
    (identifier >>= f).Reads ⊤ s e r := by
  have refused : identifier.Reads ⊤ s "" r := by
    refine (reads_peek s).next ?_
    rw [h]
    exact reads_top fun p _ => ⟨_, p, rfl⟩
  exact refused.top_bind

/-- Behind the dots of a column there are names. -/
theorem named_top {name : String} (first : (Terminal.symbol dot).admits (kindAt s 0) = true)
    (cut : (kindAt s 1).name? = none ∨
      (Terminal.symbol dot).admits (kindAt s 2) = true ∧ (kindAt s 3).name? = none) :
    (g.named name).Reads ⊤ s e r := by
  obtain ⟨u, s, rfl, found⟩ := exists_cons_of_admits first
  have noParen : (Terminal.symbol leftParen).admits u.kind = false := by
    rw [Terminal.admits_symbol.1 found]
    rfl
  refine .unseen noParen (.accepted found ?_)
  cases second : (kindAt s 0).name? with
  | none => exact identifier_bind_top second
  | some column =>
    obtain ⟨v, s, rfl⟩ := exists_cons_of_name? second
    obtain ⟨dot', noName⟩ := cut.resolve_left (by rw [kindAt_cons_succ, second]; simp)
    obtain ⟨w, s, rfl, found'⟩ := exists_cons_of_admits dot'
    refine (reads_identifier second _).next (.accepted found' ?_)
    exact identifier_bind_top noName

/-- Nothing is read from tokens from which a step is refused. -/
theorem not_reads_top {α : Type} {x : Parse α} {a b : α} {n : ℕ} {c : Cursor} {w : List Spelled}
    (hc : c.Shows s) (h : x.Reads n s a r) : ¬ x.Reads ⊤ s b w := by
  intro refused
  have room : ((n : ℕ) : ℕ∞) ≤ (Parser.mk c 0 n).room := le_rfl
  obtain ⟨c', -, run⟩ := (h ⟨c, 0, n⟩ hc).1 room
  obtain ⟨err, q, run'⟩ := (refused ⟨c, 0, n⟩ hc).2 (by simp)
  cases run.symm.trans run'

/-- Where an operand is refused, no expression is read. -/
theorem not_reads_expr {n : ℕ} {c : Cursor} (hc : c.Shows (t :: s)) (h : Parse.expr.Reads n (t :: s) e r)
    (hn : (Terminal.keyword NOT).admits t.kind = false)
    (hm : (Terminal.symbol minus).admits t.kind = false)
    (hp : (Terminal.symbol plus).admits t.kind = false) :
    ¬ ∀ g : Grammar, g.operand.Reads ⊤ (t :: s) e r := fun refused =>
  not_reads_top hc h ((reads_remaining _).next (exprRule_top 0 (refused _) hn hm hp))

/-- An expression does not start with a word in front of a result, nor with the sign for all columns. -/
theorem start_of_reads {n : ℕ} {c : Cursor} (hc : c.Shows s) (h : Parse.expr.Reads n s e r) :
    (Terminal.keyword DISTINCT).admits (kindAt s 0) = false ∧
      (Terminal.keyword ALL).admits (kindAt s 0) = false ∧
      (Terminal.symbol star).admits (kindAt s 0) = false := by
  cases s with
  | nil => exact ⟨rfl, rfl, rfl⟩
  | cons t s =>
    rw [kindAt_cons_zero]
    have other : ∀ k, (k = .keyword DISTINCT ∨ k = .keyword ALL ∨ k = .symbol star) → t.kind ≠ k := by
      rintro k hk rfl
      refine not_reads_expr hc h ?_ ?_ ?_ fun g => operand_top hk
      all_goals rcases hk with hk | hk | hk <;> rw [hk] <;> rfl
    have distinct := other (.keyword DISTINCT) (.inl rfl)
    have every := other (.keyword ALL) (.inr (.inl rfl))
    have all := other (.symbol star) (.inr (.inr rfl))
    revert distinct every all
    generalize t.kind = k
    cases k <;> simp +contextual [Terminal.admits, eq_comm]

/-- An expression does not start like the columns of a whole table. -/
theorem noWildcard_of_reads {n : ℕ} {c : Cursor} (hc : c.Shows s) (h : Parse.expr.Reads n s e r) :
    NoWildcard s := by
  cases s with
  | nil => exact .inl rfl
  | cons t s =>
    cases first : t.kind.name? with
    | none => exact .inl first
    | some name =>
      have noStar : ∀ {k : Token.Kind}, (Terminal.symbol star).admits k = true → k.name? = none := by
        intro k found
        rw [Terminal.admits_symbol.1 found]
        rfl
      -- A wildcard would be the start of a column that is cut off behind a dot.
      have whole : ¬ ((Terminal.symbol dot).admits (kindAt s 0) = true ∧ ((kindAt s 1).name? = none ∨
          (Terminal.symbol dot).admits (kindAt s 2) = true ∧ (kindAt s 3).name? = none)) := by
        rintro ⟨found, cut⟩
        refine not_reads_expr hc h (admits_of_name? first rfl) (admits_of_name? first rfl)
          (admits_of_name? first rfl) fun g => .advance fun token same => ?_
        have kind : token.kind.name? = some name := (congrArg (·.kind.name?) same).trans first
        cases hk : token.kind <;> rw [hk] at kind <;> try cases kind
        all_goals exact named_top found cut
      by_contra wild
      rw [NoWildcard, not_or, not_and_or, Bool.not_eq_false] at wild
      refine whole ?_
      rcases wild.2 with short | long
      · simp only [admitsAll, kindAt_cons_succ, Bool.and_true, Bool.and_eq_true] at short
        exact ⟨short.1, .inl (noStar short.2)⟩
      · simp only [admitsAll, kindAt_cons_succ, Bool.and_true, not_or, Bool.not_eq_false,
          Bool.and_eq_true] at long
        exact ⟨long.2.1, .inr ⟨long.2.2.1, noStar long.2.2.2⟩⟩

end Grammar

/-! ### Texts that are expressions -/

section

open Parse

/-- What a whole text has behind its expression. -/
def exprEnd (e : Expr) : Parse Expr := do
  discard (accept semicolon)
  unless ← atEnd do fail .expressionEnd
  return e

/-- Behind the expression that a text is there is a semicolon at most. -/
theorem ends_of_exprEnd {a e : Expr} {r : List Spelled} {p q : Parser} (hp : p.cursor.Shows r)
    (run : exprEnd a p = .ok e q) :
    a = e ∧ DocumentEnd r := by
  have refused : ∀ {w : List Spelled}, w ≠ [] → (do
      unless ← atEnd do fail .expressionEnd
      return a : Parse Expr).Reads ⊤ w a [] := by
    intro w some
    refine (reads_atEnd w).next ?_
    rw [List.isEmpty_eq_false_iff.2 some]
    exact reads_top fun p _ => ⟨_, p, rfl⟩
  have notRefused : ¬ (exprEnd a).Reads ⊤ r a [] := by
    intro top
    obtain ⟨err, q', run'⟩ := (top p hp).2 (by simp)
    cases run.symm.trans run'
  have same : (exprEnd a).Reads 0 r a [] → a = e := by
    intro reads
    obtain ⟨c, -, run'⟩ := (reads p hp).1 zero_le
    cases run.symm.trans run'
    rfl
  cases r with
  | nil =>
    exact ⟨same ((reads_accept_none rfl).discard.next ((reads_atEnd []).next (.pure a []))), .inl rfl⟩
  | cons t r =>
    by_cases semi : t.kind = .symbol semicolon
    · have found : (Terminal.symbol semicolon).admits t.kind = true := Terminal.admits_symbol.2 semi
      cases r with
      | nil =>
        exact ⟨same ((reads_accept found []).discard.next ((reads_atEnd []).next (.pure a []))),
          .inr ⟨t, semi, rfl⟩⟩
      | cons u r =>
        exact absurd ((reads_accept found _).discard.next (refused (List.cons_ne_nil u r))) notRefused
    · have other := Bool.eq_false_of_not_eq_true (mt Terminal.admits_symbol.1 semi)
      exact absurd ((reads_accept_none other).discard.next (refused (List.cons_ne_nil t r))) notRefused

/-- The tokens of a text that is an expression are read as that expression, up to a semicolon or the end,
with no more levels than its limit. -/
theorem exists_reads_of_parseExpr {text : String} {limit : ℕ} {e : Expr}
    (h : parseExpr text limit = .ok e) :
    ∃ ts p, tokenize text = .ok (ts ++ [.endMark p]) ∧
      ∃ (c : Cursor) (n : ℕ) (r : List Spelled), c.Shows (ts.map Token.spelled) ∧ n ≤ limit ∧
        Parse.expr.Reads n (ts.map Token.spelled) e r ∧ DocumentEnd r := by
  cases lexed : tokenize text with
  | error err => simp [parseExpr, Parse.ofText, lexed] at h
  | ok tokens =>
    obtain ⟨ts, lexer, -, -, rfl⟩ := Lexer.passes_of_tokens lexed
    have shows := shows_of_tokenize lexed limit
    rw [parseExpr, Parse.ofText, lexed] at h
    obtain ⟨q, run⟩ := Parse.exists_of_outcome h
    cases first : Parse.expr (.ofTokens (ts ++ [Token.endMark lexer.position]) limit) with
    | error err p => cases (bind_of_error first).symm.trans run
    | ok a p =>
      have behind := (bind_of_ok first).symm.trans run
      obtain ⟨n, r, room, hp, reads⟩ := reads_of_ok (sound_expr _)
        (Likeness.alike_rule fun _ _ alike => alike.anyExpr) (ready_ofTokens lexed limit) shows first
      obtain ⟨rfl, ends⟩ := ends_of_exprEnd hp behind
      rw [Parser.room, Parser.ofTokens, Nat.sub_zero] at room
      exact ⟨ts, lexer.position, rfl, _, n, r, shows, room, reads, ends⟩

end

/-! ### Statements around an expression -/

section

open Parse

variable {n : ℕ∞} {s r : List Spelled} {e : Expr}

/-- The value of a setting. -/
theorem reads_changeSettings (name : String) (h : Parse.expr.Reads n s e r) (hr : Closed r) :
    Parse.statement.Reads n
      ((Terminal.keyword SET).spelled :: nameToken name :: (Terminal.symbol equal).spelled :: s)
      (.changeSettings [⟨name, e⟩]) r := by
  refine .statement ((reads_peek _).next ((reads_expect (Terminal.admits_self _) _).next ?_))
  have value := h.expr_upTo (show s.length < s.length + 3 by omega)
  refine (Grammar.reads_commaList_single ?_ (hr.admits _)).last (.pure _ r)
  refine (reads_identifier (name?_nameToken name) _).next ?_
  exact (reads_expect (Terminal.admits_self _) s).next (value.last (.pure _ r))

/-- The condition of a deletion from a table. -/
theorem reads_alterTable_delete (name : String) (h : Parse.expr.Reads n s e r) (hr : Closed r) :
    Parse.statement.Reads n
      ((Terminal.keyword ALTER).spelled :: (Terminal.keyword TABLE).spelled :: nameToken name ::
        (Terminal.keyword DELETE).spelled :: (Terminal.keyword WHERE).spelled :: s)
      (.alterTable ⟨.bare name, none, [.delete e]⟩) r := by
  refine .statement ((reads_peek _).next ?_)
  have condition := h.expr_upTo (show s.length < s.length + 5 by omega)
  refine Reads.last ?_ (.pure _ r)
  refine (reads_expect (Terminal.admits_self _) _).next ?_
  refine (reads_expect (Terminal.admits_self _) _).next ?_
  refine (reads_qualifiedName (.bare name) rfl).next ?_
  refine Reads.next (a := none) ((reads_acceptAll_none rfl).next (.pure _ _)) ?_
  refine (Grammar.reads_commaList_single ?_ (hr.admits _)).last (.pure _ r)
  refine .rejected rfl (.rejected rfl (.rejected rfl (.rejected rfl (.rejected rfl ?_))))
  refine .accepted (Terminal.admits_self _) ?_
  exact (reads_expect (Terminal.admits_self _) s).next (condition.last (.pure _ r))

/-- The only column of the result. -/
theorem reads_select {n : ℕ} {c : Cursor} (hc : c.Shows s) (h : Parse.expr.Reads n s e r)
    (hr : Closed r) :
    Parse.statement.Reads (1 + n) ((Terminal.keyword SELECT).spelled :: s)
      (.select (.ofBody (.block ⟨false, [.expr e none], none, none, [], none⟩))) r := by
  obtain ⟨distinct, every, all⟩ := Grammar.start_of_reads hc h
  have column := h.expr_upTo (show s.length < s.length + 1 by omega)
  exact Grammar.reads_statement_column rfl column distinct every all (Grammar.noWildcard_of_reads hc h) hr

/-- The condition of a query. -/
theorem reads_select_where (number : String) (h : Parse.expr.Reads n s e r) (hr : Closed r) :
    Parse.statement.Reads (1 + max 1 n) ((Terminal.keyword SELECT).spelled ::
        ⟨.number number, number⟩ :: (Terminal.keyword WHERE).spelled :: s)
      (.select (.ofBody (.block
        ⟨false, [.expr (.number number) none], none, some e, [], none⟩))) r := by
  let g := Grammar.upTo (s.length + 3)
  let rest := (Terminal.keyword WHERE).spelled :: s
  have condition : g.anyExpr.Reads n s e r := h.expr_upTo (by omega)
  have column : g.anyExpr.Reads 1 (⟨.number number, number⟩ :: rest) (.number number) rest :=
    Grammar.reads_number number (s.length + 2) fun _ => rfl
  have item : g.selectItem.Reads 1 (⟨.number number, number⟩ :: rest) (.expr (.number number) none) rest :=
    Grammar.reads_selectItem column rfl (.inl rfl) rfl rfl
  have selection : (optional WHERE g.anyExpr).Reads n rest (some e) r :=
    .optional_some (Terminal.admits_self _) condition
  have size : s.length + 3 = (⟨.number number, number⟩ :: rest).length + 1 := rfl
  exact (Grammar.reads_statement_select size rfl rfl item rfl (.optional_none rfl) selection hr).cast
    (by simp)

end

/-! ### Texts around an expression -/

/-- An expression opens a level at least. -/
theorem one_le_of_reads_expr {n : ℕ} {s r : List Spelled} {c : Cursor} {e : Expr} (hc : c.Shows s)
    (h : Parse.expr.Reads n s e r) : 1 ≤ n := by
  refine Nat.one_le_iff_ne_zero.2 fun none => ?_
  subst none
  obtain ⟨c', -, run⟩ := (h ⟨c, 0, 0⟩ hc).1 le_rfl
  cases run

/-- The expression entry point agrees with statements.  A text that is an expression with at most a semicolon
behind it is this very expression as the value of a setting and as the condition of a deletion, within the
same limit, and as the only column and the condition of a query, within a limit of one level more. -/
theorem parseExpr_inside {text : String} {limit : ℕ} {e : Expr} (h : parseExpr text limit = .ok e) :
    parseDocument ("SET x = " ++ text) limit = .ok [.changeSettings [⟨"x", e⟩]] ∧
      parseDocument ("ALTER TABLE t DELETE WHERE " ++ text) limit =
        .ok [.alterTable ⟨.bare "t", none, [.delete e]⟩] ∧
      parseDocument ("SELECT " ++ text) (limit + 1) =
        .ok [.select (.ofBody (.block ⟨false, [.expr e none], none, none, [], none⟩))] ∧
      parseDocument ("SELECT 1 WHERE " ++ text) (limit + 1) =
        .ok [.select (.ofBody (.block
          ⟨false, [.expr (.number "1") none], none, some e, [], none⟩))] := by
  obtain ⟨ts, place, lexed, c, n, r, shows, room, reads, ends⟩ := exists_reads_of_parseExpr h
  have closed := Closed.of_end ends
  have level := one_le_of_reads_expr shows reads
  have same : (n : ℕ∞) ≤ limit := Nat.cast_le.2 room
  have deeper : 1 + (n : ℕ∞) ≤ (limit + 1 : ℕ) := by norm_cast; omega
  have deeper' : 1 + max 1 (n : ℕ∞) ≤ (limit + 1 : ℕ) := by
    rwa [max_eq_right (Nat.one_le_cast.2 level)]
  refine ⟨?setting, ?deletion, ?column, ?condition⟩
  case setting =>
    have opening : Opening [SET, .space, .name "x", .space, equal, .space] "SET x = " SET
        [nameToken "x", (Terminal.symbol equal).spelled] :=
      ⟨rfl, ⟨by simp [Piece.Legible], by unfold Apart; decide⟩, by simp [Piece.isBreak],
        by simp, by decide⟩
    exact opening.parseDocument_behind lexed (reads_changeSettings "x" reads closed) ends same
  case deletion =>
    have opening : Opening
        [ALTER, .space, TABLE, .space, .name "t", .space, DELETE, .space, WHERE, .space]
        "ALTER TABLE t DELETE WHERE " ALTER [(Terminal.keyword TABLE).spelled, nameToken "t",
          (Terminal.keyword DELETE).spelled, (Terminal.keyword WHERE).spelled] :=
      ⟨rfl, ⟨by simp [Piece.Legible], by unfold Apart; decide⟩, by simp [Piece.isBreak],
        by simp, by decide⟩
    exact opening.parseDocument_behind lexed (reads_alterTable_delete "t" reads closed) ends same
  case column =>
    have opening : Opening [SELECT, .space] "SELECT " SELECT [] :=
      ⟨rfl, ⟨by simp [Piece.Legible], by unfold Apart; decide⟩, by simp [Piece.isBreak],
        by simp, by decide⟩
    exact opening.parseDocument_behind lexed (reads_select shows reads closed) ends deeper
  case condition =>
    have number : LexesAs "1" (.number "1") := by rfl
    have opening : Opening [SELECT, .space, .number "1", .space, WHERE, .space] "SELECT 1 WHERE " SELECT
        [⟨.number "1", "1"⟩, (Terminal.keyword WHERE).spelled] :=
      ⟨rfl, ⟨by simp [Piece.Legible, number], by unfold Apart; decide⟩,
        by simp [Piece.isBreak], by simp, by decide⟩
    exact opening.parseDocument_behind lexed (reads_select_where "1" reads closed) ends deeper'

/-- A sum of signs and its host, `SELECT - -1 + a;`. -/
theorem parseExpr_inside_signs :
    ∃ e, parseExpr "- -1 + a;" 8 = .ok e ∧ parseDocument ("SELECT " ++ "- -1 + a;") 9 =
      .ok [.select (.ofBody (.block ⟨false, [.expr e none], none, none, [], none⟩))] := by
  have read : parseExpr "- -1 + a;" 8 = .ok (.binary (.unary .minus (.unary .minus (.number "1"))) .plus
      (.column ⟨none, "a"⟩)) := by
    cbv
  exact ⟨_, read, (parseExpr_inside read).2.2.1⟩

end CanonicalSql
