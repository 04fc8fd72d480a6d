import Mathlib
import CanonicalSql.Proofs.Course.Document
import CanonicalSql.Proofs.Levels.Finite
import CanonicalSql.Proofs.Printable
import CanonicalSql.Proofs.Reading.Document

/-! Canonical texts are read back.  What a text is read as has a canonical text of its own, and this
text is read as the same trees, exactly if the limit of nesting is not below the levels of the trees.
Parentheses that the canonical text adds can raise the levels above those of the source, and no limit
is enough for an interval in the unit `OVER` right behind a call. -/

namespace CanonicalSql

/-! ### Texts of trees -/

/-- Where all units are in capitals, only one of them is spelled like the word `OVER`. -/
theorem withoutOver_of_proper {ds : List Datum} (h : AllProper ds) (ho : .unit "OVER" ∉ ds) :
    WithoutOver ds := by
  intro d hd
  cases d with
  | unit u =>
    have inCapitals : capitals u = u := (h _ hd).2
    refine beq_eq_false_iff_ne.2 fun same => ho ?_
    rwa [inCapitals.symm.trans same] at hd
  | _ => rfl

/-- The text of statements is read as the statements, if and only if the limit allows their levels. -/
theorem parseDocument_format_of_wellFormed {statements : List Statement}
    (hw : ∀ statement ∈ statements, statement.WellFormed) (limit : Nat) :
    (greatest Statement.levels statements ≤ limit →
        parseDocument (format statements) limit = .ok statements) ∧
      (¬ greatest Statement.levels statements ≤ limit →
        ∃ e, parseDocument (format statements) limit = .error e) := by
  have read := Parse.reads_statements hw
  rw [← Parse.tokensOf_documentPieces] at read
  exact Parse.Reads.ofText (printable_documentPieces hw) read limit

/-- The text of a single statement is read as the statement, if no interval has the unit `OVER` and the
limit is high enough. -/
theorem parseDocument_sql_of_wellFormed {statement : Statement} (hw : statement.WellFormed)
    (ho : .unit "OVER" ∉ statement.data) :
    ∃ levels : Nat, ∀ limit, levels ≤ limit →
      parseDocument (sql statement) limit = .ok [statement] := by
  obtain ⟨levels, finite⟩ := ENat.ne_top_iff_exists.1
    (Statement.levels_lt_top (withoutOver_of_proper (Statement.proper hw) ho)).ne
  refine ⟨levels, fun limit enough => ?_⟩
  have read := Parse.Reads.ofText (Statement.printable (Statement.proper hw).legible)
    (Parse.reads_statements_single hw) limit
  exact read.1 (finite ▸ Nat.cast_le.2 enough)

/-- The text of an expression is read as the expression, if and only if the limit allows its levels. -/
theorem parseExpr_sql_of_wellFormed {e : Expr} (hw : e.WellFormed) (limit : Nat) :
    (e.levels false ≤ limit → parseExpr (sql e) limit = .ok e) ∧
      (¬ e.levels false ≤ limit → ∃ error, parseExpr (sql e) limit = .error error) :=
  Parse.Reads.ofText (Expr.printable hw) (Parse.reads_wholeExpr hw) limit

/-- Parentheses stand where an expression needs them: its text is read as the expression, to the end,
if no interval has the unit `OVER` and the limit is high enough. -/
theorem parse_sql_expr {e : Expr} (hw : e.WellFormed) (ho : .unit "OVER" ∉ e.data) :
    ∃ levels : Nat, ∀ limit, levels ≤ limit →
      ∃ tokens p, tokenize (sql e) = .ok tokens ∧
        Parse.expr (.ofTokens tokens limit) = .ok e p ∧ p.cursor.atEnd = true := by
  obtain ⟨tokens, lexed, spelled, -⟩ := tokenize_text (Expr.printable hw)
  obtain ⟨levels, finite⟩ := ENat.ne_top_iff_exists.1
    (Expr.levels_lt_top (withoutOver_of_proper (e.proper hw) ho)).ne
  refine ⟨levels, fun limit enough => ?_⟩
  have run := Parse.reads_expr hw (Parser.ofTokens tokens limit)
    (Parse.shows_ofTokens limit spelled)
  obtain ⟨c, shows, ran⟩ := run.1 (finite ▸ Nat.cast_le.2 enough)
  exact ⟨tokens, _, lexed, ran, shows.atEnd⟩

/-- An operand that binds less tightly, and a sign behind a sign. -/
theorem parse_sql_expr_grouped :
    ∃ e : Expr, sql e = "(NOT a) = -(-1)" ∧ e.WellFormed ∧ Datum.unit "OVER" ∉ e.data ∧
      ∃ levels : Nat, ∀ limit, levels ≤ limit →
        ∃ tokens p, tokenize (sql e) = .ok tokens ∧
          Parse.expr (.ofTokens tokens limit) = .ok e p ∧ p.cursor.atEnd = true := by
  let e := Expr.binary (.unary .not (.bareColumn "a")) .equal
    (.unary .minus (.unary .minus (.number "1")))
  have hw : e.WellFormed := by
    simp only [e, Expr.WellFormed, Expr.bareColumn, Expr.number, Literal.WellFormed]
    exact ⟨trivial, rfl⟩
  have ho : Datum.unit "OVER" ∉ e.data := by decide
  exact ⟨e, by decide +kernel, hw, ho, parse_sql_expr hw ho⟩

/-! ### Texts of what was read -/

variable {text : String} {limit : Nat} {statements : List Statement}

/-- The canonical text of a document is read as the same statements within every limit that allows
their levels, and within no other. -/
theorem parseDocument_format (h : parseDocument text limit = .ok statements) (limit' : Nat) :
    (greatest Statement.levels statements ≤ limit' →
        parseDocument (format statements) limit' = .ok statements) ∧
      (¬ greatest Statement.levels statements ≤ limit' →
        ∃ e, parseDocument (format statements) limit' = .error e) :=
  parseDocument_format_of_wellFormed (wellFormed_of_parseDocument h) limit'

/-- The canonical text of `- -1` is `-(-1)`, with a level more than the source. -/
theorem parseDocument_format_signs :
    ∃ statement, parseDocument "SELECT - -1" 4 = .ok [statement] ∧
      (∃ e, parseDocument (format [statement]) 4 = .error e) ∧
      parseDocument (format [statement]) 5 = .ok [statement] := by
  let statement := Statement.select (.ofBody (.block
    ⟨false, [.expr (.unary .minus (.unary .minus (.number "1"))) none], none, none, [], none⟩))
  have read : parseDocument "SELECT - -1" 4 = .ok [statement] := by cbv
  have levels : greatest Statement.levels [statement] = 5 := rfl
  refine ⟨statement, read, (parseDocument_format read 4).2 ?_, (parseDocument_format read 5).1 ?_⟩
  · rw [levels]
    decide
  · rw [levels]
    rfl

/-- The text of a query that was read alone is read as the query. -/
theorem parseDocument_sql_select {q : Query}
    (h : parseDocument text limit = .ok [.select q]) (ho : .unit "OVER" ∉ q.data) :
    ∃ levels : Nat, ∀ limit', levels ≤ limit' →
      parseDocument (sql (Statement.select q)) limit' = .ok [.select q] :=
  parseDocument_sql_of_wellFormed (wellFormed_of_parseDocument h _ (by simp)) ho

/-- A set operation whose left operand stands in parentheses. -/
theorem parseDocument_sql_select_union :
    ∃ q : Query, parseDocument "(SELECT *) UNION SELECT *" 2 = .ok [.select q] ∧
      Datum.unit "OVER" ∉ q.data ∧
      ∃ levels : Nat, ∀ limit', levels ≤ limit' →
        parseDocument (sql (Statement.select q)) limit' = .ok [.select q] := by
  let block := SelectBlock.mk false [.wildcard] none none [] none
  let q := Query.ofBody (.compound .union .unstated (.nested (.ofBody (.block block))) (.block block))
  have read : parseDocument "(SELECT *) UNION SELECT *" 2 = .ok [.select q] := by cbv
  have ho : Datum.unit "OVER" ∉ q.data := by decide
  exact ⟨q, read, ho, parseDocument_sql_select read ho⟩

/-- The text of any statement that was read is read as the statement. -/
theorem parseDocument_sql_statement {statement : Statement}
    (h : parseDocument text limit = .ok statements) (hs : statement ∈ statements)
    (ho : .unit "OVER" ∉ statement.data) :
    ∃ levels : Nat, ∀ limit', levels ≤ limit' →
      parseDocument (sql statement) limit' = .ok [statement] :=
  parseDocument_sql_of_wellFormed (wellFormed_of_parseDocument h _ hs) ho

/-- A deletion, which is no query. -/
theorem parseDocument_sql_statement_delete :
    ∃ statement, parseDocument "DELETE FROM t WHERE x = 1" 3 = .ok [statement] ∧
      Datum.unit "OVER" ∉ statement.data ∧
      ∃ levels : Nat, ∀ limit', levels ≤ limit' →
        parseDocument (sql statement) limit' = .ok [statement] := by
  let statement := Statement.delete
    ⟨.bare "t", none, some (.binary (.bareColumn "x") .equal (.number "1"))⟩
  have read : parseDocument "DELETE FROM t WHERE x = 1" 3 = .ok [statement] := by cbv
  have ho : Datum.unit "OVER" ∉ statement.data := by decide
  exact ⟨statement, read, ho, parseDocument_sql_statement read (by simp) ho⟩

end CanonicalSql
