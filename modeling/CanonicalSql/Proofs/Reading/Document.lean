import CanonicalSql.Document
import CanonicalSql.Proofs.Printable
import CanonicalSql.Proofs.Reading.Statement

/-! Reading back whole texts.  The levels of a tree are exactly what a parse of its text needs: with
fewer the parse fails. -/

namespace CanonicalSql

open Keyword Word CanonicalSql.Symbol

namespace Parse

variable {α : Type} {n : ℕ∞} {s r : List Spelled}

/-- What a rule reads with enough nesting it reads with what the source allows. -/
theorem reads_rule {x : Grammar → Parse α} {a : α}
    (h : ∀ g : Grammar, g.Reads (s.length + 1) → (x g).Reads n s a r) : (rule x).Reads n s a r :=
  (reads_remaining s).next (h _ (Grammar.reads_upTo _))

/-! ### Statements in their order -/

theorem reads_statement {statement : Statement} (hw : statement.WellFormed)
    (hr : Begins [.symbol semicolon] r) :
    Parse.statement.Reads statement.levels (tokensOf statement.pieces ++ r) statement r := by
  refine reads_rule fun g hg => hg.statement hw ?_ hr
  rw [List.length_append]
  omega

theorem reads_skipSemicolons (count : Nat)
    (hs : (Terminal.symbol semicolon).admits (kindAt s 0) = false) :
    (skipSemicolons count).Reads 0 s () s := by
  cases count with
  | zero => exact .pure () s
  | succ count => exact .rejected hs (.pure () s)

/-- The tokens of statements, each with its semicolon. -/
def documentTokens (statements : List Statement) : List Spelled :=
  statements.flatMap fun statement =>
    tokensOf statement.pieces ++ [(Terminal.symbol semicolon).spelled]

theorem tokensOf_documentPieces (statements : List Statement) :
    tokensOf (documentPieces statements) = documentTokens statements := by
  induction statements with
  | nil => rfl
  | cons statement statements ih =>
    rw [documentPieces] at ih ⊢
    simp [documentTokens, ih]

/-- A statement, its semicolon or the end, and what the loop makes of the rest. -/
theorem reads_statementsWithin_cons {statement : Statement} {statements : List Statement}
    (hw : statement.WellFormed) {count : Nat}
    (hs : s = (Terminal.symbol semicolon).spelled :: r ∨ s = [] ∧ r = [])
    (others : (statementsWithin count).Reads n r statements []) :
    (statementsWithin (count + 1)).Reads (max statement.levels n)
      (tokensOf statement.pieces ++ s) (statement :: statements) [] := by
  have start := Grammar.begins_statement hw s
  have follows : Begins [.symbol semicolon] s := by
    rcases hs with rfl | ⟨rfl, -⟩
    · exact .first _ _ _
    · exact .nil _
  have nonempty : (tokensOf statement.pieces ++ s).isEmpty = false := by
    cases hk : tokensOf statement.pieces with
    | nil => exact absurd hk (Grammar.tokensOf_statement_ne_nil hw)
    | cons t ts => rfl
  unfold statementsWithin
  refine (reads_remaining _).next ?_
  refine (reads_skipSemicolons _ (start.admits (by decide))).next ?_
  refine (reads_atEnd _).next ?_
  rw [nonempty]
  refine (reads_statement hw follows).bind ?_
  rcases hs with rfl | ⟨rfl, rfl⟩
  · refine (reads_accept (Terminal.admits_self semicolon) r).next ((reads_atEnd r).next ?_)
    rw [Bool.true_or]
    exact others.last (.pure _ [])
  · refine (reads_accept_none rfl).next ((reads_atEnd []).next ?_)
    exact others.last (.pure _ [])

theorem reads_statementsWithin (statements : List Statement)
    (hw : ∀ statement ∈ statements, statement.WellFormed) (count : Nat)
    (enough : statements.length ≤ count) :
    (statementsWithin count).Reads (greatest Statement.levels statements)
      (documentTokens statements) statements [] := by
  induction statements generalizing count with
  | nil =>
    cases count with
    | zero => exact .pure [] []
    | succ count =>
      unfold statementsWithin
      refine (reads_remaining _).next ((reads_skipSemicolons _ rfl).next ?_)
      exact (reads_atEnd _).next (.pure [] [])
  | cons statement statements ih =>
    obtain ⟨count, rfl⟩ : ∃ m, count = m + 1 := ⟨count - 1, by simp at enough; omega⟩
    have others := ih (fun other hm => hw other (by simp [hm])) count (by simpa using enough)
    have printed : documentTokens (statement :: statements) = tokensOf statement.pieces ++
        (Terminal.symbol semicolon).spelled :: documentTokens statements := by
      simp [documentTokens]
    rw [printed]
    exact reads_statementsWithin_cons (hw statement (by simp)) (.inl rfl) others

theorem length_le_documentTokens (statements : List Statement) :
    statements.length ≤ (documentTokens statements).length := by
  induction statements with
  | nil => exact Nat.zero_le _
  | cons statement statements ih =>
    simp only [documentTokens, List.flatMap_cons, List.length_append, List.length_cons] at ih ⊢
    omega

/-- The statements of a canonical text, with exactly the levels of the deepest of them. -/
theorem reads_statements {statements : List Statement}
    (hw : ∀ statement ∈ statements, statement.WellFormed) :
    Parse.statements.Reads (greatest Statement.levels statements) (documentTokens statements)
      statements [] := by
  have enough := length_le_documentTokens statements
  exact (reads_remaining _).next (reads_statementsWithin statements hw _ (by omega))

/-- A single statement without its semicolon. -/
theorem reads_statements_single {statement : Statement} (hw : statement.WellFormed) :
    Parse.statements.Reads statement.levels (tokensOf statement.pieces) [statement] [] := by
  have nothing := reads_statementsWithin [] (by simp) (tokensOf statement.pieces).length (by simp)
  have read := reads_statementsWithin_cons hw (.inr ⟨rfl, rfl⟩) nothing
  rw [List.append_nil] at read
  exact (reads_remaining _).next (read.cast (max_eq_left zero_le))

/-- A single expression up to the end. -/
theorem reads_expr {e : Expr} (hw : e.WellFormed) :
    Parse.expr.Reads (e.levels false) (tokensOf e.pieces) e [] := by
  have read := reads_rule (s := tokensOf e.pieces ++ []) fun g hg =>
    hg.anyExpr hw (by rw [List.append_nil]; omega) (.nil 0)
  rwa [List.append_nil] at read

/-- A single expression with nothing behind it. -/
theorem reads_wholeExpr {e : Expr} (hw : e.WellFormed) :
    wholeExpr.Reads (e.levels false) (tokensOf e.pieces) e [] := by
  refine (reads_expr hw).last ?_
  exact (reads_accept_none rfl).discard.next ((reads_atEnd []).next (.pure e []))

/-! ### Texts -/

/-- A parser starts in front of the tokens of the text that it is made for. -/
theorem shows_ofTokens {ps : List Piece} {tokens : List Token} (limit : Nat)
    (h : tokens.map Token.spelled = tokensOf ps ++ [.endMark]) :
    (Parser.ofTokens tokens limit).cursor.Shows (tokensOf ps) := by
  have ended : Cursor.missingEnd tokens = [] := by
    have last := congrArg List.getLast? h
    rw [List.getLast?_map, List.getLast?_append] at last
    unfold Cursor.missingEnd
    cases ht : tokens.getLast? with
    | none => simp [ht] at last
    | some t =>
      have kind : t.kind = .eof := by
        rw [ht] at last
        simpa [Token.spelled, Spelled.endMark] using congrArg (Option.map Spelled.kind) last
      simp [kind]
  refine ⟨?_, ?_⟩
  · rw [Parser.ofTokens, Cursor.upcoming_ofTokens, ended, List.append_nil, h]
  · intro t ht
    rw [tokensOf, List.mem_filterMap] at ht
    obtain ⟨p, -, hp⟩ := ht
    have kind := p.kind?_ne_eof
    rw [Piece.token?] at hp
    cases hk : p.kind? with
    | none => simp [hk] at hp
    | some k =>
      rw [hk] at kind hp
      simp at hp kind
      rw [← hp]
      exact kind

/-- What a step reads from tokens it makes of a text that stands for them. -/
theorem Reads.ofText {x : Parse α} {a : α} {ps : List Piece} (hp : Printable ps)
    (h : x.Reads n (tokensOf ps) a r) (limit : Nat) :
    (n ≤ limit → x.ofText (Piece.text ps) limit = .ok a) ∧
      (¬ n ≤ limit → ∃ e, x.ofText (Piece.text ps) limit = .error e) := by
  obtain ⟨tokens, lexed, spelled, -⟩ := tokenize_text hp
  have run := h (Parser.ofTokens tokens limit) (shows_ofTokens limit spelled)
  have room : (Parser.ofTokens tokens limit).room = limit := Nat.sub_zero limit
  rw [room] at run
  unfold Parse.ofText outcome
  rw [lexed]
  constructor
  · intro hn
    obtain ⟨c, -, ran⟩ := run.1 hn
    simp only [ran]
  · intro hn
    obtain ⟨e, q, ran⟩ := run.2 hn
    exact ⟨e, by simp only [ran]⟩

end Parse

end CanonicalSql
