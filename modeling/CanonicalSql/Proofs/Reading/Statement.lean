import CanonicalSql.Document
import CanonicalSql.Proofs.Printable
import CanonicalSql.Proofs.Reading.Alteration

/-! Reading back statements and documents.  The grammar that may nest `n` constructs reads every
construct of less than `n` tokens, and a parse starts with more nesting than there are tokens. -/

namespace CanonicalSql

open Keyword Word CanonicalSql.Symbol

namespace Grammar

open Parse

variable {g : Grammar} {size : Nat} {r s : List Spelled}

/-! ### Statements of a session -/

theorem reads_useDatabase (name : String) (r : List Spelled) :
    useDatabase.Reads 0 (tokensOf (Statement.pieces (.useDatabase name)) ++ r) (.useDatabase name)
      r := by
  simp only [Statement.pieces, tokensOf_phrase, tokensOf_word, tokensOf_name, tokensOf_nil,
    List.cons_append, List.nil_append]
  refine (reads_expect (Terminal.admits_self USE) _).next ?_
  exact (reads_identifier (name?_nameToken name) r).next (.pure _ r)

theorem Reads.changeSettings (hg : g.Reads size) {settings : List Setting} (some : settings ≠ [])
    (hw : ∀ setting ∈ settings, setting.value.WellFormed)
    (hs : (tokensOf (Statement.pieces (.changeSettings settings))).length ≤ size)
    (hr : Begins statementEnds r) :
    g.changeSettings.Reads (greatest Setting.levels settings)
      (tokensOf (Statement.pieces (.changeSettings settings)) ++ r) (.changeSettings settings)
      r := by
  simp only [Statement.pieces, tokensOf_append, tokensOf_ahead, tokensOf_keyword, tokensOf_nil,
    List.cons_append, List.nil_append, List.length_cons] at hs ⊢
  have wellFormed : ∀ setting ∈ settings, setting.WellFormed := by
    rintro ⟨setting, value⟩ hm
    exact hw _ hm
  unfold Grammar.changeSettings
  refine (reads_expect (Terminal.admits_self SET) _).next ?_
  exact (hg.settings some wellFormed (by omega) hr (by decide) (by decide)).last (.pure _ r)

/-- The tokens of the database that a listing may be about. -/
def databaseTokens : Option String → List Spelled
  | none => []
  | some database => [(Terminal.keyword FROM).spelled, nameToken database]

/-- The tokens of the pattern that a listing may have. -/
def patternTokens : Option String → List Spelled
  | none => []
  | some value => [(Terminal.keyword LIKE).spelled, stringToken value]

theorem tokensOf_listTables (database pattern : Option String) :
    tokensOf (Listing.pieces (.tables database pattern)) = (Terminal.word SHOW).spelled ::
      (Terminal.word TABLES).spelled :: (databaseTokens database ++ patternTokens pattern) := by
  unfold Listing.pieces
  cases database <;> cases pattern <;> simp [databaseTokens, patternTokens]

theorem reads_listing (l : Listing) (hr : Begins statementEnds r) :
    listing.Reads 0 (tokensOf l.pieces ++ r) l r := by
  unfold Grammar.listing
  cases l with
  | databases =>
    simp only [Listing.pieces, tokensOf_phrase, tokensOf_word, tokensOf_nil, List.cons_append,
      List.nil_append]
    refine (reads_expect (Terminal.admits_self SHOW) _).next ?_
    exact .accepted (Terminal.admits_self DATABASES) (.pure _ r)
  | tables database pattern =>
    rw [tokensOf_listTables, List.cons_append, List.cons_append, List.append_assoc]
    have start : Begins (.keyword LIKE :: statementEnds) (patternTokens pattern ++ r) := by
      cases pattern with
      | none => exact hr.weaken LIKE
      | some value => exact .first _ _ _
    refine (reads_expect (Terminal.admits_self SHOW) _).next ?_
    refine .rejected (by simp) (.accepted (Terminal.admits_self TABLES) ?_)
    refine .next (a := database) (r := patternTokens pattern ++ r) ?_
      (.next (a := pattern) (r := r) ?_ (.pure _ r))
    · cases database with
      | none => exact .optional_none (start.admits (by decide))
      | some database =>
        exact .optional_some (Terminal.admits_self FROM)
          (reads_identifier (name?_nameToken database) _)
    · cases pattern with
      | none => exact .optional_none (hr.admits (by decide))
      | some value =>
        exact .optional_some (Terminal.admits_self LIKE) (reads_stringLiteral value .pattern r)
  | createTable name =>
    simp only [Listing.pieces, tokensOf_append, tokensOf_ahead, tokensOf_word, tokensOf_keyword,
      tokensOf_nil, List.cons_append, List.nil_append]
    refine (reads_expect (Terminal.admits_self SHOW) _).next ?_
    refine .rejected rfl (.rejected rfl (.accepted (Terminal.admits_self CREATE) ?_))
    refine (reads_expect (Terminal.admits_self TABLE) _).next ?_
    exact (reads_qualifiedName name (hr.admits (by decide))).next (.pure _ r)

theorem reads_describe (table : QualifiedName) (hr : Begins statementEnds r) :
    describe.Reads 0 (tokensOf (Statement.pieces (.describe table)) ++ r) (.describe table) r := by
  simp only [Statement.pieces, tokensOf_append, tokensOf_ahead, tokensOf_word, tokensOf_keyword,
    tokensOf_nil, List.cons_append, List.nil_append]
  unfold Grammar.describe
  refine .rejected rfl ((reads_expect (Terminal.admits_self DESCRIBE) _).next ?_)
  refine (reads_accept (Terminal.admits_self TABLE) _).discard.next ?_
  exact (reads_qualifiedName table (hr.admits (by decide))).next (.pure _ r)

theorem reads_optimize (o : Optimize) (hr : Begins statementEnds r) :
    optimize.Reads 0 (tokensOf o.pieces ++ r) o r := by
  obtain ⟨table, cluster, final⟩ := o
  have finals : tokensOf (if final then Piece.behind [FINAL] else []) =
      flagTokens final [.word FINAL] := by
    cases final <;> simp [flagTokens]
  simp only [Optimize.pieces, finals, tokensOf_append, tokensOf_ahead, tokensOf_word,
    tokensOf_keyword, tokensOf_nil, List.cons_append, List.nil_append, List.append_assoc]
  have finalStart : Begins (.word FINAL :: statementEnds) (flagTokens final [.word FINAL] ++ r) := by
    cases final with
    | false => exact hr.weaken FINAL
    | true => exact .first _ _ _
  have after := begins_clusterClause finalStart cluster
  unfold Grammar.optimize
  refine (reads_expect (Terminal.admits_self OPTIMIZE) _).next ?_
  refine (reads_expect (Terminal.admits_self TABLE) _).next ?_
  refine (reads_qualifiedName table (after.admits (by decide))).next ?_
  refine (reads_onCluster cluster fun _ => finalStart.admits (by decide)).next ?_
  refine .next (a := final) (r := r) ?_ (.pure _ r)
  cases final with
  | false => exact reads_accept_none (hr.admits (by decide))
  | true => exact reads_accept (Terminal.admits_self FINAL) r

theorem reads_transaction (statement : Statement) (t : Terminal) (hr : Begins statementEnds r) :
    (transaction statement).Reads 0 (t.spelled :: r) statement r := by
  refine (reads_discard_advance _ r).next ?_
  exact (reads_accept_none (hr.admits (by decide))).discard.next (.pure _ r)

/-! ### Explanations -/

/-- The terminals that statements start with. -/
def statementStarts : List Terminal :=
  [WITH, SELECT, leftParen, INSERT, UPDATE, DELETE, CREATE, ALTER, DROP, SET, TRUNCATE, RENAME, USE,
    SHOW, DESCRIBE, EXPLAIN, OPTIMIZE, BEGIN, COMMIT, ROLLBACK]

theorem begins_statement {statement : Statement} (hw : statement.WellFormed) (s : List Spelled) :
    Begins statementStarts (tokensOf statement.pieces ++ s) := by
  cases statement with
  | select q => exact (begins_query hw s).mono (by decide)
  | createTable c =>
    rw [Statement.pieces, tokensOf_createTable]
    exact .cons (by decide) _
  | createView c =>
    rw [Statement.pieces, tokensOf_createView]
    exact .cons (by decide) _
  | listing l =>
    rw [Statement.pieces]
    cases l with
    | tables database pattern =>
      rw [tokensOf_listTables]
      exact .cons (by decide) _
    | _ =>
      simp only [Listing.pieces, tokensOf_append, tokensOf_ahead, tokensOf_phrase, tokensOf_word]
      exact .cons (by decide) _
  | _ =>
    simp only [Statement.pieces, Insert.pieces, Update.pieces, Delete.pieces, CreateIndex.pieces,
      CreateDatabase.pieces, AlterTable.pieces, Drop.pieces, Truncate.pieces, Rename.pieces,
      Optimize.pieces, tokensOf_append, tokensOf_ahead, tokensOf_phrase, tokensOf_keyword,
      tokensOf_word]
    exact .cons (by decide) _

/-- A statement is not empty. -/
theorem tokensOf_statement_ne_nil {statement : Statement} (hw : statement.WellFormed) :
    tokensOf statement.pieces ≠ [] := by
  intro empty
  have start := begins_statement hw [(Terminal.symbol comma).spelled]
  rw [empty] at start
  have noComma := start.admits (show Terminal.symbol comma ∉ statementStarts by decide)
  simp at noComma

/-- The tokens of the stage that an explanation may name. -/
def stageTokens : Option ExplainStage → List Spelled
  | none => []
  | some stage => [(Terminal.word stage.word).spelled]

theorem tokensOf_explain (stage : Option ExplainStage) (statement : Statement) :
    tokensOf (Statement.pieces (.explain stage statement)) =
      (Terminal.word EXPLAIN).spelled :: (stageTokens stage ++ tokensOf statement.pieces) := by
  conv_lhs => unfold Statement.pieces
  cases stage <;> simp [stageTokens]

theorem reads_explainStage (stage : Option ExplainStage) (hs : Begins statementStarts s) :
    explainStage.Reads 0 (stageTokens stage ++ s) stage s := by
  unfold Grammar.explainStage
  rcases stage with _ | _ | _ | _ | _
  · exact .rejected (hs.admits (by decide)) (.rejected (hs.admits (by decide))
      (.rejected (hs.admits (by decide)) (.rejected (hs.admits (by decide)) (.pure _ s))))
  · exact .accepted (Terminal.admits_self AST) (.pure _ s)
  · exact .rejected (by simp [stageTokens, ExplainStage.word])
      (.accepted (Terminal.admits_self SYNTAX) (.pure _ s))
  · exact .rejected (by simp [stageTokens, ExplainStage.word])
      (.rejected (by simp [stageTokens, ExplainStage.word])
        (.accepted (Terminal.admits_self PLAN) (.pure _ s)))
  · exact .rejected (by simp [stageTokens, ExplainStage.word])
      (.rejected (by simp [stageTokens, ExplainStage.word])
        (.rejected (by simp [stageTokens, ExplainStage.word])
          (.accepted (Terminal.admits_self PIPELINE) (.pure _ s))))

theorem Reads.explain (hg : g.Reads size) (stage : Option ExplainStage) {statement : Statement}
    (hw : statement.WellFormed)
    (hs : (tokensOf (Statement.pieces (.explain stage statement))).length ≤ size)
    (hr : Begins statementEnds r) :
    g.explain.Reads (1 + statement.levels)
      (tokensOf (Statement.pieces (.explain stage statement)) ++ r) (.explain stage statement)
      r := by
  rw [tokensOf_explain] at hs ⊢
  simp only [List.length_cons, List.length_append, List.cons_append, List.append_assoc] at hs ⊢
  unfold Grammar.explain
  refine (reads_expect (Terminal.admits_self EXPLAIN) _).next ?_
  refine (reads_explainStage stage (begins_statement hw r)).next ?_
  exact .last (.descend (hg.statement hw (by omega) hr)) (.pure _ r)

/-! ### Statements of every kind -/

/-- A statement that starts with a word is what the word stands for. -/
theorem reads_statement_word {w : Word} (start : ∃ t, s = (Terminal.word w).spelled :: t)
    (hw : statementWords.find? (·.spelledBy w.text) = some w) {n : ℕ∞} {statement : Statement}
    (h : (g.wordStatement w).Reads n s statement r) :
    g.statementRule.Reads n s statement r := by
  obtain ⟨t, rfl⟩ := start
  unfold Grammar.statementRule
  refine (reads_peek _).next ?_
  simp only [Terminal.spelled, kindAt_cons_zero, hw]
  exact h

/-- A query is a statement of its own. -/
theorem Reads.statement_select (hg : g.Reads size) {q : Query} (hw : q.WellFormed)
    (hs : (tokensOf q.pieces).length ≤ size) (hr : Begins statementEnds r) :
    g.statementRule.Reads q.levels (tokensOf q.pieces ++ r) (.select q) r := by
  have read : (g.queryRule >>= fun q => pure (Statement.select q)).Reads q.levels
      (tokensOf q.pieces ++ r) (.select q) r :=
    (hg.queryRule hw hs (hr.mono (by decide))).last (.pure _ r)
  unfold Grammar.statementRule
  refine (reads_peek _).next ?_
  rcases begins_query hw r with nothing | ⟨t, ht, s, start⟩
  · have opens := opensQuery hw r
    rw [nothing] at opens
    cases opens
  · rw [start] at read ⊢
    rcases (by simpa using ht : t = WITH ∨ t = SELECT ∨ t = leftParen) with rfl | rfl | rfl <;>
      exact read

/-- Every statement is read back in front of its semicolon or the end. -/
theorem Reads.statementRule (hg : g.Reads size) {statement : Statement}
    (hw : statement.WellFormed) (hs : (tokensOf statement.pieces).length ≤ size)
    (hr : Begins statementEnds r) :
    g.statementRule.Reads statement.levels (tokensOf statement.pieces ++ r) statement r := by
  cases statement with
  | select q => exact hg.statement_select hw hs hr
  | insert i =>
    have start : kindAt (tokensOf (Statement.pieces (.insert i)) ++ r) 0 = .keyword INSERT := by
      simp [Statement.pieces, Insert.pieces, Terminal.spelled]
    unfold Grammar.statementRule
    refine (reads_peek _).next ?_
    rw [start]
    exact .last (hg.insert hw hs hr) (.pure _ r)
  | update u =>
    have start : kindAt (tokensOf (Statement.pieces (.update u)) ++ r) 0 = .keyword UPDATE := by
      simp [Statement.pieces, Update.pieces, Terminal.spelled]
    unfold Grammar.statementRule
    refine (reads_peek _).next ?_
    rw [start]
    exact .last (hg.update hw hs hr) (.pure _ r)
  | delete d =>
    have start : kindAt (tokensOf (Statement.pieces (.delete d)) ++ r) 0 = .keyword DELETE := by
      simp [Statement.pieces, Delete.pieces, Terminal.spelled]
    unfold Grammar.statementRule
    refine (reads_peek _).next ?_
    rw [start]
    exact .last (hg.delete hw hs hr) (.pure _ r)
  | createTable c =>
    have start : kindAt (tokensOf (Statement.pieces (.createTable c)) ++ r) 0 =
        .keyword CREATE := by
      rw [Statement.pieces, tokensOf_createTable]
      rfl
    unfold Grammar.statementRule
    refine (reads_peek _).next ?_
    rw [start]
    exact hg.create_table hw hs hr
  | createView c =>
    have start : kindAt (tokensOf (Statement.pieces (.createView c)) ++ r) 0 =
        .keyword CREATE := by
      rw [Statement.pieces, tokensOf_createView]
      rfl
    unfold Grammar.statementRule
    refine (reads_peek _).next ?_
    rw [start]
    exact hg.create_view hw hs hr
  | createIndex c =>
    have start : kindAt (tokensOf (Statement.pieces (.createIndex c)) ++ r) 0 =
        .keyword CREATE := by
      simp [Statement.pieces, CreateIndex.pieces, Terminal.spelled]
    unfold Grammar.statementRule
    refine (reads_peek _).next ?_
    rw [start]
    exact hg.create_index hw.1 hw.2 hs r
  | createDatabase c =>
    have start : kindAt (tokensOf (Statement.pieces (.createDatabase c)) ++ r) 0 =
        .keyword CREATE := by
      simp [Statement.pieces, CreateDatabase.pieces, Terminal.spelled]
    unfold Grammar.statementRule
    refine (reads_peek _).next ?_
    rw [start]
    exact hg.create_database hw hs hr
  | alterTable a =>
    have start : kindAt (tokensOf (Statement.pieces (.alterTable a)) ++ r) 0 = .keyword ALTER := by
      simp [Statement.pieces, AlterTable.pieces, Terminal.spelled]
    unfold Grammar.statementRule
    refine (reads_peek _).next ?_
    rw [start]
    exact .last (hg.alterTable hw.1 hw.2 hs hr) (.pure _ r)
  | drop d =>
    have start : kindAt (tokensOf (Statement.pieces (.drop d)) ++ r) 0 = .keyword DROP := by
      simp [Statement.pieces, Drop.pieces, Terminal.spelled]
    unfold Grammar.statementRule
    refine (reads_peek _).next ?_
    rw [start]
    exact (reads_drop hw hr).next (.pure _ r)
  | changeSettings settings =>
    have start : kindAt (tokensOf (Statement.pieces (.changeSettings settings)) ++ r) 0 =
        .keyword SET := by
      simp [Statement.pieces, Terminal.spelled]
    unfold Grammar.statementRule
    refine (reads_peek _).next ?_
    rw [start]
    exact hg.changeSettings hw.1 hw.2 hs hr
  | truncate t =>
    have read : (g.wordStatement TRUNCATE).Reads 0 (tokensOf t.pieces ++ r) (.truncate t) r :=
      (reads_truncate t hr).next (.pure _ r)
    refine reads_statement_word (w := TRUNCATE) (by simp [Statement.pieces, Truncate.pieces])
      (by decide) read
  | rename n =>
    have read : (g.wordStatement RENAME).Reads 0 (tokensOf n.pieces ++ r) (.rename n) r :=
      (reads_rename hw hr).next (.pure _ r)
    refine reads_statement_word (w := RENAME) (by simp [Statement.pieces, Rename.pieces])
      (by decide) read
  | useDatabase name =>
    exact reads_statement_word (w := USE) (by simp [Statement.pieces]) (by decide)
      (reads_useDatabase name r)
  | listing l =>
    have read : (g.wordStatement SHOW).Reads 0 (tokensOf l.pieces ++ r) (.listing l) r :=
      (reads_listing l hr).next (.pure _ r)
    have start : ∃ s, tokensOf l.pieces ++ r = (Terminal.word SHOW).spelled :: s := by
      cases l with
      | tables database pattern =>
        rw [tokensOf_listTables]
        exact ⟨_, rfl⟩
      | _ => simp [Listing.pieces]
    exact reads_statement_word (w := SHOW) start (by decide) read
  | describe table =>
    exact reads_statement_word (w := DESCRIBE) (by simp [Statement.pieces]) (by decide)
      (reads_describe table hr)
  | explain stage statement =>
    refine reads_statement_word (w := EXPLAIN) ?_ (by decide) (hg.explain stage hw hs hr)
    rw [tokensOf_explain]
    exact ⟨_, rfl⟩
  | optimize o =>
    have read : (g.wordStatement OPTIMIZE).Reads 0 (tokensOf o.pieces ++ r) (.optimize o) r :=
      (reads_optimize o hr).next (.pure _ r)
    exact reads_statement_word (w := OPTIMIZE) (by simp [Statement.pieces, Optimize.pieces])
      (by decide) read
  | begin | commit | rollback =>
    simp only [Statement.pieces, tokensOf_word, tokensOf_nil, List.cons_append, List.nil_append]
    exact reads_statement_word ⟨_, rfl⟩ (by decide) (reads_transaction _ _ hr)

/-! ### The whole grammar -/

theorem Reads.step (hg : g.Reads size) : (Grammar.step g).Reads (size + 1) where
  expr he hl hs hr := hg.exprRule he hl (Nat.le_of_lt_succ hs) hr
  query hw hs hr := hg.queryRule hw (Nat.le_of_lt_succ hs) hr
  body hw hl hs hr := hg.bodyRule hw hl (Nat.le_of_lt_succ hs) hr
  dataType hs hr := hg.dataTypeRule (Nat.le_of_lt_succ hs) hr
  statement hw hs hr := hg.statementRule hw (Nat.le_of_lt_succ hs) hr

/-- With room for `count` constructs inside one another, all of less than `count` tokens are read. -/
theorem reads_upTo (count : Nat) : (upTo count).Reads count := by
  induction count with
  | zero =>
    exact ⟨fun _ _ h => absurd h (Nat.not_lt_zero _), fun _ h => absurd h (Nat.not_lt_zero _),
      fun _ _ h => absurd h (Nat.not_lt_zero _), fun h => absurd h (Nat.not_lt_zero _),
      fun _ h => absurd h (Nat.not_lt_zero _)⟩
  | succ count ih => exact ih.step

end Grammar

end CanonicalSql
