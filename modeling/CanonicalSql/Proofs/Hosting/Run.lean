import CanonicalSql.Proofs.Course.Document
import CanonicalSql.Proofs.Hosting.Text
import CanonicalSql.Proofs.Layout
import CanonicalSql.Proofs.Progress.Whole
import CanonicalSql.Proofs.Reading.Document

/-! What is read alone is read inside other constructs.  A step that gave a result over the tokens of a text
gives it wherever these tokens stand, whatever the places of the tokens, and from every depth that leaves as
many levels open.  The rules of the grammar refer to one another up to some depth, which is no matter either:
inside a construct it is always enough. -/

namespace CanonicalSql

open Parse

variable {α : Type} {s r : List Spelled} {c d : Cursor}

/-! ### Cursors that show the same tokens -/

/-- What is behind the tokens passed over is the rest of the tokens shown. -/
theorem Cursor.Shows.behind {ts : List Token} (h : c.Shows s) (hc : c.upcoming = ts ++ d.upcoming) :
    ∃ r, d.Shows r ∧ s = ts.map Token.spelled ++ r := by
  obtain ⟨all, inside⟩ := h
  obtain ⟨us, mark, hd⟩ : ∃ us mark, d.upcoming = us ++ [mark] :=
    ⟨_, _, (List.dropLast_append_getLast d.upcoming_ne_nil).symm⟩
  rw [hc, hd, ← List.append_assoc, List.map_append, List.map_singleton] at all
  obtain ⟨front, last⟩ := List.append_inj' all rfl
  rw [List.map_append] at front
  refine ⟨us.map Token.spelled, ⟨?_, fun t ht => inside t ?_⟩, front.symm⟩
  · rw [hd, List.map_append, List.map_singleton, last]
  · rw [← front]
    exact List.mem_append_right _ ht

/-- Cursors that show the same tokens go together. -/
theorem Cursor.Shows.beside (hc : c.Shows s) (hd : d.Shows s) : Likeness.elsewhere.Beside c d := by
  obtain ⟨all, inside⟩ := hc
  obtain ⟨ts, mark, hts⟩ : ∃ ts mark, c.upcoming = ts ++ [mark] :=
    ⟨_, _, (List.dropLast_append_getLast c.upcoming_ne_nil).symm⟩
  obtain ⟨us, mark', hus⟩ : ∃ us mark, d.upcoming = us ++ [mark] :=
    ⟨_, _, (List.dropLast_append_getLast d.upcoming_ne_nil).symm⟩
  have same := hd.1.trans all.symm
  rw [hts, List.map_append, List.map_singleton] at all
  obtain ⟨rfl, last⟩ := List.append_inj' all rfl
  unfold Likeness.Beside
  rw [hts, hus] at same ⊢
  refine Likeness.tokens_elsewhere (fun t ht => ?_) ?_ same
  · exact inside t.spelled (List.mem_map_of_mem ht)
  · exact congrArg Spelled.kind (List.singleton_inj.1 last)

theorem Likeness.Tokens.spelled {ts us : List Token} (h : elsewhere.Tokens ts us) :
    us.map Token.spelled = ts.map Token.spelled := by
  induction h with
  | mark _ alike => exact congrArg (fun t => [t]) alike
  | beyond _ _ more => cases more
  | next _ alike _ ih => rw [List.map_cons, List.map_cons, alike, ih]

/-- A cursor that goes with another shows the same tokens. -/
theorem Likeness.Beside.shows (h : elsewhere.Beside c d) (hc : c.Shows r) : d.Shows r :=
  ⟨h.spelled.trans hc.1, hc.2⟩

theorem Cursor.Shows.remaining (h : c.Shows s) : c.remaining = s.length := h.length

theorem Cursor.Shows.closed (h : c.Shows s) : c.Closed := by
  have ends := congrArg List.getLast? h.1
  rw [List.getLast?_map, List.getLast?_append, List.getLast?_eq_some_getLast c.upcoming_ne_nil] at ends
  exact congrArg Spelled.kind (Option.some.inj ends)

/-! ### Runs elsewhere -/

/-- Two grammars' rules that end alike do so as parts of the grammar as a whole. -/
theorem Likeness.alike_rule {L : Likeness} {x : Grammar → Parse α}
    (h : ∀ g g', L.Grammars g g' → L.Alike (x g) (x g')) : L.Alike (Parse.rule x) (Parse.rule x) := by
  intro c d
  refine .remaining fun less same => ?_
  exact h _ _ (Grammars.upTo (Nat.succ_le_succ less) fun closed => by rw [same closed]) c d

/-- Where the first of two steps that end alike gives a result, the second one gives it as well. -/
theorem Likeness.Alike.ok {L : Likeness} {x y : Parse α} (h : L.Alike x y) (beside : L.Beside c d) {a : α}
    {depth limit : ℕ} {q : Parser} (run : x ⟨c, depth, limit⟩ = .ok a q) :
    ∃ q', y ⟨d, depth, limit⟩ = .ok a q' ∧ L.Beside q.cursor q'.cursor := by
  have ends := h c d beside depth limit
  rw [run] at ends
  generalize y ⟨d, depth, limit⟩ = result at ends
  cases ends with
  | result same beside' => exact ⟨_, by rw [same], beside'⟩

/-- A step that gave a result reads it from the tokens that it passed over, wherever they stand. -/
theorem Parse.reads_of_ok {plain : Prop} {x : Parse α} {a : α} {p q : Parser} {Q : Parse.Ask α}
    (course : x.GivesAt plain p.cursor Q) (alike : Likeness.elsewhere.Alike x x)
    (ready : p.cursor.Ready plain) (shows : p.cursor.Shows s) (run : x p = .ok a q) :
    ∃ (n : ℕ) (r : List Spelled), n ≤ p.room ∧ q.cursor.Shows r ∧ x.Reads n s a r := by
  obtain ⟨n, e, ends, asked⟩ := course ready
  by_cases short : p.room < n
  · obtain ⟨t, -, c', refused⟩ := (ends p rfl).2 short
    cases run.symm.trans refused
  have enough := Nat.le_of_not_lt short
  have same := run.symm.trans ((ends p rfl).1 enough)
  cases e with
  | refusal => cases same
  | result b c =>
    cases same
    obtain ⟨ts, moved, -⟩ := asked
    obtain ⟨r, behind, -⟩ := shows.behind moved
    refine ⟨n, r, enough, behind, fun p' hp' => ?_⟩
    -- The run over the tokens of the text, from the depth and within the limit of the other one.
    have both := alike _ _ (shows.beside hp') p'.depth p'.limit
    obtain ⟨long, deep⟩ := ends ⟨p.cursor, p'.depth, p'.limit⟩ rfl
    constructor
    · intro room
      rw [long (Nat.cast_le.1 room)] at both
      change Likeness.Ends _ _ _ _ _ _ (x p') at both
      generalize x p' = result at both
      cases both with
      | result same beside => exact ⟨_, beside.shows behind, by rw [same]⟩
    · intro room
      obtain ⟨t, -, c', refused⟩ := deep (Nat.lt_of_not_le fun h => room (Nat.cast_le.2 h))
      rw [refused] at both
      change Likeness.Ends _ _ _ _ _ _ (x p') at both
      generalize x p' = result at both
      cases both with
      | refusal => exact ⟨_, _, rfl⟩
      | cut more => exact absurd rfl more

/-! ### Rules inside others -/

namespace Parse

/-- A query. -/
def query : Parse Query := rule fun g => g.query

theorem sound_query {plain : Prop} : query.Sound plain :=
  .remaining fun _ => (Grammar.sound_upTo _).query.mono fun _ _ _ h => h.1

variable {n : ℕ∞} {x y : Parse α} {a : α} {k : ℕ}

/-- Steps that agree near the end of a vector read the same from the tokens there. -/
theorem Reads.agree (h : x.Reads n s a r) (same : Agree k x y) (near : s.length < k) :
    y.Reads n s a r := by
  intro p hp
  rw [← same p hp.closed (hp.remaining ▸ near)]
  exact h p hp

/-- An expression is read alike by every grammar that is deep enough, -/
theorem Reads.expr_upTo {e : Expr} (h : expr.Reads n s e r) (near : s.length < k) :
    (Grammar.upTo k).anyExpr.Reads n s e r :=
  h.agree ((Grammar.together_whole le_rfl).expr 0).agree near

/-- and so is a query. -/
theorem Reads.query_upTo {q : Query} (h : query.Reads n s q r) (near : s.length < k) :
    (Grammar.upTo k).query.Reads n s q r :=
  h.agree (Grammar.together_whole le_rfl).query.agree near

/-- A statement is read by the rule for statements, within a grammar that is deep enough for what is
inside. -/
theorem Reads.statement {statement : Statement}
    (h : (Grammar.upTo s.length).statementRule.Reads n s statement r) :
    Parse.statement.Reads n s statement r :=
  (reads_remaining s).next h

/-- Whether nothing more is ahead, or a semicolon and nothing more. -/
def DocumentEnd (r : List Spelled) : Prop := r = [] ∨ ∃ t, t.kind = .symbol .semicolon ∧ r = [t]

/-- A single statement up to the end, with or without a semicolon. -/
theorem Reads.statements {statement : Statement} (h : Parse.statement.Reads n s statement r)
    (some : s ≠ []) (start : (Terminal.symbol .semicolon).admits (kindAt s 0) = false)
    (ends : DocumentEnd r) : Parse.statements.Reads n s [statement] [] := by
  obtain ⟨count, long⟩ : ∃ count, s.length = count + 1 :=
    ⟨s.length - 1, by have := List.length_pos_iff.2 some; omega⟩
  refine (reads_remaining s).next ?_
  rw [long]
  refine (reads_remaining s).next ((reads_skipSemicolons _ start).next ((reads_atEnd s).next ?_))
  rw [List.isEmpty_eq_false_iff.2 some]
  refine h.last ?_
  have nothing : (statementsWithin (count + 1)).Reads 0 [] [] [] :=
    (reads_remaining []).next ((reads_skipSemicolons _ rfl).next ((reads_atEnd []).next (.pure [] [])))
  rcases ends with rfl | ⟨t, semicolon, rfl⟩
  · exact (reads_accept_none rfl).next ((reads_atEnd []).next (nothing.next (.pure _ [])))
  · have found : (Terminal.symbol .semicolon).admits t.kind = true := Terminal.admits_symbol.2 semicolon
    exact (reads_accept found []).next ((reads_atEnd []).next (nothing.next (.pure _ [])))

end Parse

/-! ### Texts -/

variable {text : String} {tokens : List Token}

/-- A parser starts in front of the tokens of its text, but for the mark of the end. -/
theorem shows_of_spelled (lexed : tokenize text = .ok tokens)
    (spelled : tokens.map Token.spelled = s ++ [.endMark]) (limit : ℕ) :
    (Parser.ofTokens tokens limit).cursor.Shows s := by
  obtain ⟨ts, mark, rfl, -⟩ := ended_of_tokenize lexed
  rw [List.map_append] at spelled
  obtain ⟨rfl, -⟩ := List.append_inj' spelled rfl
  exact shows_of_tokenize lexed limit

/-- What is read from the tokens of a text is the document that the text is. -/
theorem parseDocument_of_reads {n : ℕ∞} {statements : List Statement} {limit : ℕ}
    (h : Parse.statements.Reads n s statements r) (lexed : tokenize text = .ok tokens)
    (spelled : tokens.map Token.spelled = s ++ [.endMark]) (room : n ≤ limit) :
    parseDocument text limit = .ok statements := by
  obtain ⟨c, -, run⟩ := (h _ (shows_of_spelled lexed spelled limit)).1 room
  simp only [parseDocument, Parse.ofText, lexed, Parse.outcome, run]

end CanonicalSql
