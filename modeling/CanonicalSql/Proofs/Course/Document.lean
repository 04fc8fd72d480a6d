import CanonicalSql.Document
import CanonicalSql.Proofs.Course.Statement
import CanonicalSql.Proofs.Lexing.Run

/-! What becomes of a text, whatever the limit of nesting: the statements that are read up to its end,
or a refusal, or too little room for the levels of its course. -/

namespace CanonicalSql

namespace Parse

variable {plain : Prop}

theorem sound_statement : Parse.statement.Sound plain :=
  .remaining fun _ => (Grammar.sound_upTo _).statement

theorem sound_skipSemicolons (count : ℕ) : (skipSemicolons count).Sound plain := by
  induction count with
  | zero => exact .pure (holds_silent trivial rfl rfl)
  | succ count ih => exact .accept ih (.pure (holds_silent trivial rfl rfl))

/-- Statements are read up to the end: what does not end the source costs a semicolon. -/
theorem sound_statementsWithin {count : ℕ} {c : Cursor} (enough : c.remaining ≤ count) :
    (statementsWithin count).GivesAt plain c fun n ts statements c' =>
      Holds plain (triangle n) (literalsOf ts) statements ∧ c'.current.kind = .eof := by
  induction count generalizing c with
  | zero =>
    intro ready
    exact GivesAt.pure ⟨holds_nil, ready.atEnd_iff.2 (Nat.le_zero.1 enough)⟩ ready
  | succ count ih =>
    refine .remaining ((sound_skipSemicolons _ c).bind fun n1 ts1 _ c1 h1 hc1 => .atEnd ?_)
    have moved := Cursor.remaining_add hc1
    cases ended : c1.atEnd with
    | true =>
      refine .pure ⟨?_, by simpa [Cursor.atEnd] using ended⟩
      rw [List.append_nil, Nat.max_zero]
      exact h1.into (fun _ => by simp [Construct.WellFormed]) (Nat.zero_le _) rfl
    | false =>
      refine (sound_statement c1).bind fun n2 ts2 first c2 h2 hc2 => ?_
      have moved' := Cursor.remaining_add hc2
      -- The statements behind the first one, from a cursor that is near enough to the end.
      have others : ∀ {c : Cursor}, c.remaining ≤ count →
          (do return first :: (← statementsWithin count) : Parse (List Statement)).GivesAt plain c
            fun n us statements c' =>
              Holds plain (triangle (max n1 (max n2 n))) (literalsOf (ts1 ++ (ts2 ++ us)))
                statements ∧ c'.current.kind = .eof := by
        intro c near
        refine (ih near).bind fun n3 us others c' h3 _ => .pure ⟨?_, h3.2⟩
        simp only [Nat.max_zero, List.append_nil, literalsOf_append]
        exact (h1.and (h2.and h3.1)).into (fun w => List.forall_mem_cons.2 w.2)
          (le_max_right _ _) rfl
      intro ready
      refine GivesAt.accept (fun found => .atEnd ?_) (fun _ => .atEnd ?_) ready
      · have semicolon := Cursor.remaining_add (ready.advance (Terminal.silent found).2)
        rw [List.length_singleton] at semicolon
        have silent : ∀ us, literalsOf (ts1 ++ (ts2 ++ c2.current :: us)) =
            literalsOf (ts1 ++ (ts2 ++ us)) := fun us => by
          simp only [literalsOf_append, literalsOf_terminal found]
        simp only [silent]
        exact others (c := c2.advance) (by omega)
      · cases last : c2.atEnd with
        | true =>
          have none := ready.atEnd_iff.1 (by simpa [Cursor.atEnd] using last)
          exact others (by omega)
        | false => exact (GivesAt.fail (Q := fun _ _ _ _ => False) _).bind fun _ _ _ _ no _ => no.elim

theorem gives_statements (c : Cursor) :
    Parse.statements.GivesAt plain c fun n ts statements c' =>
      Holds plain (triangle n) (literalsOf ts) statements ∧ c'.current.kind = .eof :=
  .remaining (sound_statementsWithin (Nat.le_succ _))

theorem sound_expr : Parse.expr.Sound plain :=
  .remaining fun _ => (Grammar.sound_upTo _).anyExpr

theorem sound_wholeExpr : wholeExpr.Sound plain := by
  refine .bind sound_expr fun n ls e h => .discard_accept fun c => .atEnd ?_
  cases c.atEnd with
  | true => exact .pure (by simpa using h)
  | false => exact (GivesAt.fail (Q := fun _ _ _ _ => False) _).bind fun _ _ _ _ no => no.elim

/-- A run that ends well ends as asked. -/
theorem GivesAt.of_ok {α : Type} {x : Parse α} {c : Cursor} {Q : Ask α} {p q : Parser} {a : α}
    (h : x.GivesAt plain c Q) (ready : c.Ready plain) (hp : p.cursor = c) (run : x p = .ok a q) :
    ∃ levels ts, Q levels ts a q.cursor := by
  obtain ⟨levels, e, ends, asked⟩ := h ready
  by_cases enough : levels ≤ p.room
  · have same := run.symm.trans ((ends p hp).1 enough)
    cases e with
    | refusal => cases same
    | result b c' =>
      cases same
      obtain ⟨ts, -, asked⟩ := asked
      exact ⟨levels, ts, asked⟩
  · obtain ⟨t, -, c', short⟩ := (ends p hp).2 (by omega)
    cases run.symm.trans short

end Parse

/-! ### Texts -/

variable {text : String} {tokens : List Token}

theorem upcoming_ofTokens (h : tokenize text = .ok tokens) (limit : Nat) :
    (Parser.ofTokens tokens limit).cursor.upcoming = tokens := by
  obtain ⟨ts, mark, rfl, ended, -⟩ := ended_of_tokenize h
  exact Cursor.upcoming_ofTokens_of_ended ended

/-- The tokens of a text are ready to be read. -/
theorem ready_ofTokens (h : tokenize text = .ok tokens) (limit : Nat) :
    (Parser.ofTokens tokens limit).cursor.Ready (¬ CommaLimit tokens) := by
  have all := upcoming_ofTokens h limit
  exact ⟨by rw [all]; exact genuine_of_tokenize h, by rw [all]; exact ended_of_tokenize h,
    by rw [all]; exact id⟩

/-- A parser starts in front of the tokens of a text, but for the mark of its end. -/
theorem shows_of_tokenize {ts : List Token} {mark : Token}
    (h : tokenize text = .ok (ts ++ [mark])) (limit : Nat) :
    (Parser.ofTokens (ts ++ [mark]) limit).cursor.Shows (ts.map Token.spelled) := by
  obtain ⟨us, lexer, -, -, all⟩ := Lexer.passes_of_tokens h
  obtain ⟨us', mark', all', -, inside⟩ := ended_of_tokenize h
  obtain ⟨rfl, last⟩ := List.append_inj' all rfl
  obtain ⟨rfl, -⟩ := List.append_inj' all' rfl
  refine ⟨?_, List.forall_mem_map.2 inside⟩
  rw [upcoming_ofTokens h, List.map_append, last]
  rfl

/-- The kinds of a text's tokens, known as a list, are all that its tokens have. -/
theorem kind_mem_of_tokenize {kinds : List Token.Kind} {t : Token} (h : tokenize text = .ok tokens)
    (found : (tokenize text).map (·.map Token.kind) = .ok kinds) (ht : t ∈ tokens) : t.kind ∈ kinds := by
  rw [h] at found
  obtain rfl : tokens.map Token.kind = kinds := Except.ok.inj found
  exact List.mem_map_of_mem ht

/-- A step with an outcome ends in it. -/
theorem Parse.exists_of_outcome {α : Type} {x : Parse α} {a : α} {p : Parser} (h : (x.outcome p).1 = .ok a) :
    ∃ q, x p = .ok a q := by
  unfold Parse.outcome at h
  split at h
  · next run =>
    cases h
    exact ⟨_, run⟩
  · cases h

/-- What is read from a text is well formed. -/
theorem Parse.Sound.wellFormed {α : Type} [Construct α] {x : Parse α} (sound : ∀ plain, x.Sound plain)
    {limit : ℕ} {a : α} (h : x.ofText text limit = .ok a) : Construct.WellFormed a := by
  cases found : tokenize text with
  | error e => simp [Parse.ofText, found] at h
  | ok tokens =>
    rw [Parse.ofText, found] at h
    obtain ⟨q, run⟩ := Parse.exists_of_outcome h
    obtain ⟨levels, ts, holds⟩ := (sound _ _).of_ok (ready_ofTokens found limit) rfl run
    exact holds.wellFormed

/-- What a step ends in, without the cursor. -/
def Parse.End.outcome {α : Type} : Parse.End α → Except ParseError α
  | .result a _ => .ok a
  | .refusal found expected _ => .error (.unexpected found expected)

/-- The course of a text: its levels and its end, and what is known of the statements if it has some.
Unless limits have the form with a comma, the statements keep all constants and parameters. -/
theorem course_of_text (h : tokenize text = .ok tokens) :
    ∃ (levels : ℕ) (e : Parse.End (List Statement)),
      (∀ limit, (levels ≤ limit → parseDocument text limit = e.outcome) ∧
        (limit < levels → ∃ t ∈ tokens,
          parseDocument text limit = .error (.tooDeep t.position limit))) ∧
        ∀ statements, e.outcome = .ok statements →
          Holds (¬ CommaLimit tokens) (triangle levels) (literalsOf tokens) statements := by
  have parsed : ∀ limit, parseDocument text limit =
      (Parse.statements.outcome (Parser.ofTokens tokens limit)).1 := by
    intro limit
    rw [parseDocument, Parse.ofText, h]
  obtain ⟨levels, e, ends, asked⟩ := Parse.gives_statements _ (ready_ofTokens h 0)
  refine ⟨levels, e, fun limit => ⟨fun enough => ?_, fun short => ?_⟩, fun statements he => ?_⟩
  · rw [parsed, Parse.outcome, (ends (Parser.ofTokens tokens limit) rfl).1 enough]
    cases e <;> rfl
  · obtain ⟨t, ht, c, run⟩ := (ends (Parser.ofTokens tokens limit) rfl).2 short
    rw [upcoming_ofTokens h] at ht
    refine ⟨t, ht, ?_⟩
    rw [parsed, Parse.outcome, run]
    rfl
  · cases e with
    | refusal => cases he
    | result a c =>
      obtain rfl : a = statements := by simpa [Parse.End.outcome] using he
      obtain ⟨ts, hts, holds, last⟩ := asked
      have behind := (ready_ofTokens h 0).behind hts
      have mark : c.upcoming = [c.current] := by
        rw [Cursor.upcoming, List.length_eq_zero_iff.1 (behind.atEnd_iff.1 last)]
      rw [upcoming_ofTokens h, mark] at hts
      rw [hts, literalsOf_append, literalsOf_silent (by rw [last]; rfl), literalsOf_nil,
        List.append_nil]
      exact hts ▸ holds

/-- What is known of the statements of a text that is accepted within some limit. -/
theorem holds_of_parseDocument {limit : ℕ} {statements : List Statement}
    (h : parseDocument text limit = .ok statements) :
    ∃ tokens, tokenize text = .ok tokens ∧
      Holds (¬ CommaLimit tokens) (triangle limit) (literalsOf tokens) statements := by
  cases found : tokenize text with
  | error e => simp [parseDocument, Parse.ofText, found] at h
  | ok tokens =>
    obtain ⟨levels, e, course, holds⟩ := course_of_text found
    by_cases enough : levels ≤ limit
    · rw [(course limit).1 enough] at h
      exact ⟨tokens, rfl, (holds statements h).loosen (triangle_mono enough)⟩
    · obtain ⟨t, -, short⟩ := (course limit).2 (by omega)
      rw [h] at short
      cases short

/-- What is read from a text is well formed. -/
theorem wellFormed_of_parseDocument {limit : Nat} {statements : List Statement}
    (h : parseDocument text limit = .ok statements) :
    ∀ statement ∈ statements, statement.WellFormed := by
  obtain ⟨tokens, -, holds⟩ := holds_of_parseDocument h
  exact holds.wellFormed

end CanonicalSql
