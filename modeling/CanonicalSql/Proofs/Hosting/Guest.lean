import CanonicalSql.Proofs.Hosting.Run

/-! Queries that are to stand inside others.  A document that is a single query and has no semicolon is read
as this query wherever its tokens stand in front of a closing parenthesis or at the end of a text.  Its first
tokens tell how the query starts. -/

namespace CanonicalSql

open Keyword Word CanonicalSql.Symbol

/-! ### How a query starts -/

/-- Whether the start of a query is told by the tokens at the cursor: `SELECT` or `WITH` if it starts bare,
and a parenthesis in front of one of them if it opens with a query that does. -/
structure Query.StartsAt (q : Query) (c : Cursor) : Prop where
  bare : q.startsBare = true → c.current.kind.startsQuery = true
  opens : q.opensBare = true →
    c.current.kind = .symbol leftParen ∧ (c.peekAt 1).kind.startsQuery = true

namespace Grammar

open Parse

variable {plain : Prop} {g : Grammar}

/-- Whether the queries of a grammar start as their tokens tell. -/
def TellsStart (plain : Prop) (g : Grammar) : Prop :=
  ∀ c, g.query.GivesAt plain c fun _ _ q _ => q.StartsAt c

/-- An operand of a set operation starts as its tokens tell. -/
theorem TellsStart.setOperand (hg : g.Sound plain) (ht : g.TellsStart plain) (c : Cursor) :
    g.setOperand.GivesAt plain c fun _ _ b _ =>
      (b.startsBare = true → c.current.kind.startsQuery = true) ∧ (b.opensBare = true →
        c.current.kind = .symbol leftParen ∧ (c.peekAt 1).kind.startsQuery = true) := by
  refine .sees ?_
  cases found : (Terminal.keyword SELECT).admits c.current.kind with
  | true =>
    refine (hg.selectBlock c).bind fun _ _ block _ _ _ => .pure ⟨fun _ => ?_, nofun⟩
    rw [Terminal.kind_of_keyword found]
    rfl
  | false =>
    refine .sees ?_
    cases found : (Terminal.symbol leftParen).admits c.current.kind with
    | false => exact .fail _
    | true =>
      have opening := Terminal.kind_of_symbol found
      have inside : c.current.kind ≠ .eof := by rw [opening]; simp
      have group : (between leftParen rightParen g.query).GivesAt plain c fun _ _ q _ =>
          q.StartsAt c.advance :=
        .expect fun _ => (ht c.advance).bind fun _ _ q _ h _ => .expect fun _ => .pure h
      intro ready
      refine (group.bind fun _ _ q _ h _ => .pure ⟨nofun, fun opens => ⟨opening, ?_⟩⟩) ready
      rw [← ready.peekAt_advance inside 0]
      exact h.bare opens

/-- Set operations leave their first operand in front. -/
theorem Sound.setOperations_first (hg : g.Sound plain) (level count : ℕ) (left : QueryBody) (c : Cursor) :
    (g.setOperations level count left).GivesAt plain c fun _ _ b _ =>
      b.startsBare = left.startsBare ∧ b.opensBare = left.opensBare := by
  induction count generalizing left c with
  | zero => exact .pure ⟨rfl, rfl⟩
  | succ count ih =>
    refine .peek ?_
    cases ho : setOp? c.current.kind with
    | none => exact .pure ⟨rfl, rfl⟩
    | some op =>
      dsimp only
      split
      · exact .pure ⟨rfl, rfl⟩
      refine .descend (.discard_advance (silent_of_setOp? ho).2 ?_)
      have word : setQuantifier.Sound plain := sound_setQuantifier
      refine (word _).bind fun _ _ quantifier _ _ _ => ?_
      refine (hg.body _ (SetOp.precedence_le op) _).bind fun _ _ right c' _ _ => ?_
      exact (ih (.compound op quantifier left right) c').mono fun _ _ _ _ h => h

theorem TellsStart.queryRule (hg : g.Sound plain) (ht : g.TellsStart plain) (c : Cursor) :
    g.queryRule.GivesAt plain c fun _ _ q _ => q.StartsAt c := by
  have behind : ∀ (tables : Option WithClause) (body : QueryBody), (∀ orderBy limit settings format,
        Query.StartsAt ⟨tables, body, orderBy, limit, settings, format⟩ c) → ∀ c' : Cursor, (do
      let orderBy ← optionalList ORDER g.orderItems
      let limit ← Parse.optional LIMIT g.limit
      let settings ← optionalList SETTINGS (commaList g.setting)
      let format ← Parse.optional FORMAT (label .formatName)
      return ⟨tables, body, orderBy, limit, settings, format⟩ : Parse Query).GivesAt plain c'
        fun _ _ q _ => q.StartsAt c := by
    intro tables body starts c'
    refine (hg.clausesBehind tables body c').mono fun _ _ q _ h => ?_
    obtain ⟨orderBy, limit, settings, format, rfl, -⟩ := h
    exact starts _ _ _ _
  refine .descend ?_
  by_cases found : (Terminal.keyword WITH).admits c.current.kind = true
  · -- Behind `WITH` the body may start with anything.
    have first : (Parse.optional WITH g.withClause).GivesAt plain c fun _ _ tables _ =>
        tables.isSome = true := by
      refine .accept (fun _ => ?_) fun other => absurd found (by simp [other])
      exact (hg.withClause _).bind fun _ _ tables _ _ _ => .pure rfl
    refine first.bind fun _ _ tables c1 some _ => ?_
    refine (hg.bodyRule (Nat.zero_le _) c1).bind fun _ _ body c2 _ _ => ?_
    refine behind tables body (fun _ _ _ _ => ⟨fun _ => ?_, fun opens => ?_⟩) c2
    · rw [Terminal.kind_of_keyword found]
      rfl
    · rw [Query.opensBare, Option.isNone_eq_false_iff.2 some] at opens
      cases opens
  · refine GivesAt.bind (Q := fun _ _ tables c' => tables = none ∧ c = c')
      (.accept (fun other => absurd other found) fun _ => .pure ⟨rfl, rfl⟩) ?_
    rintro _ _ _ _ ⟨rfl, rfl⟩ _
    have body : (g.bodyRule 0).GivesAt plain c fun _ _ b _ =>
        (b.startsBare = true → c.current.kind.startsQuery = true) ∧ (b.opensBare = true →
          c.current.kind = .symbol leftParen ∧ (c.peekAt 1).kind.startsQuery = true) := by
      rw [bodyRule_eq_setOperations]
      refine (ht.setOperand hg c).bind fun _ _ left c1 h _ => .remaining ?_
      refine (hg.setOperations_first 0 _ left c1).mono fun _ _ b _ same => ?_
      rwa [same.1, same.2]
    exact body.bind fun _ _ body c2 h _ => behind none body (fun _ _ _ _ => ⟨h.1, h.2⟩) c2

theorem tellsStart_upTo (count : ℕ) : (upTo count).TellsStart plain := by
  induction count with
  | zero => exact fun _ => .fail _
  | succ count ih => exact TellsStart.queryRule (g := upTo count) (sound_upTo count) ih

end Grammar

/-- Whether the statement is a query. -/
def Statement.isQuery : Statement → Bool
  | .select _ => true
  | _ => false

namespace Parse

/-- Whether no result of a step is a query. -/
def NoQuery (x : Parse Statement) : Prop :=
  ∀ p statement q, x p = .ok statement q → statement.isQuery = false

namespace NoQuery

variable {α : Type} {x y : Parse Statement} {f : α → Parse Statement} {z : Parse α}

theorem pure {statement : Statement} (h : statement.isQuery = false) :
    NoQuery (Pure.pure statement) := by
  intro p _ q run
  cases run
  exact h

theorem fail (expected : Expectation) : NoQuery (Parse.fail expected) := by
  intro p statement q run
  cases run

theorem bind (h : ∀ a, NoQuery (f a)) : NoQuery (z >>= f) := by
  intro p statement q run
  obtain ⟨a, p', -, last⟩ := exists_of_bind run
  exact h a p' statement q last

theorem ite {b : Bool} (hx : NoQuery x) (hy : NoQuery y) : NoQuery (if b = true then x else y) := by
  cases b with
  | true => exact hx
  | false => exact hy

/-- A step whose result is put into a statement that is no query. -/
theorem last {g : α → Statement} (h : ∀ a, (g a).isQuery = false) :
    NoQuery (z >>= fun a => Pure.pure (g a)) :=
  bind fun a => pure (h a)

theorem accept {t : Terminal} (hx : NoQuery x) (hy : NoQuery y) :
    NoQuery (Parse.accept t >>= fun found => if found = true then x else y) :=
  bind fun _ => ite hx hy

end NoQuery

end Parse

namespace Grammar

open Parse

variable {g : Grammar} {p r : Parser} {q : Query}

theorem noQuery_create : NoQuery g.create := by
  have table : ∀ replace temporary,
      NoQuery (do return .createTable (← g.createTable replace temporary)) :=
    fun _ _ => .last fun _ => rfl
  have view : ∀ replace materialized,
      NoQuery (do return .createView (← g.createView replace materialized)) :=
    fun _ _ => .last fun _ => rfl
  have index : ∀ unique, NoQuery (do return .createIndex (← g.createIndex unique)) :=
    fun _ => .last fun _ => rfl
  have database : NoQuery (do return .createDatabase (← g.createDatabase)) := .last fun _ => rfl
  refine .bind fun _ => .bind fun replace => .accept (.bind fun _ => table _ _) ?_
  refine .accept (table _ _) (.accept (.bind fun _ => view _ _) (.accept (view _ _) ?_))
  refine .ite (.fail _) (.accept (.bind fun _ => index _) (.accept (index _) ?_))
  exact .accept database (.fail _)

theorem noQuery_describe : NoQuery describe := by
  have name : NoQuery (do
      discard (accept TABLE)
      return .describe (← qualifiedName)) := .bind fun _ => .last fun _ => rfl
  exact .accept name (.bind fun _ => name)

theorem noQuery_wordStatement (w : Word) : NoQuery (g.wordStatement w) := by
  have transaction : ∀ {statement : Statement}, statement.isQuery = false →
      NoQuery (Grammar.transaction statement) :=
    fun other => .bind fun _ => .bind fun _ => .pure other
  unfold Grammar.wordStatement
  split
  · exact .last fun _ => rfl
  · exact .last fun _ => rfl
  · exact .bind fun _ => .last fun _ => rfl
  · exact .last fun _ => rfl
  · exact noQuery_describe
  · exact .bind fun _ => .bind fun _ => .last fun _ => rfl
  · exact .last fun _ => rfl
  · exact transaction rfl
  · exact transaction rfl
  · exact transaction rfl
  · exact .fail _

/-- A statement that is a query was read by the rule for queries. -/
theorem queryRule_of_statementRule (run : g.statementRule p = .ok (.select q) r) :
    g.queryRule p = .ok q r ∧
      (p.cursor.current.kind.startsQuery = true ∨ p.cursor.current.kind = .symbol leftParen) := by
  have queries : (do return .select (← g.queryRule) : Parse Statement) p = .ok (.select q) r →
      g.queryRule p = .ok q r := by
    intro run
    obtain ⟨q', p', first, last⟩ := exists_of_bind run
    cases last
    exact first
  have others : ∀ {x : Parse Statement}, NoQuery x → x p = .ok (.select q) r → ∀ {a : Prop}, a := by
    intro x none run
    cases none p _ r run
  unfold Grammar.statementRule at run
  rw [peek_bind] at run
  generalize p.cursor.current.kind = kind at run
  split at run
  · exact ⟨queries run, .inl rfl⟩
  · exact ⟨queries run, .inl rfl⟩
  · exact ⟨queries run, .inr rfl⟩
  · exact others (.last fun _ => rfl) run
  · exact others (.last fun _ => rfl) run
  · exact others (.last fun _ => rfl) run
  · exact others noQuery_create run
  · exact others (.last fun _ => rfl) run
  · exact others (.last fun _ => rfl) run
  · exact others (.bind fun _ => .last fun _ => rfl) run
  · exact others noQuery_describe run
  · generalize statementWords.find? _ = word at run
    cases word with
    | some w => exact others (noQuery_wordStatement w) run
    | none => exact others (.fail _) run
  · exact others (.fail _) run

end Grammar

/-! ### Documents of a single query -/

/-- Where no semicolon is ahead, a document of a single query is this query up to the end. -/
theorem query_of_statements {p r : Parser} {q : Query}
    (unended : ∀ t ∈ p.cursor.upcoming, t.kind ≠ .symbol semicolon)
    (run : Parse.statements p = .ok [.select q] r) :
    ∃ p', Parse.query p = .ok q p' ∧ p'.cursor.current.kind = .eof ∧
      (p.cursor.current.kind.startsQuery = true ∨ p.cursor.current.kind = .symbol leftParen) := by
  have all : Parse.statementsWithin (p.cursor.remaining + 1) p = .ok [.select q] r := run
  have inside : p.cursor.current.kind ≠ .eof := by
    intro ended
    cases (Parse.statementsWithin_of_ended ended).symm.trans all
  have other := unended p.cursor.current (by simp [Cursor.upcoming])
  cases first : Parse.statement p with
  | error e p' =>
    rw [Parse.statementsWithin_of_start inside other, Parse.bind_of_error first] at all
    cases all
  | ok statement p' =>
    have none : p'.cursor.current.kind ≠ .symbol semicolon := by
      have here : p'.cursor.current ∈ p'.cursor.upcoming := List.mem_cons_self
      rw [(Parse.planned_statement.onward first).upcoming] at here
      exact unended _ (List.mem_of_mem_drop here)
    by_cases done : p'.cursor.EndsStatement
    · rw [Parse.statementsWithin_of_statement inside other first done, map_eq_pure_bind] at all
      obtain ⟨others, p'', -, last⟩ := Parse.exists_of_bind all
      cases last
      have read : (Grammar.upTo p.cursor.remaining).statementRule p = .ok (.select q) p' := first
      obtain ⟨read, starts⟩ := Grammar.queryRule_of_statementRule read
      exact ⟨p', read, done.resolve_right none, starts⟩
    · obtain ⟨e, refused⟩ := Parse.statementsWithin_of_open inside other first done
      cases refused.symm.trans all

/-! ### Queries in front of what closes them -/

/-- Tokens that are the same but for their places, where the second vector goes on with `rest`. -/
def Likeness.inside (rest : List Token) : Likeness := { elsewhere with beyond := rest }

/-- Tokens go together with those that are the same but for their places, if what is behind both does. -/
theorem Likeness.tokens_inside {rest ts us vs ws : List Token} (others : ∀ t ∈ ts, t.kind ≠ .eof)
    (same : us.map Token.spelled = ts.map Token.spelled) (h : (inside rest).Tokens vs ws) :
    (inside rest).Tokens (ts ++ vs) (us ++ ws) := by
  induction ts generalizing us with
  | nil =>
    obtain rfl : us = [] := by simpa using same
    exact h
  | cons t ts ih =>
    rw [List.forall_mem_cons] at others
    cases us with
    | nil => cases same
    | cons u us =>
      obtain ⟨first, more⟩ := List.cons.inj same
      exact .next others.1 first (ih others.2 more)

/-- Whether tokens are a query that is read within the limit wherever they stand in front of a closing
parenthesis or at the end of a text, and that starts as they tell. -/
structure IsQuery (limit : ℕ) (s : List Spelled) (q : Query) : Prop where
  starts : (kindAt s 0).startsQuery = true ∨ kindAt s 0 = .symbol leftParen
  bare : q.startsBare = true → (kindAt s 0).startsQuery = true
  opens : q.opensBare = true → kindAt s 0 = .symbol leftParen ∧ (kindAt s 1).startsQuery = true
  reads : ∀ back, Printable back →
    (tokensOf back = [] ∨ ∃ r, tokensOf back = (Terminal.symbol rightParen).spelled :: r) →
      ∃ n : ℕ, n ≤ limit ∧ Parse.query.Reads n (s ++ tokensOf back) q (tokensOf back)

/-- A cursor that goes with one at the end is at the end as well, or in front of what the second vector goes
on with. -/
theorem Likeness.Beside.beyond {rest : List Token} {c d : Cursor} (h : (inside rest).Beside c d)
    (ended : c.current.kind = .eof) : (rest = [] ∧ d.ahead = []) ∨ d.upcoming = rest := by
  obtain ⟨passed, current, ahead⟩ := c
  obtain ⟨passed', current', ahead'⟩ := d
  unfold Likeness.Beside Cursor.upcoming at h
  cases h with
  | mark _ _ closed => exact .inl ⟨closed, rfl⟩
  | beyond _ _ more => exact .inr more.symm
  | next inside => exact absurd ended inside

/-- The end of a text goes with that of another one, and with a closing parenthesis behind which the second
vector goes on. -/
theorem Likeness.exists_tokens_closing {ws : List Token} {w : List Spelled} (place : Position)
    (behind : ws.map Token.spelled = w ++ [.endMark])
    (closed : w = [] ∨ ∃ r, w = (Terminal.symbol rightParen).spelled :: r) :
    ∃ rest, (rest = [] → w = []) ∧ (rest ≠ [] → rest = ws) ∧
      (inside rest).Tokens [.endMark place] ws := by
  rcases closed with rfl | ⟨r, rfl⟩
  · obtain ⟨mark, rfl, hm⟩ := List.map_eq_singleton_iff.1 behind
    exact ⟨[], fun _ => rfl, absurd rfl, .mark rfl hm rfl⟩
  · obtain ⟨t, ts, rfl, ht, -⟩ := List.map_eq_cons_iff.1 behind
    exact ⟨t :: ts, nofun, fun _ => rfl, .beyond rfl (.inr (congrArg Spelled.kind ht)) rfl⟩

/-- A query that was read up to the end is read in front of what closes it. -/
theorem exists_reads_query {text : String} {ts : List Token} {place : Position} {limit : ℕ} {q : Query}
    {p' : Parser} (lexed : tokenize text = .ok (ts ++ [.endMark place]))
    (run : Parse.query (.ofTokens (ts ++ [.endMark place]) limit) = .ok q p')
    (ended : p'.cursor.current.kind = .eof) {back : List Piece} (printable : Printable back)
    (closed : tokensOf back = [] ∨ ∃ r, tokensOf back = (Terminal.symbol rightParen).spelled :: r) :
    ∃ n : ℕ, n ≤ limit ∧
      Parse.query.Reads n (ts.map Token.spelled ++ tokensOf back) q (tokensOf back) := by
  have shows := shows_of_tokenize lexed limit
  have others : ∀ t ∈ ts, t.kind ≠ .eof := fun t ht => shows.2 t.spelled (List.mem_map_of_mem ht)
  -- The query on a line of its own, and what closes it behind it.
  have nothing : Printable [] := ⟨by simp, .nil⟩
  obtain ⟨us, lexed', spelled⟩ := tokenize_between lexed nothing (by simp) printable
  rw [tokensOf_nil, List.nil_append] at spelled
  have shows' := shows_of_spelled lexed' spelled limit
  rw [List.append_assoc] at spelled
  obtain ⟨vs, ws, rfl, same, behind⟩ := List.map_eq_append_iff.1 spelled
  obtain ⟨rest, goes, last⟩ := Likeness.exists_tokens_closing place behind closed
  have beside : (Likeness.inside rest).Beside (Parser.ofTokens (ts ++ [.endMark place]) limit).cursor
      (Parser.ofTokens (vs ++ ws) limit).cursor := by
    unfold Likeness.Beside
    rw [upcoming_ofTokens lexed, upcoming_ofTokens lexed']
    exact Likeness.tokens_inside others same last.2
  have alike : (Likeness.inside rest).Alike Parse.query Parse.query :=
    Likeness.alike_rule fun _ _ grammars => grammars.query
  obtain ⟨p, host, beside'⟩ := alike.ok beside run
  obtain ⟨n, r, room, hr, reads⟩ := Parse.reads_of_ok (Parse.sound_query _)
    (Likeness.alike_rule fun _ _ grammars => grammars.query) (ready_ofTokens lexed' limit) shows' host
  suffices hr' : r = tokensOf back by
    subst hr'
    exact ⟨n, room, reads⟩
  rcases beside'.beyond ended with ⟨none, ended'⟩ | further
  · rw [goes none, ← List.length_eq_zero_iff, ← hr.length, ended', List.length_nil]
  · have upcoming := hr.1
    rw [further, last.1 (by rintro rfl; exact Cursor.upcoming_ne_nil _ further), behind] at upcoming
    exact (List.append_inj' upcoming rfl).1.symm

/-- A document of a single query and without a semicolon is a query to stand inside others. -/
theorem isQuery_of_parseDocument {text : String} {ts : List Token} {place : Position} {limit : ℕ}
    {q : Query} (lexed : tokenize text = .ok (ts ++ [.endMark place]))
    (unended : ∀ t ∈ ts, t.kind ≠ .symbol semicolon)
    (h : parseDocument text limit = .ok [.select q]) : IsQuery limit (ts.map Token.spelled) q := by
  rw [parseDocument, Parse.ofText, lexed] at h
  obtain ⟨r, all⟩ := Parse.exists_of_outcome h
  have shows := shows_of_tokenize lexed limit
  have ready := ready_ofTokens lexed limit
  have none : ∀ t ∈ (Parser.ofTokens (ts ++ [.endMark place]) limit).cursor.upcoming,
      t.kind ≠ .symbol semicolon := by
    rw [upcoming_ofTokens lexed, List.forall_mem_append]
    exact ⟨unended, by simp [Token.endMark]⟩
  obtain ⟨p', run, ended, starts⟩ := query_of_statements none all
  let c := (Parser.ofTokens (ts ++ [.endMark place]) limit).cursor
  have course : Parse.query.GivesAt (¬ CommaLimit (ts ++ [.endMark place])) c fun _ _ q _ => q.StartsAt c :=
    .remaining (Grammar.tellsStart_upTo _ _)
  obtain ⟨-, -, told⟩ := course.of_ok ready rfl run
  rw [shows.kind] at starts
  exact {
    starts
    bare := fun h => shows.kind ▸ told.bare h
    opens := fun h => shows.kind ▸ shows.peekAt 1 ▸ told.opens h
    reads := fun _ printable closed => exists_reads_query lexed run ended printable closed }

end CanonicalSql
