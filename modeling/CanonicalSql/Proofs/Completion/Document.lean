import Mathlib
import CanonicalSql.Proofs.Completion.Whole
import CanonicalSql.Proofs.Course.Document

/-! Where a document is refused, the tokens in front of the wrong one are the start of another document.  The
statements before the last one are the same in it, the last one is completed, and semicolons end it. -/

namespace CanonicalSql

open Keyword Word CanonicalSql.Symbol

namespace Completion

open Parse

/-- The statements from behind the semicolons in front of them. -/
def statementsBehind (count : ℕ) : Parse (List Statement) := do
  if ← atEnd then return []
  else
    let first ← statement
    unless (← accept Symbol.semicolon) || (← atEnd) do fail .statementEnd
    let others ← statementsWithin count
    return first :: others

variable {p : Parser} {s r u v w : List Spelled} {t : Spelled} {count : ℕ}

/-- A semicolon in front of the statements is passed over. -/
theorem statementsWithin_semicolon (ht : t.kind = .symbol semicolon) (hp : p.cursor.Shows (t :: s)) :
    statementsWithin (count + 1) p = statementsWithin (count + 1) { p with cursor := p.cursor.advance } := by
  have here : (Terminal.symbol semicolon).admits p.cursor.current.kind = true := by
    rw [hp.kind, kindAt_cons_zero, ht]
    rfl
  have rounds : p.cursor.remaining = p.cursor.advance.remaining + 1 := by
    rw [Cursor.remaining, Cursor.remaining, hp.length, hp.advance.length, List.length_cons]
  have skip : skipSemicolons p.cursor.remaining p =
      skipSemicolons p.cursor.advance.remaining { p with cursor := p.cursor.advance } := by
    rw [rounds, skipSemicolons, Parse.bind_of_ok (accept_of_admits here), if_pos rfl]
  change (skipSemicolons p.cursor.remaining >>= fun _ => statementsBehind count) p =
    (skipSemicolons p.cursor.advance.remaining >>= fun _ => statementsBehind count)
      { p with cursor := p.cursor.advance }
  change EStateM.bind _ _ p = EStateM.bind _ _ _
  rw [EStateM.bind, EStateM.bind, skip]

theorem statementsWithin_other (other : (Terminal.symbol semicolon).admits (kindAt s 0) = false)
    (hp : p.cursor.Shows s) : statementsWithin (count + 1) p = statementsBehind count p := by
  have skip : skipSemicolons p.cursor.remaining p = .ok () p := by
    cases p.cursor.remaining with
    | zero => rfl
    | succ n =>
      rw [skipSemicolons, Parse.bind_of_ok (accept_of_not_admits (hp.kind ▸ other)), if_neg (by simp)]
      rfl
  exact Parse.bind_of_ok skip

theorem statementsBehind_nil (hp : p.cursor.Shows []) : statementsBehind count p = .ok [] p := by
  have ended : atEnd p = .ok true p := congrArg (EStateM.Result.ok · p) hp.atEnd
  rw [statementsBehind, Parse.bind_of_ok ended]
  rfl

theorem statementsWithin_nil (hp : p.cursor.Shows []) : statementsWithin count p = .ok [] p := by
  cases count with
  | zero => rfl
  | succ count => rw [statementsWithin_other rfl hp, statementsBehind_nil hp]

/-! ### Documents that are complete -/

/-- Whether the tokens are a document if enough semicolons stand behind them. -/
def Completes (w : List Spelled) : Prop :=
  ∃ bound, ∀ semicolons ≥ bound, ∀ count ≥ bound, ∀ p : Parser,
    p.cursor.Shows (w ++ List.replicate semicolons (Terminal.symbol semicolon).spelled) → bound ≤ p.room →
      ∃ statements q, statementsWithin count p = .ok statements q

namespace Completes

theorem nil : Completes [] := by
  refine ⟨0, fun semicolons _ count _ p hp room => ?_⟩
  induction semicolons generalizing p with
  | zero => exact ⟨_, _, statementsWithin_nil hp⟩
  | succ semicolons ih =>
    cases count with
    | zero => exact ⟨_, _, rfl⟩
    | succ count =>
      obtain ⟨statements, q, run⟩ := ih (Nat.zero_le _) { p with cursor := p.cursor.advance } hp.advance
        (Nat.zero_le _)
      exact ⟨statements, q, (statementsWithin_semicolon rfl hp).trans run⟩

theorem semicolon (hw : Completes w) : Completes ((Terminal.symbol semicolon).spelled :: w) := by
  obtain ⟨bound, complete⟩ := hw
  refine ⟨bound + 1, fun semicolons hs count hc p hp room => ?_⟩
  obtain ⟨count, rfl⟩ : ∃ n, count = n + 1 := ⟨count - 1, by omega⟩
  obtain ⟨statements, q, run⟩ := complete semicolons (by omega) (count + 1) (by omega)
    { p with cursor := p.cursor.advance } hp.advance (by exact Nat.le_of_succ_le room)
  exact ⟨statements, q, (statementsWithin_semicolon rfl hp).trans run⟩

/-- A semicolon behind the tokens need not be written. -/
theorem of_semicolon (hw : Completes (w ++ [(Terminal.symbol Symbol.semicolon).spelled])) : Completes w := by
  obtain ⟨bound, complete⟩ := hw
  refine ⟨bound + 1, fun semicolons hs count hc p hp room => ?_⟩
  obtain ⟨semicolons, rfl⟩ : ∃ n, semicolons = n + 1 := ⟨semicolons - 1, by omega⟩
  refine complete semicolons (by omega) count (by omega) p ?_ (by omega)
  rwa [List.append_assoc, List.singleton_append, ← List.replicate_succ]

/-- A statement in front of a document. -/
theorem statement {depth : ℕ} {a : Statement}
    (leads : (upTo depth).Leads (fun g _ => g.statement) (Fits Semicolon) u a) (some : u ≠ [])
    (other : (Terminal.symbol Symbol.semicolon).admits (kindAt u 0) = false) (hw : Completes w) :
    Completes (u ++ (Terminal.symbol Symbol.semicolon).spelled :: w) := by
  obtain ⟨bound, passes⟩ := leads
  obtain ⟨bound', complete⟩ := hw
  obtain ⟨first, u, rfl⟩ := List.exists_cons_of_ne_nil some
  refine ⟨max bound bound' + 1, fun semicolons hs count hc p hp room => ?_⟩
  obtain ⟨count, rfl⟩ : ∃ n, count = n + 1 := ⟨count - 1, by omega⟩
  rw [List.append_assoc] at hp
  have follows : Fits Semicolon ((Terminal.symbol Symbol.semicolon).spelled :: w ++
      List.replicate semicolons (Terminal.symbol Symbol.semicolon).spelled) := ⟨.first _ _ _, .inl rfl⟩
  have long : bound ≤ p.cursor.remaining + 1 := by
    rw [Cursor.remaining, hp.length]
    simp only [List.length_append, List.length_cons, List.length_replicate]
    omega
  obtain ⟨c, hc', run⟩ := passes _ follows (p.cursor.remaining + 1) long bound le_rfl p hp (by omega)
    (by simp only [List.length_append, List.length_cons, List.length_replicate]; omega)
  obtain ⟨others, q, rest⟩ := complete semicolons (by omega) count (by omega)
    { p with cursor := c.advance } hc'.advance (by exact (by omega : bound' ≤ p.room))
  refine ⟨a :: others, q, ?_⟩
  have start : (Terminal.symbol Symbol.semicolon).admits (kindAt (first :: u ++ ((Terminal.symbol
      Symbol.semicolon).spelled :: w ++ List.replicate semicolons (Terminal.symbol Symbol.semicolon).spelled)) 0) =
        false := other
  have unended : atEnd p = .ok false p := congrArg (EStateM.Result.ok · p) hp.atEnd
  have ended : accept Symbol.semicolon { p with cursor := c } = .ok true { p with cursor := c.advance } :=
    accept_of_admits (by rw [hc'.kind]; rfl)
  rw [statementsWithin_other start hp, statementsBehind, Parse.bind_of_ok unended, if_neg (by simp)]
  have first : Parse.statement p = .ok a { p with cursor := c } := run
  rw [Parse.bind_of_ok first, Parse.bind_of_ok ended]
  exact Parse.bind_of_ok rest

end Completes

/-! ### Documents that are refused -/

/-- Whether a document can start with tokens of the kinds of `u`. -/
def Starting (u : List Spelled) : Prop :=
  ∃ v : List Spelled, u.map Spelled.kind <+: v.map Spelled.kind ∧ (∀ t ∈ v, t.Stands) ∧ Completes v

namespace Starting

theorem nil : Starting [] := ⟨[], List.prefix_rfl, by simp, .nil⟩

/-- A semicolon in front of the start of a document. -/
theorem semicolon (hu : Starting u) (ht : t.kind = .symbol Symbol.semicolon) : Starting (t :: u) := by
  obtain ⟨v, kinds, standing, complete⟩ := hu
  refine ⟨_ :: v, ?_, List.forall_mem_cons.2 ⟨Terminal.stands _, standing⟩, complete.semicolon⟩
  rw [List.map_cons, List.map_cons, ht]
  exact (List.prefix_cons_inj _).2 kinds

variable {depth : ℕ} {a : Statement}

/-- A statement in front of the start of a document. -/
theorem statement (leads : (upTo depth).Leads (fun g _ => g.statement) (Fits Semicolon) u a) (some : u ≠ [])
    (other : (Terminal.symbol Symbol.semicolon).admits (kindAt u 0) = false) (stands : ∀ t ∈ u, t.Stands)
    (ht : t.kind = .symbol Symbol.semicolon) (hw : Starting w) : Starting (u ++ t :: w) := by
  obtain ⟨v, kinds, standing, complete⟩ := hw
  refine ⟨_, ?_, ?_, complete.statement leads some other⟩
  · rw [List.map_append, List.map_append, List.map_cons, List.map_cons, ht]
    exact (List.prefix_append_right_inj _).2 ((List.prefix_cons_inj _).2 kinds)
  · exact List.forall_mem_append.2 ⟨stands, List.forall_mem_cons.2 ⟨Terminal.stands _, standing⟩⟩

/-- The start of a statement. -/
theorem of_finishes (h : (upTo depth).Finishes (fun g _ => g.statement) Semicolon u) (some : u ≠ [])
    (other : (Terminal.symbol Symbol.semicolon).admits (kindAt u 0) = false) (stands : ∀ t ∈ u, t.Stands) :
    Starting u := by
  obtain ⟨v, a, filling, leads⟩ := h
  obtain ⟨first, u, rfl⟩ := List.exists_cons_of_ne_nil some
  refine ⟨first :: u ++ v, ?_, List.forall_mem_append.2 ⟨stands, filling.stands⟩,
    (Completes.statement leads (by simp) other .nil).of_semicolon⟩
  rw [List.map_append]
  exact List.prefix_append _ _

end Starting

/-- What becomes of a statement in front of the tokens. -/
theorem outcome_statement (hp : p.cursor.Shows s) :
    (upTo (s.length + 1)).Outcome Nothing Semicolon False (fun g _ => g.statement) p (Parse.statement p) := by
  have outcome := (inside_upTo (s.length + 1)).statement.course s.length s le_rfl p hp
  rw [← hp.length] at outcome ⊢
  exact outcome

/-- Whether the parser can move to the token `found` over tokens that can start a document. -/
def Approaches (p : Parser) (found : Token) : Prop :=
  ∃ u c, p.cursor.Moves u c ∧ c.current = found ∧ Starting u

/-- The tokens in front of the one that the statements are refused for, where they start with one, can start a
document, if it is so behind the first statement. -/
theorem approaches_of_behind {first : Spelled} {found : Token} {expected : Expectation} {q : Parser}
    (stands : ∀ t ∈ first :: s, t.Stands) (hp : p.cursor.Shows (first :: s))
    (semi : first.kind ≠ .symbol Symbol.semicolon) (run : statementsBehind count p = .error (.unexpected found expected) q)
    (others : ∀ (r : List Spelled) (p : Parser), r.length < s.length → (∀ t ∈ r, t.Stands) → p.cursor.Shows r →
      statementsWithin count p = .error (.unexpected found expected) q → Approaches p found) :
    Approaches p found := by
  have unended : atEnd p = .ok false p := congrArg (EStateM.Result.ok · p) hp.atEnd
  rw [statementsBehind, Parse.bind_of_ok unended, if_neg (by simp)] at run
  have start : ∀ u r, first :: s = u ++ r → u ≠ [] →
      (Terminal.symbol Symbol.semicolon).admits (kindAt u 0) = false ∧ ∀ t ∈ u, t.Stands := by
    rintro (_ | ⟨head, u⟩) r whole some
    · exact absurd rfl some
    · obtain ⟨rfl, rfl⟩ := List.cons.inj whole
      exact ⟨Bool.eq_false_of_not_eq_true (mt Terminal.admits_symbol.1 semi),
        fun t ht => stands t (List.mem_append_left r ht)⟩
  have outcome := outcome_statement hp
  revert outcome
  generalize ran : Parse.statement p = result
  rintro (⟨moves, shows, leads, idle⟩ | ⟨moves, shows, here, finishes⟩ | _)
  · rename_i a u r c
    rw [Parse.bind_of_ok ran] at run
    have whole := moves.shows hp shows
    have some : u ≠ [] := fun none => idle none [_] ⟨.first _ _ [], .inl rfl⟩
    obtain ⟨other, standing⟩ := start u r whole some
    have finished : (upTo (List.length (first :: s) + 1)).Leads (fun g _ => g.statement) (Fits Semicolon) u a :=
      leads.mono fun _ => .inl
    cases r with
    | nil =>
      have unseparated : accept Symbol.semicolon { p with cursor := c } = .ok false { p with cursor := c } :=
        accept_of_not_admits (by rw [shows.kind]; rfl)
      have ended : atEnd { p with cursor := c } = .ok true { p with cursor := c } :=
        congrArg (EStateM.Result.ok · _) shows.atEnd
      rw [Parse.bind_of_ok unseparated, Parse.bind_of_ok ended] at run
      cases (Parse.bind_of_ok (f := fun others => pure (a :: others))
        (statementsWithin_nil shows)).symm.trans run
    | cons next r =>
      have shorter : r.length < s.length := by
        have lengths := congrArg List.length whole
        have taken := List.length_pos_iff.2 some
        simp only [List.length_cons, List.length_append] at lengths
        omega
      by_cases separated : next.kind = .symbol Symbol.semicolon
      · have more : accept Symbol.semicolon { p with cursor := c } = .ok true { p with cursor := c.advance } :=
          accept_of_admits (by rw [shows.kind]; exact Terminal.admits_symbol.2 separated)
        rw [Parse.bind_of_ok more] at run
        cases rest : statementsWithin count { p with cursor := c.advance } with
        | ok others q' => cases (Parse.bind_of_ok (f := fun others => pure (a :: others)) rest).symm.trans run
        | error e q' =>
          cases (Parse.bind_of_error (f := fun others => pure (a :: others)) rest).symm.trans run
          obtain ⟨u', c', moves', here, begun⟩ :=
            others r _ shorter (fun t ht => stands t (by simp [whole, ht])) shows.advance rest
          exact ⟨u ++ next :: u', c', moves.trans ((Cursor.Moves.advance shows).trans moves'), here,
            .statement finished some other standing separated begun⟩
      · have unseparated : accept Symbol.semicolon { p with cursor := c } = .ok false { p with cursor := c } :=
          accept_of_not_admits (by
            rw [shows.kind]
            exact Bool.eq_false_of_not_eq_true (mt Terminal.admits_symbol.1 separated))
        have more : atEnd { p with cursor := c } = .ok false { p with cursor := c } :=
          congrArg (EStateM.Result.ok · _) shows.atEnd
        rw [Parse.bind_of_ok unseparated, Parse.bind_of_ok more] at run
        cases run
        have whole : (upTo (List.length (first :: s) + 1)).Finishes (fun g _ => g.statement) Semicolon u :=
          ⟨[], a, .nil, (List.append_nil u).symm ▸ finished⟩
        exact ⟨u, c, moves, rfl, .of_finishes whole some other standing⟩
  · rename_i refused wanted q' u r c
    rw [Parse.bind_of_error ran] at run
    cases run
    refine ⟨u, c, moves, here, ?_⟩
    by_cases none : u = []
    · exact none ▸ .nil
    · obtain ⟨other, standing⟩ := start u r (moves.shows hp shows) none
      exact .of_finishes (finishes none) none other standing
  · rw [Parse.bind_of_error ran] at run
    cases run

/-- The tokens in front of the one that a document is refused for can start a document. -/
theorem approaches_of_refused {found : Token} {expected : Expectation} {q : Parser}
    (stands : ∀ t ∈ s, t.Stands) (hp : p.cursor.Shows s) (enough : s.length < count)
    (run : statementsWithin count p = .error (.unexpected found expected) q) : Approaches p found := by
  -- Each semicolon and each statement leaves fewer tokens.
  induction size : s.length using Nat.strong_induction_on generalizing s p count with
  | _ n ih =>
  obtain ⟨count, rfl⟩ : ∃ k, count = k + 1 := ⟨count - 1, by omega⟩
  cases s with
  | nil =>
    rw [statementsWithin_nil hp] at run
    cases run
  | cons first s =>
    rw [List.length_cons] at size enough
    by_cases semi : first.kind = .symbol Symbol.semicolon
    · rw [statementsWithin_semicolon semi hp] at run
      obtain ⟨u, c, moves, here, start⟩ := ih s.length (by omega) (List.forall_mem_cons.1 stands).2 hp.advance
        (by omega) run rfl
      exact ⟨first :: u, c, (Cursor.Moves.advance hp).trans moves, here, start.semicolon semi⟩
    · have other := Bool.eq_false_of_not_eq_true (mt Terminal.admits_symbol.1 semi)
      rw [statementsWithin_other (s := first :: s) other hp] at run
      exact approaches_of_behind stands hp semi run fun r p shorter standing hp rest =>
        ih r.length (by omega) standing hp (by omega) rest rfl

/-! ### Texts -/

/-- The tokens of a text stand for themselves. -/
theorem stands_of_tokenize {text : String} {ts : List Token} {mark : Token}
    (h : tokenize text = .ok (ts ++ [mark])) : ∀ t ∈ ts.map Token.spelled, t.Stands := by
  obtain ⟨us, lexer, passes, -, all⟩ := Lexer.passes_of_tokens h
  obtain ⟨rfl, -⟩ := List.append_inj' all rfl
  simpa using passes.stands

/-- A blank can stand between any texts. -/
theorem exists_spaced (texts : List String) : ∃ cs, Spaced texts cs := by
  induction texts with
  | nil => exact ⟨[], .nil⟩
  | cons text texts ih =>
    obtain ⟨cs, spaced⟩ := ih
    exact ⟨_, .cons [' '] (.blank rfl .nil) (by simp [isBlank]) (by simp) spaced⟩

/-- Tokens that can start a document start the tokens of a text that is one. -/
theorem Starting.exists_document (h : Starting u) :
    ∃ text tokens, tokenize text = .ok tokens ∧ u.map Spelled.kind <+: tokens.map Token.kind ∧
      ∃ enough, ∀ limit ≥ enough, ∃ statements, parseDocument text limit = .ok statements := by
  obtain ⟨v, kinds, standing, bound, complete⟩ := h
  have all : ∀ t ∈ v ++ List.replicate bound (Terminal.symbol Symbol.semicolon).spelled, t.Stands :=
    List.forall_mem_append.2 ⟨standing, fun t ht => List.eq_of_mem_replicate ht ▸ Terminal.stands _⟩
  obtain ⟨cs, spaced⟩ := exists_spaced
    ((v ++ List.replicate bound (Terminal.symbol Symbol.semicolon).spelled).map Spelled.text)
  obtain ⟨ts, place, lexed, spelled⟩ := tokenize_of_spaced all .nil spaced
  refine ⟨_, _, lexed, ?_, bound, fun limit enough => ?_⟩
  · have front := congrArg (List.map Spelled.kind) spelled
    rw [List.map_map, List.map_append] at front
    have kept : ts.map Token.kind <+: (ts ++ [Token.endMark place]).map Token.kind := by
      rw [List.map_append]
      exact List.prefix_append _ _
    exact (kinds.trans (front ▸ List.prefix_append _ _)).trans kept
  · have shows := shows_of_tokenize lexed limit
    rw [spelled] at shows
    have long : bound ≤ (Parser.ofTokens (ts ++ [Token.endMark place]) limit).cursor.remaining + 1 := by
      rw [Cursor.remaining, shows.length, List.length_append, List.length_replicate]
      omega
    obtain ⟨statements, q, run⟩ := complete bound le_rfl _ long _ shows enough
    refine ⟨statements, ?_⟩
    have ran : Parse.statements (Parser.ofTokens (ts ++ [Token.endMark place]) limit) = .ok statements q := run
    simp only [parseDocument, Parse.ofText, lexed, Parse.outcome, ran]

end Completion

/-- A document that is refused is refused for one of its tokens, and the kinds of the tokens in front of it are
the start of a document that is accepted. -/
theorem unexpected_behind_viable_prefix {text : String} {limit : ℕ} {found : Token} {expected : Expectation}
    (h : parseDocument text limit = .error (.unexpected found expected)) :
    ∃ passed rest, tokenize text = .ok (passed ++ found :: rest) ∧
      ∃ text' tokens, tokenize text' = .ok tokens ∧ passed.map Token.kind <+: tokens.map Token.kind ∧
        ∃ enough, ∀ limit' ≥ enough, ∃ statements, parseDocument text' limit' = .ok statements := by
  cases lexed : tokenize text with
  | error e =>
    simp only [parseDocument, Parse.ofText, lexed] at h
    cases h
  | ok tokens =>
    obtain ⟨ts, mark, rfl, -⟩ := ended_of_tokenize lexed
    have shows := shows_of_tokenize lexed limit
    obtain ⟨q, run⟩ : ∃ q, Parse.statements (Parser.ofTokens (ts ++ [mark]) limit) =
        .error (.unexpected found expected) q := by
      simp only [parseDocument, Parse.ofText, lexed, Parse.outcome] at h
      split at h
      · cases h
      · next e q run =>
        cases h
        exact ⟨q, run⟩
    obtain ⟨u, c, ⟨passed, all, rfl⟩, rfl, start⟩ := Completion.approaches_of_refused
      (Completion.stands_of_tokenize lexed) shows (by rw [Cursor.remaining, shows.length]; omega) run
    obtain ⟨text', tokens, lexed', kinds, accepted⟩ := start.exists_document
    rw [upcoming_ofTokens lexed] at all
    rw [List.map_map] at kinds
    exact ⟨passed, c.ahead, congrArg Except.ok all, text', tokens, lexed', kinds, accepted⟩

/-- An interval without its unit, in the middle of a condition that a `CASE` asks for. -/
theorem unexpected_behind_open_case :
    parseDocument "SELECT CASE WHEN x IN (INTERVAL 1 FROM t" 9 =
      .error (.unexpected ⟨.keyword FROM, "FROM", ⟨1, 35, 34⟩⟩ .intervalUnit) ∧
    ∃ passed rest, tokenize "SELECT CASE WHEN x IN (INTERVAL 1 FROM t" =
        .ok (passed ++ ⟨.keyword FROM, "FROM", ⟨1, 35, 34⟩⟩ :: rest) ∧
      ∃ text tokens, tokenize text = .ok tokens ∧ passed.map Token.kind <+: tokens.map Token.kind ∧
        ∃ enough, ∀ limit ≥ enough, ∃ statements, parseDocument text limit = .ok statements := by
  have refused : parseDocument "SELECT CASE WHEN x IN (INTERVAL 1 FROM t" 9 =
      .error (.unexpected ⟨.keyword FROM, "FROM", ⟨1, 35, 34⟩⟩ .intervalUnit) := by cbv
  exact ⟨refused, unexpected_behind_viable_prefix refused⟩

end CanonicalSql
