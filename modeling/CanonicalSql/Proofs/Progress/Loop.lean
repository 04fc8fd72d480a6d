import CanonicalSql.Proofs.Alike.Document
import CanonicalSql.Proofs.Progress.Whole

/-! The loops of the grammar.  Each is made of rounds, and a round starts the next one only behind the token
it starts on itself.  So the bound that a loop is given is never what ends it: any bound that is not below the
number of tokens ahead gives the same run. -/

namespace CanonicalSql

open Keyword Word CanonicalSql.Symbol

namespace Parse

variable {α β : Type} {n : ℕ} {x y : Parse α} {f g : α → Parse β} {Q : α → Prop} {R : β → Prop}
  {t : Terminal}

/-! ### Rounds -/

namespace Agree

/-- Behind a result for which the first step has passed over a token, the steps have to agree only nearer to
the end. -/
theorem advance (hx : Planned x) (moves : Advances x Q) (passed : ∀ a, Q a → Agree n (f a) (g a))
    (other : ∀ a, ¬ Q a → Agree (n + 1) (f a) (g a)) : Agree (n + 1) (x >>= f) (x >>= g) := by
  intro p closed near
  cases run : x p with
  | error e q => rw [bind_of_error run, bind_of_error run]
  | ok a q =>
    have onward := hx.onward run
    rw [bind_of_ok run, bind_of_ok run]
    by_cases asked : Q a
    · have less := moves p a q closed run asked
      exact passed a asked q (onward.closed closed) (by omega)
    · exact other a asked q (onward.closed closed) (onward.remaining.trans_lt near)

/-- `advance` for a step that passes over a token just where it finds something. -/
theorem advance_some {x : Parse (Option α)} {f g : Option α → Parse β} (hx : Planned x)
    (moves : Advances x fun found => found ≠ none) (passed : ∀ a, Agree n (f (some a)) (g (some a)))
    (other : Agree (n + 1) (f none) (g none)) : Agree (n + 1) (x >>= f) (x >>= g) := by
  apply advance hx moves
  · intro found some
    obtain ⟨a, rfl⟩ := Option.ne_none_iff_exists'.1 some
    exact passed a
  · intro found none
    obtain rfl := not_ne_iff.1 none
    exact other

end Agree

end Parse

section Loops

variable {σ M : Type} {agree : ℕ → M → M → Prop} {round : (σ → M) → σ → M} {within : ℕ → σ → M}

/-- Ways to compare what is run where fewer than a number of tokens are behind the current one. -/
class Nearness (agree : ℕ → M → M → Prop) : Prop where
  nowhere : ∀ x y, agree 0 x y
  symm : ∀ {n x y}, agree n x y → agree n y x
  trans : ∀ {n x y z}, agree n x y → agree n y z → agree n x z

instance {α : Type} : Nearness (Parse.Agree : ℕ → Parse α → Parse α → Prop) :=
  ⟨fun _ _ _ _ near => absurd near (Nat.not_lt_zero _), .symm, .trans⟩

instance {α : Type} : Nearness (Chain.Agree : ℕ → Chain α → Chain α → Prop) :=
  ⟨fun _ _ _ _ near => absurd near (Nat.not_lt_zero _), .symm, .trans⟩

/-- Rounds of a loop, from a state of its own on: what it does in one round, and what within `count`. -/
structure Rounds (agree : ℕ → M → M → Prop) (round : (σ → M) → σ → M) (within : ℕ → σ → M) : Prop where
  /-- The loop is made of rounds. -/
  rounds : ∀ count s, within (count + 1) s = round (within count) s
  /-- Each round moves the cursor forward: what it goes on with plays a part only where fewer tokens are
  ahead than at its start. -/
  forward : ∀ {n rest rest'}, (∀ s, agree n (rest s) (rest' s)) →
    ∀ s, agree (n + 1) (round rest s) (round rest' s)
  /-- At the last token there is nothing to do. -/
  last : ∀ count s, agree 1 (within 0 s) (within count s)

/-- Whether the bound of a loop does not end it: any two bounds that are not below the number of tokens ahead
give the same run. -/
def Unbounded (agree : ℕ → M → M → Prop) (within : ℕ → σ → M) : Prop :=
  ∀ {n count other}, n ≤ count + 1 → n ≤ other + 1 → ∀ s, agree n (within count s) (within other s)

/-- A loop of rounds that its bound does not end. -/
structure Loop (agree : ℕ → M → M → Prop) (round : (σ → M) → σ → M) (within : ℕ → σ → M) : Prop
    extends Rounds agree round within where
  unbounded : Unbounded agree within

theorem Rounds.loop [Nearness agree] (h : Rounds agree round within) : Loop agree round within := by
  refine ⟨h, fun {n count other} enough enough' s => ?_⟩
  induction n generalizing count other s with
  | zero => exact Nearness.nowhere _ _
  | succ n ih =>
    cases n with
    | zero => exact Nearness.trans (Nearness.symm (h.last count s)) (h.last other s)
    | succ n =>
      obtain ⟨count, rfl⟩ : ∃ m, count = m + 1 := ⟨count - 1, by omega⟩
      obtain ⟨other, rfl⟩ : ∃ m, other = m + 1 := ⟨other - 1, by omega⟩
      rw [h.rounds, h.rounds]
      exact h.forward (fun s => ih (by omega) (by omega) s) s

end Loops

namespace Parse

variable {α β : Type} {n : ℕ} {x y : Parse α} {f g : α → Parse β} {Q : α → Prop} {R : β → Prop}
  {t : Terminal}

/-- Rounds without a state. -/
abbrev PlainRounds (round : Parse α → Parse α) (loop : ℕ → Parse α) : Prop :=
  Rounds Agree (fun rest (_ : Unit) => round (rest ())) fun count _ => loop count

/-- A loop without a state. -/
abbrev PlainLoop (round : Parse α → Parse α) (loop : ℕ → Parse α) : Prop :=
  Loop Agree (fun rest (_ : Unit) => round (rest ())) fun count _ => loop count

/-! ### The loops of the grammar -/

/-- Steps that give the same at the end do so at the last token. -/
theorem Agree.of_idle {a : α} (hx : x.Idle a) (hy : y.Idle a) : Agree 1 x y := by
  intro p closed near
  have ended := closed.ended (Nat.lt_one_iff.1 near)
  rw [hx p (.inl ended), hy p (.inl ended)]

/-- A further item of a list. -/
def commaRound (item : Parse α) (rest : Parse (List α)) : Parse (List α) := do
  if ← Parse.accept Symbol.comma then
    let first ← item
    let others ← rest
    return first :: others
  else return []

theorem rounds_commaItems {item : Parse α} (planned : Planned item) :
    PlainRounds (commaRound item) (commaItems item) where
  rounds _ _ := rfl
  forward same _ := .accept (.bind planned (.refl item) fun _ => .bind_left (same ())) (.refl _)
  last count _ := .of_idle (.commaItems item 0) (.commaItems item count)

/-- A semicolon between statements. -/
def semicolonRound (rest : Parse Unit) : Parse Unit := do
  if ← Parse.accept Symbol.semicolon then rest

theorem rounds_skipSemicolons : PlainRounds semicolonRound skipSemicolons where
  rounds _ _ := rfl
  forward same _ := .accept (same ()) (.refl _)
  last count _ := by
    intro p closed near
    have ended := closed.ended (Nat.lt_one_iff.1 near)
    rw [skipSemicolons_of_ne (by simp [ended]), skipSemicolons_of_ne (by simp [ended])]

end Parse

namespace Grammar

open Parse

variable {g : Grammar} {n : ℕ}

/-- A further arm of a case distinction. -/
def armRound (g : Grammar) (rest : Parse (List CaseArm)) : Parse (List CaseArm) := do
  if ← accept WHEN then
    let condition ← g.anyExpr
    expect THEN
    let result ← g.anyExpr
    let others ← rest
    return ⟨condition, result⟩ :: others
  else return []

/-- A further operator behind `left`. -/
def operatorRound (g : Grammar) (level : ℕ) (rest : Expr → Chain Expr) (left : Expr) : Chain Expr := do
  match Continuation.ofKinds? (← Chain.lift peek) (← Chain.lift (peekAt 1)) with
  | none => return left
  | some c =>
    if c.precedence < level then return left
    else
      Chain.addLink
      Chain.lift (skip c.width)
      let left ← Chain.lift (g.continued left c)
      rest left

/-- A further join. -/
def joinRound (g : Grammar) (rest : Parse (List Join)) : Parse (List Join) := do
  match ← g.join with
  | none => return []
  | some join => return join :: (← rest)

/-- A further set operation behind `left`. -/
def setOperationRound (g : Grammar) (level : ℕ) (rest : QueryBody → Chain QueryBody) (left : QueryBody) :
    Chain QueryBody := do
  match setOp? (← Chain.lift peek) with
  | none => return left
  | some op =>
    if op.precedence < level then return left
    else
      Chain.addLink
      Chain.lift (discard advance)
      let quantifier ← Chain.lift setQuantifier
      let right ← Chain.lift (g.body (op.precedence + 1))
      rest (.compound op quantifier left right)

/-- A further row of values. -/
def rowRound (row : Parse (List Expr)) (rest : Parse (List (List Expr))) : Parse (List (List Expr)) := do
  if (← accept comma) || (← sees leftParen) then
    let first ← row
    let others ← rest
    return first :: others
  else return []

/-- A further option of a column. -/
def optionRound (g : Grammar) (rest : Parse (List ColumnOption)) : Parse (List ColumnOption) := do
  match ← g.columnOption with
  | none => return []
  | some option => return option :: (← rest)

/-- Whether the loops of the rules are loops of such rounds. -/
structure Loops (g : Grammar) : Prop where
  arms : PlainLoop g.armRound g.caseArms
  operators : ∀ level, Loop Chain.Agree (g.operatorRound level) (g.operatorChain level)
  joins : PlainLoop g.joinRound g.joins
  setOperations : ∀ level, Loop Chain.Agree (g.setOperationRound level) (g.setOperationChain level)
  rows : PlainLoop (rowRound g.row) (Grammar.rows g.row)
  options : PlainLoop g.optionRound g.columnOptions

/-- At the end no operator follows. -/
theorem operatorChain_of_ended {level count : ℕ} {left : Expr} {s : Linked}
    (h : s.parser.cursor.current.kind = .eof) : g.operatorChain level count left s = .ok left s := by
  cases count with
  | zero => rfl
  | succ count =>
    have run : g.operatorChain level (count + 1) left s =
        (match Continuation.ofKinds? s.parser.cursor.current.kind (s.parser.cursor.peekAt 1).kind with
          | none => pure left
          | some c => _ : Chain Expr) s := rfl
    rw [run, h]
    rfl

/-- At the end no set operation follows. -/
theorem setOperationChain_of_ended {level count : ℕ} {left : QueryBody} {s : Linked}
    (h : s.parser.cursor.current.kind = .eof) : g.setOperationChain level count left s = .ok left s := by
  cases count with
  | zero => rfl
  | succ count =>
    have run : g.setOperationChain level (count + 1) left s =
        (match setOp? s.parser.cursor.current.kind with
          | none => pure left
          | some op => _ : Chain QueryBody) s := rfl
    rw [run, h]
    rfl

namespace Planned

theorem rounds_caseArms (hg : g.Planned) : PlainRounds g.armRound g.caseArms where
  rounds _ _ := rfl
  forward same _ := by
    refine .accept (.bind hg.anyExpr.planned (.refl _) fun _ => ?_) (.refl _)
    refine .bind (.of_together (.expected THEN)) (.refl _) fun _ => ?_
    exact .bind hg.anyExpr.planned (.refl _) fun _ => .bind_left (same ())
  last count _ := .of_idle (.caseArms g 0) (.caseArms g count)

theorem rounds_operators (hg : g.Planned) (level : ℕ) :
    Rounds Chain.Agree (g.operatorRound level) (g.operatorChain level) where
  rounds _ _ := rfl
  forward {n rest rest'} same left := by
    refine .peek fun k => .peekAt fun next => ?_
    cases announced : Continuation.ofKinds? k next with
    | none => exact .refl _
    | some c =>
      obtain ⟨-, inside, -, width⟩ := Continuation.silent_of_ofKinds? announced
      have skipped := Parse.Together.skipped (n := 0) c.width
      dsimp only
      split
      · exact .refl _
      · refine .addLink (.advance skipped.planned (.skip inside (by omega)) fun _ => ?_)
        exact .bind (.lift (hg.continued left c).planned) (.refl _) same
  last count left := by
    intro s closed near
    have ended := closed.ended (Nat.lt_one_iff.1 near)
    rw [operatorChain_of_ended ended, operatorChain_of_ended ended]

theorem rounds_setOperations (hg : g.Planned) (level : ℕ) :
    Rounds Chain.Agree (g.setOperationRound level) (g.setOperationChain level) where
  rounds _ _ := rfl
  forward {n rest rest'} same left := by
    refine .peek fun k => ?_
    cases announced : setOp? k with
    | none => exact .refl _
    | some op =>
      dsimp only
      split
      · exact .refl _
      · refine .addLink (.advance .discarded (.discarded (silent_of_setOp? announced).2) fun _ => ?_)
        refine .bind (.lift (.of_together together_setQuantifier)) (.refl _) fun _ => ?_
        exact .bind (.lift (hg.body _).planned) (.refl _) fun _ => same _
  last count left := by
    intro s closed near
    have ended := closed.ended (Nat.lt_one_iff.1 near)
    rw [setOperationChain_of_ended ended, setOperationChain_of_ended ended]

/-- A join passes over its first word, or over a comma. -/
theorem advances_join (hg : g.Planned) : Advances g.join fun join => join ≠ none := by
  refine .accept (.of_together (.bind hg.relation fun _ => .pure _))
    (.second (.of_together together_joinKind) fun kind => ?_)
  cases kind with
  | none => exact .pure (by simp)
  | some kind =>
    refine .expect (.of_together (.bind hg.relation fun _ => ?_))
    exact .bind (hg.joinConstraint kind) fun _ => .pure _

theorem rounds_joins (hg : g.Planned) : PlainRounds g.joinRound g.joins where
  rounds _ _ := rfl
  forward same _ :=
    .advance_some hg.join.planned hg.advances_join (fun _ => .bind_left (same ())) (.refl _)
  last count _ := .of_idle (.joins g 0) (.joins g count)

/-- An option passes over its first word. -/
theorem advances_columnOption (hg : g.Planned) : Advances g.columnOption fun option => option ≠ none := by
  have word : ∀ (t : Terminal) (option : ColumnOption), Parse.Planned (do
      expect t
      return some option) := fun t option => .of_together (.expect (.pure _))
  have computed : ∀ option : Expr → ColumnOption, Parse.Planned (do return some (option (← g.anyExpr))) :=
    fun option => .of_together (.bind hg.anyExpr fun _ => .pure _)
  have reference : Advances (do return some (ColumnOption.references (← foreignReference)))
      fun option => option ≠ none := by
    refine .first (.expect (.of_together (.bind together_qualifiedName fun _ => ?_))) fun _ => .pure _
    exact .bind together_optionalNameList fun _ => .pure _
  refine .accept (.pure _) (.accept (word _ _) (.accept (computed _) (.accept (computed _) ?_)))
  refine .accept (computed _) (.accept (word _ _) (.accept (.pure _) (.accept (computed _) ?_)))
  refine .accept (.of_together (.bind (together_stringLiteral _) fun _ => .pure _))
    (.second (.look fun c => Terminal.admits REFERENCES c.current.kind) fun _ => ?_)
  exact .ite reference (.pure (by simp))

theorem rounds_columnOptions (hg : g.Planned) : PlainRounds g.optionRound g.columnOptions where
  rounds _ _ := rfl
  forward same _ :=
    .advance_some hg.columnOption.planned hg.advances_columnOption (fun _ => .bind_left (same ())) (.refl _)
  last count _ := .of_idle (.columnOptions g 0) (.columnOptions g count)

/-- A row passes over its parenthesis. -/
theorem advances_row (hg : g.Planned) : Advances g.row fun _ => True :=
  .expect (.of_together (.bind hg.anyExpr.commaList fun _ => .expect (.pure _)))

theorem rounds_rows (hg : g.Planned) : PlainRounds (rowRound g.row) (Grammar.rows g.row) where
  rounds _ _ := rfl
  forward same _ := by
    refine .bind (.of_together (.accepted comma)) (.refl _) fun _ => ?_
    refine .bind (.look fun c => Terminal.admits leftParen c.current.kind) (.refl _) fun _ => ?_
    refine .ite (.advance hg.row.planned hg.advances_row (fun _ _ => ?_) fun _ no => ?_) (.refl _)
    · exact .bind_left (same ())
    · exact absurd trivial no
  last count _ := .of_idle (.rows g.row 0) (.rows g.row count)

theorem loops (hg : g.Planned) : g.Loops where
  arms := hg.rounds_caseArms.loop
  operators level := (hg.rounds_operators level).loop
  joins := hg.rounds_joins.loop
  setOperations level := (hg.rounds_setOperations level).loop
  rows := hg.rounds_rows.loop
  options := hg.rounds_columnOptions.loop

/-! #### Operators as steps inside steps -/

theorem operators (hg : g.Planned) (level count : ℕ) (left : Expr) :
    Parse.Planned (g.operators level count left) := by
  rw [← leftChain_operatorChain]
  exact (hg.operatorChain level count left).planned.leftChain

theorem unbounded_operators (hg : g.Planned) (level : ℕ) : Unbounded Parse.Agree (g.operators level) := by
  intro n count other enough enough' left
  rw [← leftChain_operatorChain, ← leftChain_operatorChain]
  exact ((hg.loops.operators level).unbounded enough enough' left).leftChain

theorem unbounded_setOperations (hg : g.Planned) (level : ℕ) :
    Unbounded Parse.Agree (g.setOperations level) := by
  intro n count other enough enough' left
  rw [← leftChain_setOperationChain, ← leftChain_setOperationChain]
  exact ((hg.loops.setOperations level).unbounded enough enough' left).leftChain

end Planned

/-! ### The whole grammar -/

/-- Whether the rules of two grammars do the same where fewer than `n` tokens are behind the current one. -/
structure Agree (n : ℕ) (g g' : Grammar) : Prop where
  expr : ∀ level, Parse.Agree n (g.expr level) (g'.expr level)
  query : Parse.Agree n g.query g'.query
  body : ∀ level, Parse.Agree n (g.body level) (g'.body level)
  dataType : Parse.Agree n g.dataType g'.dataType
  statement : Parse.Agree n g.statement g'.statement

theorem Together.agree {g' : Grammar} (h : g.Together n g') : g.Agree n g' :=
  ⟨fun level => (h.expr level).agree, h.query.agree, fun level => (h.body level).agree, h.dataType.agree,
    h.statement.agree⟩

theorem Agree.together {g' : Grammar} (hg : g.Planned) (h : g.Agree n g') : g.Together n g' :=
  ⟨fun level => ⟨(hg.expr level).planned, h.expr level⟩, ⟨hg.query.planned, h.query⟩,
    fun level => ⟨(hg.body level).planned, h.body level⟩, ⟨hg.dataType.planned, h.dataType⟩,
    ⟨hg.statement.planned, h.statement⟩⟩

theorem Agree.symm {g' : Grammar} (h : g.Agree n g') : g'.Agree n g :=
  ⟨fun level => (h.expr level).symm, h.query.symm, fun level => (h.body level).symm, h.dataType.symm,
    h.statement.symm⟩

theorem Agree.trans {g' g'' : Grammar} (h : g.Agree n g') (h' : g'.Agree n g'') : g.Agree n g'' :=
  ⟨fun level => (h.expr level).trans (h'.expr level), h.query.trans h'.query,
    fun level => (h.body level).trans (h'.body level), h.dataType.trans h'.dataType,
    h.statement.trans h'.statement⟩

/-- Whether a grammar is a solution of its own rules: each of its rules does what the rule written in terms
of the grammar does, however far that goes. -/
def Solves (g : Grammar) : Prop := ∀ n, g.step.Agree n g

/-- The whole grammar is a solution of its own rules: where a rule refers to others it finds them whole, and
no bound on the constructs inside one another is met. -/
theorem solves_whole : whole.Solves := by
  intro n
  have deeper : whole.step.Agree n (upTo (n + 1)) :=
    ((together_whole le_rfl).step.mono (Nat.le_succ n)).agree
  exact deeper.trans (together_whole (Nat.le_succ n)).agree.symm

/-- There is no other solution, so the rules refer to one another only on their way to the end. -/
theorem Solves.agree (hg : g.Solves) (n : ℕ) : whole.Agree n g := by
  induction n with
  | zero => exact (planned_whole.nowhere g).agree
  | succ n ih =>
    have inside : whole.step.Agree (n + 1) g.step := (ih.together planned_whole).step.agree
    exact (solves_whole (n + 1)).symm.trans (inside.trans (hg (n + 1)))

/-- Whether the rules of a grammar refer to one another only on their way to the end, so that every run of them
comes to its end. -/
structure Grounded (g : Grammar) : Prop where
  /-- No run comes to the bottom of the grammar.  Where fewer than `n` tokens are behind the current one, rules
  `n` levels above any others do the same as those of the grammar, even if the others do what no rule does. -/
  bottom : ∀ (base : Grammar) (n : ℕ), g.Agree n (above base n)
  solves : g.Solves
  unique : ∀ g' : Grammar, g'.Solves → ∀ n, g.Agree n g'

theorem grounded_whole : whole.Grounded where
  bottom base n := (together_whole le_rfl).agree.trans (together_above base n).agree
  solves := solves_whole
  unique _ solves := solves.agree

/-- Whether whatever the rules of a grammar read has a token at least. -/
structure Advances (g : Grammar) : Prop where
  expr : ∀ level, Parse.Advances (g.expr level) fun _ => True
  query : Parse.Advances g.query fun _ => True
  body : ∀ level, Parse.Advances (g.body level) fun _ => True
  dataType : Parse.Advances g.dataType fun _ => True
  statement : Parse.Advances g.statement fun _ => True

theorem advances_whole : whole.Advances := by
  have deeper : ∀ {α : Type} (x : Grammar → Parse α),
      (∀ count, Parse.Advances (x (upTo (count + 1))) fun _ => True) →
      Parse.Advances (rule x) fun _ => True :=
    fun x h => .second (.look Cursor.remaining) h
  constructor
  · exact fun level => deeper (fun g => g.expr level) fun count =>
      ((planned_upTo count).exprRule level).advances
  · exact deeper (fun g => g.query) fun count => (planned_upTo count).queryRule.advances
  · exact fun level => deeper (fun g => g.body level) fun count =>
      ((planned_upTo count).bodyRule level).advances
  · exact deeper (fun g => g.dataType) fun count => (planned_upTo count).dataTypeRule.advances
  · exact deeper (fun g => g.statement) fun count => (planned_upTo count).statementRule.advances

end Grammar

/-! ### Termination -/

namespace Parse

/-- A further statement. -/
def statementRound (rest : Parse (List Statement)) : Parse (List Statement) := do
  skipSemicolons (← remaining)
  if ← atEnd then return []
  else
    let first ← statement
    unless (← Parse.accept Symbol.semicolon) || (← atEnd) do Parse.fail .statementEnd
    let others ← rest
    return first :: others

theorem rounds_statementsWithin : PlainRounds statementRound statementsWithin where
  rounds _ _ := rfl
  forward same _ := by
    refine .bind (.look Cursor.remaining) (.refl _) fun count => ?_
    refine .bind (planned_skipSemicolons count) (.refl _) fun _ => ?_
    refine .bind (.look Cursor.atEnd) (.refl _) fun _ => .ite (.refl _) ?_
    refine .advance planned_statement Grammar.advances_whole.statement (fun first _ => ?_) fun _ no => ?_
    · refine .bind (.of_together (.accepted _)) (.refl _) fun _ => ?_
      refine .bind (.look Cursor.atEnd) (.refl _) fun _ => .ite (.bind_left (same ())) ?_
      exact .bind (.of_together (.fail _)) (.refl _) fun _ => .bind_left (same ())
    · exact absurd trivial no
  last count _ := by
    intro p closed near
    have ended := closed.ended (Nat.lt_one_iff.1 near)
    rw [statementsWithin_of_ended ended, statementsWithin_of_ended ended]

/-- Whether all parsers that a run goes through, from the first token of a vector on, stand on a token of the
vector, and none stands in front of one before it.  A vector without a mark of the end is given one. -/
def Inside (x : Parse α) (tokens : List Token) (limit : ℕ) : Prop :=
  Planned x ∧ ∀ plan : Plan α, plan.run = x →
    let parsers := Parser.ofTokens tokens limit :: plan.way (.ofTokens tokens limit)
    let vector := tokens ++ Cursor.missingEnd tokens
    (parsers.Pairwise fun p q => p.cursor.passed ≤ q.cursor.passed) ∧
      ∀ p ∈ parsers, p.cursor.passed < vector.length ∧
        p.cursor.upcoming = vector.drop p.cursor.passed

theorem Planned.inside (hx : Planned x) (tokens : List Token) (limit : ℕ) : Inside x tokens limit := by
  refine ⟨hx, ?_⟩
  rintro plan rfl
  obtain ⟨way, -⟩ := plan.balanced (.ofTokens tokens limit)
  refine ⟨way.pairwise, fun p hp => ?_⟩
  have onward : (Parser.ofTokens tokens limit).Onward p := by
    rcases List.mem_cons.1 hp with rfl | behind
    · exact .refl _
    · exact way.onward.2 p behind
  have whole : (Parser.ofTokens tokens limit).cursor.upcoming = tokens ++ Cursor.missingEnd tokens :=
    Cursor.upcoming_ofTokens tokens
  have start : (Parser.ofTokens tokens limit).cursor.passed = 0 := by
    cases tokens <;> rfl
  have upcoming := onward.upcoming
  rw [whole, start, Nat.sub_zero] at upcoming
  refine ⟨?_, upcoming⟩
  have some : ¬ (tokens ++ Cursor.missingEnd tokens).length ≤ p.cursor.passed := by
    rw [← List.drop_eq_nil_iff, ← upcoming]
    exact p.cursor.upcoming_ne_nil
  omega

end Parse

namespace Parse

/-- Whether the loops of a document and of lists are loops of such rounds. -/
structure Loops : Prop where
  statements : PlainLoop statementRound statementsWithin
  semicolons : PlainLoop semicolonRound skipSemicolons
  lists : ∀ {α : Type} (item : Parse α), Planned item → PlainLoop (commaRound item) (commaItems item)

theorem loops : Loops :=
  ⟨rounds_statementsWithin.loop, rounds_skipSemicolons.loop, fun _ planned => (rounds_commaItems planned).loop⟩

end Parse

/-- Parsing comes to its end.  The rules of the grammar refer to one another only with fewer tokens ahead: they
have one solution, which is what is run, and no run comes to the bottom of the grammar, whatever would be done
there.  The rounds of each loop move the cursor forward, and no bound ends a loop.  Whatever is read has a token
at least.  On any vector of tokens, and for any limit, the cursor stays on the vector and does not go back. -/
theorem parsing_terminates :
    Grammar.whole.Grounded ∧ Grammar.whole.Loops ∧ Parse.Loops ∧ Grammar.whole.Advances ∧
    ∀ (tokens : List Token) (limit : ℕ), Parse.statements.Inside tokens limit ∧
      Parse.statement.Inside tokens limit ∧ Parse.expr.Inside tokens limit :=
  ⟨Grammar.grounded_whole, Grammar.planned_whole.loops, Parse.loops, Grammar.advances_whole,
    fun tokens limit => ⟨Parse.planned_statements.inside tokens limit,
      Parse.planned_statement.inside tokens limit, Parse.planned_expr.inside tokens limit⟩⟩

end CanonicalSql
