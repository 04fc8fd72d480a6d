import CanonicalSql.Proofs.Alike.Statement
import CanonicalSql.Proofs.Hosting.Run

/-! Constructs around others.  A query of a single `SELECT` is read as its parts are, where a semicolon, a
closing parenthesis or the end is behind it.  None of these goes on with any construct. -/

namespace CanonicalSql

open Keyword Word CanonicalSql.Symbol

/-- Whether a semicolon, a closing parenthesis or the end is ahead. -/
def Closed (r : List Spelled) : Prop := kindAt r 0 = .eof ∨ (kindAt r 0).Closes

namespace Closed

variable {r : List Spelled}

theorem of_end (h : Parse.DocumentEnd r) : Closed r := by
  rcases h with rfl | ⟨t, semi, rfl⟩
  · exact .inl rfl
  · exact .inr (.inl semi)

theorem admits (h : Closed r) (t : Terminal) [t.Inside] : t.admits (kindAt r 0) = false := by
  rcases h with ended | closes
  · rw [ended, t.admits_eof]
  · exact Terminal.Inside.silent closes

theorem name? (h : Closed r) : (kindAt r 0).name? = none := by
  rcases h with hk | hk | hk <;> rw [hk] <;> rfl

theorem ofKinds? (h : Closed r) (next : Token.Kind) :
    Continuation.ofKinds? (kindAt r 0) next = none := by
  rcases h with hk | hk | hk <;> rw [hk] <;> rfl

theorem setOp? (h : Closed r) : Grammar.setOp? (kindAt r 0) = none := by
  rcases h with hk | hk | hk <;> rw [hk] <;> rfl

end Closed

namespace Grammar

open Parse

variable {g : Grammar} {n m k : ℕ∞} {s r r' : List Spelled}

/-! ### Where a construct ends -/

theorem reads_commaItems_none {α : Type} (item : Parse α) (count : ℕ)
    (h : (Terminal.symbol comma).admits (kindAt r 0) = false) :
    (commaItems item count).Reads 0 r [] r := by
  cases count with
  | zero => exact .pure [] r
  | succ count => exact .rejected h (.pure [] r)

/-- A list of a single item. -/
theorem reads_commaList_single {α : Type} {item : Parse α} {a : α} (h : item.Reads n s a r)
    (hr : (Terminal.symbol comma).admits (kindAt r 0) = false) :
    (commaList item).Reads n s [a] r :=
  h.last ((reads_remaining r).next ((reads_commaItems_none item _ hr).next (.pure [a] r)))

theorem reads_operators_none (g : Grammar) (level count : ℕ) (left : Expr)
    (h : ∀ next, Continuation.ofKinds? (kindAt r 0) next = none) :
    (g.operators level count left).Reads 0 r left r := by
  cases count with
  | zero => exact .pure left r
  | succ count =>
    refine (reads_peek r).next ((reads_peekAt 1 r).next ?_)
    rw [h]
    exact .pure left r

/-- An expression without operators behind its first operand. -/
theorem reads_exprRule_single (level : ℕ) {e : Expr} (h : g.signedOperand.Reads n s e r)
    (hr : ∀ next, Continuation.ofKinds? (kindAt r 0) next = none) :
    (g.exprRule level).Reads (1 + n) s e r := by
  rw [exprRule_eq_operators]
  exact .descend (h.last ((reads_remaining r).next (reads_operators_none g level _ e hr)))

/-! ### Queries of a single `SELECT` -/

/-- A single column of the result that is an expression. -/
theorem reads_selectItem {e : Expr} (h : g.anyExpr.Reads n s e r)
    (first : (Terminal.symbol star).admits (kindAt s 0) = false) (other : NoWildcard s)
    (word : (Terminal.keyword AS).admits (kindAt r 0) = false) (name : (kindAt r 0).name? = none) :
    g.selectItem.Reads n s (.expr e none) r := by
  refine .rejected first ((reads_tableWildcard_none other).next (h.last ?_))
  exact (reads_aliasName none fun _ => ⟨word, name⟩).next (.pure _ r)

/-- A `SELECT` with a single column, and behind it a source and a condition at most. -/
theorem reads_selectBlock {item : SelectItem} {source : Option FromClause} {selection : Option Expr}
    {r1 r2 : List Spelled}
    (distinct : (Terminal.keyword DISTINCT).admits (kindAt s 0) = false)
    (every : (Terminal.keyword ALL).admits (kindAt s 0) = false)
    (first : g.selectItem.Reads n s item r1)
    (noComma : (Terminal.symbol comma).admits (kindAt r1 0) = false)
    (hf : (optional FROM g.fromClause).Reads m r1 source r2)
    (hw : (optional WHERE g.anyExpr).Reads k r2 selection r) (hr : Closed r) :
    g.selectBlock.Reads (max n (max m k)) ((Terminal.keyword SELECT).spelled :: s)
      ⟨false, [item], source, selection, [], none⟩ r := by
  refine (reads_expect (Terminal.admits_self _) s).next ?_
  refine (reads_accept_none distinct).next ?_
  refine (reads_accept_none every).discard.next ?_
  refine (reads_commaList_single first noComma).bind (hf.bind (hw.last ?_))
  refine (Reads.optionalList_none (hr.admits _)).next ?_
  exact (Reads.optional_none (hr.admits _)).next (.pure _ r)

/-- A query that is nothing but a `SELECT`, behind the named queries if there are some. -/
theorem reads_queryRule {w : List Spelled} {tables : Option WithClause} {b : SelectBlock}
    (front : (optional WITH g.withClause).Reads m w tables ((Terminal.keyword SELECT).spelled :: s))
    (h : g.selectBlock.Reads n ((Terminal.keyword SELECT).spelled :: s) b r) (hr : Closed r) :
    g.queryRule.Reads (1 + max m n) w ⟨tables, .block b, [], none, [], none⟩ r := by
  have body : (g.bodyRule 0).Reads n ((Terminal.keyword SELECT).spelled :: s) (.block b) r := by
    have operand : g.setOperand.Reads n ((Terminal.keyword SELECT).spelled :: s) (.block b) r :=
      .seen (Terminal.admits_self _) (h.last (.pure _ r))
    rw [bodyRule_eq_setOperations]
    refine operand.last ((reads_remaining r).next ?_)
    cases r.length with
    | zero => exact .pure _ r
    | succ count =>
      refine (reads_peek r).next ?_
      rw [hr.setOp?]
      exact .pure _ r
  refine .descend (front.bind (body.last ?_))
  refine (Reads.optionalList_none (hr.admits _)).next ((Reads.optional_none (hr.admits _)).next ?_)
  refine (Reads.optionalList_none (hr.admits _)).next ((Reads.optional_none (hr.admits _)).next ?_)
  exact .pure _ r

/-- A statement that is a query of a single column, and behind it a source and a condition at most. -/
theorem reads_statement_select {item : SelectItem} {source : Option FromClause} {selection : Option Expr}
    {size : ℕ} {r1 r2 : List Spelled} (hs : size = s.length + 1)
    (distinct : (Terminal.keyword DISTINCT).admits (kindAt s 0) = false)
    (every : (Terminal.keyword ALL).admits (kindAt s 0) = false)
    (first : (upTo size).selectItem.Reads n s item r1)
    (noComma : (Terminal.symbol comma).admits (kindAt r1 0) = false)
    (hf : (optional FROM (upTo size).fromClause).Reads m r1 source r2)
    (hw : (optional WHERE (upTo size).anyExpr).Reads k r2 selection r) (hr : Closed r) :
    Parse.statement.Reads (1 + max n (max m k)) ((Terminal.keyword SELECT).spelled :: s)
      (.select (.ofBody (.block ⟨false, [item], source, selection, [], none⟩))) r := by
  subst hs
  have block := reads_selectBlock distinct every first noComma hf hw hr
  have query := (reads_queryRule (.optional_none rfl) block hr).cast
    (show 1 + max 0 (max n (max m k)) = 1 + max n (max m k) by simp)
  exact .statement ((reads_peek _).next (query.last (.pure _ r)))

/-- A statement that is a query of a single expression. -/
theorem reads_statement_column {e : Expr} {size : ℕ} (hs : size = s.length + 1)
    (h : (upTo size).anyExpr.Reads n s e r)
    (distinct : (Terminal.keyword DISTINCT).admits (kindAt s 0) = false)
    (every : (Terminal.keyword ALL).admits (kindAt s 0) = false)
    (all : (Terminal.symbol star).admits (kindAt s 0) = false) (other : NoWildcard s) (hr : Closed r) :
    Parse.statement.Reads (1 + n) ((Terminal.keyword SELECT).spelled :: s)
      (.select (.ofBody (.block ⟨false, [.expr e none], none, none, [], none⟩))) r := by
  have item := reads_selectItem h all other (hr.admits _) hr.name?
  exact (reads_statement_select hs distinct every item (hr.admits _) (.optional_none (hr.admits _))
    (.optional_none (hr.admits _)) hr).cast (by simp)

/-- A number is an expression in front of every clause. -/
theorem reads_number (text : String) (k : ℕ)
    (h : ∀ next, Continuation.ofKinds? (kindAt r 0) next = none) :
    (upTo (k + 1)).anyExpr.Reads 1 (⟨.number text, text⟩ :: r) (.number text) r := by
  have operand : ∀ g : Grammar, g.operand.Reads 0 (⟨.number text, text⟩ :: r) (.number text) r := by
    intro g
    refine .advance fun token same => ?_
    have kind : token.kind = .number text := congrArg Spelled.kind same
    rw [kind]
    exact .pure _ r
  exact reads_exprRule_single 0 (.rejected rfl (.rejected rfl (.rejected rfl (operand _)))) h

end Grammar

/-! ### Texts -/

variable {front : List Piece} {words text : String} {ts : List Token} {mark : Token} {n : ℕ∞} {limit : ℕ}
  {s r us : List Spelled} {statement : Statement}

/-- A document of a single statement that starts with a terminal. -/
theorem parseDocument_of_statement {tokens : List Token} (first : Terminal)
    (lexed : tokenize text = .ok tokens)
    (spelled : tokens.map Token.spelled = first.spelled :: us ++ [.endMark]) (start : first ≠ semicolon)
    (h : Parse.statement.Reads n (first.spelled :: us) statement r) (ends : Parse.DocumentEnd r)
    (room : n ≤ limit) : parseDocument text limit = .ok [statement] := by
  refine parseDocument_of_reads (h.statements (by simp) ?_ ends) lexed spelled room
  rw [kindAt_cons_zero, Terminal.admits_spelled]
  exact decide_eq_false (Ne.symm start)

/-- Printed pieces in front of a text: what they print, and the tokens that they are, the first of which
starts a statement. -/
structure Opening (front : List Piece) (words : String) (first : Terminal) (us : List Spelled) : Prop where
  printed : Piece.text front = words
  printable : Printable front
  /-- Nothing of the text continues the last piece. -/
  separate : ∀ p ∈ front.getLast?, p.isBreak = true
  begins : tokensOf front = first.spelled :: us
  start : first ≠ semicolon

namespace Opening

variable {first : Terminal} (opening : Opening front words first us)

include opening

/-- A statement that is read from the tokens of the pieces and those of a text is the document that the text
is behind the pieces. -/
theorem parseDocument_behind (lexed : tokenize text = .ok (ts ++ [mark]))
    (h : Parse.statement.Reads n (first.spelled :: (us ++ ts.map Token.spelled)) statement r)
    (ends : Parse.DocumentEnd r) (room : n ≤ limit) :
    parseDocument (words ++ text) limit = .ok [statement] := by
  obtain ⟨tokens, lexed', spelled⟩ := tokenize_behind lexed opening.printable opening.separate
  rw [opening.begins] at spelled
  rw [opening.printed] at lexed'
  exact parseDocument_of_statement first lexed' spelled opening.start h ends room

/-- A statement that is read from the tokens of a text between those of the pieces and of others is the
document that the text is between all these pieces, the last of which stand on a line of their own. -/
theorem parseDocument_between {back : List Piece} {words' : String}
    (lexed : tokenize text = .ok (ts ++ [mark])) (printed' : Piece.text (.lineEnd :: back) = words')
    (printable' : Printable back)
    (h : Parse.statement.Reads n (first.spelled :: (us ++ (ts.map Token.spelled ++ tokensOf back)))
      statement r)
    (ends : Parse.DocumentEnd r) (room : n ≤ limit) :
    parseDocument (words ++ text ++ words') limit = .ok [statement] := by
  obtain ⟨tokens, lexed', spelled⟩ :=
    tokenize_between lexed opening.printable opening.separate printable'
  rw [opening.begins, List.append_assoc _ (ts.map Token.spelled)] at spelled
  rw [opening.printed, printed'] at lexed'
  exact parseDocument_of_statement first lexed' spelled opening.start h ends room

end Opening

end CanonicalSql
