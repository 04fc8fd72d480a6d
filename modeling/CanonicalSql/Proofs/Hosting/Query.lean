import CanonicalSql.Proofs.Hosting.Guest
import CanonicalSql.Proofs.Hosting.Host
import CanonicalSql.Proofs.Printable

/-! Queries inside statements.  Behind `EXISTS`, as a relation, as a named query and as the query of a view
every query is read as it is alone.  An operand between parentheses and the right side of `IN` take a query
only where its first word is `SELECT` or `WITH`: where another parenthesis follows they take an expression.
An insertion takes such a query, or one that opens with a single parenthesis in front of these words: where
another parenthesis follows it takes a list of columns. -/

namespace CanonicalSql

open Keyword Word CanonicalSql.Symbol

theorem Token.Kind.startsQuery_iff {k : Token.Kind} :
    k.startsQuery = true ↔ k = .keyword SELECT ∨ k = .keyword WITH := by
  cases k <;> simp [startsQuery]

namespace Grammar

open Parse

variable {g : Grammar} {n : ℕ∞} {s r : List Spelled} {q : Query}

/-! ### Queries between parentheses -/

section

variable (h : g.query.Reads n s q ((Terminal.symbol rightParen).spelled :: r))

include h

theorem reads_group :
    (between leftParen rightParen g.query).Reads n ((Terminal.symbol leftParen).spelled :: s) q r :=
  .between (Terminal.admits_self _) (Terminal.admits_self _) h

theorem reads_operand_existence :
    g.operand.Reads n ((Terminal.keyword EXISTS).spelled :: (Terminal.symbol leftParen).spelled :: s)
      (.existence q) r :=
  reads_operand_keyword EXISTS fun _ => (reads_group h).last (.pure _ r)

theorem reads_operand_subquery (start : (kindAt s 0).startsQuery = true) :
    g.operand.Reads n ((Terminal.symbol leftParen).spelled :: s) (.subquery q) r := by
  refine .advance fun token same => ?_
  have kind : token.kind = .symbol leftParen := congrArg Spelled.kind same
  rw [kind]
  have inside : g.parenthesized.Reads n s (.subquery q) ((Terminal.symbol rightParen).spelled :: r) := by
    refine (reads_peek s).next ?_
    rw [start]
    exact h.last (.pure _ _)
  exact inside.last ((reads_expect (Terminal.admits_self _) r).next (.pure _ r))

/-- The right side of `IN`, from behind its word. -/
theorem reads_memberSet (start : (kindAt s 0).startsQuery = true) :
    (between leftParen rightParen g.memberSet).Reads n ((Terminal.symbol leftParen).spelled :: s)
      (.query q) r := by
  refine .between (Terminal.admits_self _) (Terminal.admits_self _) ((reads_peek s).next ?_)
  rw [start]
  exact h.last (.pure _ _)

/-- A source that is a single query. -/
theorem reads_fromClause (start : (kindAt s 0).startsQuery = true ∨ kindAt s 0 = .symbol leftParen)
    (hr : Closed r) :
    g.fromClause.Reads n ((Terminal.symbol leftParen).spelled :: s) ⟨.derived q none, []⟩ r := by
  have found : ((kindAt s 0).startsQuery || (Terminal.symbol leftParen).admits (kindAt s 0)) = true := by
    rcases start with start | start
    · simp [start]
    · rw [start]
      rfl
  have derived : g.derivedQuery.Reads n s q r := by
    refine (reads_peek s).next ((reads_sees _ s).next ?_)
    rw [if_pos found]
    exact h.last ((reads_expect (Terminal.admits_self _) r).next (.pure _ r))
  have relation : g.relation.Reads n ((Terminal.symbol leftParen).spelled :: s) (.derived q none) r :=
    .accepted (Terminal.admits_self _)
      (derived.last ((reads_aliasName none fun _ => ⟨hr.admits _, hr.name?⟩).next (.pure _ r)))
  refine relation.last ((reads_remaining r).next ?_)
  have joins : ∀ count, (g.joins count).Reads 0 r [] r := by
    intro count
    cases count with
    | zero => exact .pure [] r
    | succ count =>
      have side : joinSide.Reads 0 r none r :=
        .rejected (hr.admits _) (.rejected (hr.admits _) (.rejected (hr.admits _) (.pure none r)))
      have kind : joinKind.Reads 0 r none r :=
        .unseen (hr.admits _) (.rejected (hr.admits _) (.rejected (hr.admits _) side))
      have none : g.join.Reads 0 r none r := .rejected (hr.admits _) (kind.next (.pure none r))
      exact none.next (.pure [] r)
  exact (joins _).next (.pure _ r)

/-- Named queries of which there is only one. -/
theorem reads_withClause (name : String)
    (comma : (Terminal.symbol Symbol.comma).admits (kindAt r 0) = false) :
    (optional WITH g.withClause).Reads n ((Terminal.keyword WITH).spelled :: nameToken name ::
      (Terminal.keyword AS).spelled :: (Terminal.symbol leftParen).spelled :: s)
      (some ⟨false, [⟨name, [], q⟩]⟩) r := by
  refine .optional_some (Terminal.admits_self _) ?_
  have once : (Terminal.keyword RECURSIVE).admits (nameToken name).kind = false :=
    admits_of_name? (name?_nameToken name) rfl
  refine (reads_accept_none once).next ?_
  refine (reads_commaList_single ?_ comma).last (.pure _ r)
  refine (reads_identifier (name?_nameToken name) _).next ?_
  refine (reads_optionalNameList [] fun _ => rfl).next ?_
  refine (reads_expect (Terminal.admits_self _) _).next ((reads_group h).last (.pure _ r))

end

end Grammar

/-! ### Statements around a query -/

section

open Parse

variable {n : ℕ∞} {s r : List Spelled} {q : Query}

/-- The query for a single column. -/
def Query.column (e : Expr) : Query :=
  .ofBody (.block ⟨false, [.expr e none], none, none, [], none⟩)

section

variable (h : Parse.query.Reads n s q ((Terminal.symbol rightParen).spelled :: r))

include h

theorem reads_select_existence (hr : Closed r) :
    Parse.statement.Reads (1 + (1 + n)) ((Terminal.keyword SELECT).spelled ::
      (Terminal.keyword EXISTS).spelled :: (Terminal.symbol leftParen).spelled :: s)
      (.select (.column (.existence q))) r := by
  have operand := Grammar.reads_operand_existence (h.query_upTo (show s.length < s.length + 2 by omega))
  have column := Grammar.reads_exprRule_single 0
    (.rejected rfl (.rejected rfl (.rejected rfl operand))) hr.ofKinds?
  have size : s.length + 3 = ((Terminal.keyword EXISTS).spelled ::
      (Terminal.symbol leftParen).spelled :: s).length + 1 := rfl
  exact Grammar.reads_statement_column size column rfl rfl rfl (.inl rfl) hr

theorem reads_select_subquery (start : (kindAt s 0).startsQuery = true) (hr : Closed r) :
    Parse.statement.Reads (1 + (1 + n))
      ((Terminal.keyword SELECT).spelled :: (Terminal.symbol leftParen).spelled :: s)
      (.select (.column (.subquery q))) r := by
  have operand := Grammar.reads_operand_subquery
    (h.query_upTo (show s.length < s.length + 1 by omega)) start
  have column := Grammar.reads_exprRule_single 0
    (.rejected rfl (.rejected rfl (.rejected rfl operand))) hr.ofKinds?
  have size : s.length + 2 = ((Terminal.symbol leftParen).spelled :: s).length + 1 := rfl
  exact Grammar.reads_statement_column size column rfl rfl rfl (.inl rfl) hr

theorem reads_select_member (name : String) (start : (kindAt s 0).startsQuery = true) (hr : Closed r) :
    Parse.statement.Reads (1 + (1 + (1 + n))) ((Terminal.keyword SELECT).spelled :: nameToken name ::
      (Terminal.keyword IN).spelled :: (Terminal.symbol leftParen).spelled :: s)
      (.select (.column (.member (.bareColumn name) (.query q) false))) r := by
  let g := Grammar.upTo (s.length + 3)
  let w := (Terminal.keyword IN).spelled :: (Terminal.symbol leftParen).spelled :: s
  have named := name?_nameToken name
  have first : g.signedOperand.Reads 0 (nameToken name :: w) (.bareColumn name) w := by
    refine .rejected (admits_of_name? named rfl) (.rejected (admits_of_name? named rfl)
      (.rejected (admits_of_name? named rfl) (Grammar.reads_operand_name named ?_)))
    exact .unseen rfl (.rejected rfl (.pure _ w))
  have set := Grammar.reads_memberSet (g := g) (h.query_upTo (by omega)) start
  have member : (g.continued (.bareColumn name) (.member false)).Reads n
      ((Terminal.symbol leftParen).spelled :: s) (.member (.bareColumn name) (.query q) false) r :=
    set.last (.pure _ r)
  have operators : ∀ count, (g.operators 0 (count + 1) (.bareColumn name)).Reads (1 + n) w
      (.member (.bareColumn name) (.query q) false) r := fun count =>
    Grammar.reads_operators_next (Nat.zero_le _) count
      (member.last (Grammar.reads_operators_none g 0 count _ hr.ofKinds?))
  have column : (g.exprRule 0).Reads (1 + (1 + n)) (nameToken name :: w)
      (.member (.bareColumn name) (.query q) false) r := by
    rw [Grammar.exprRule_eq_operators]
    exact .descend (first.next ((reads_remaining w).next (operators _)))
  have size : s.length + 4 = (nameToken name :: w).length + 1 := rfl
  exact Grammar.reads_statement_column size column (admits_of_name? named rfl)
    (admits_of_name? named rfl) (admits_of_name? named rfl) (.inr ⟨rfl, .inr (.inl rfl)⟩) hr

theorem reads_select_from (start : (kindAt s 0).startsQuery = true ∨ kindAt s 0 = .symbol leftParen)
    (hr : Closed r) :
    Parse.statement.Reads (1 + n) ((Terminal.keyword SELECT).spelled :: (Terminal.symbol star).spelled ::
      (Terminal.keyword FROM).spelled :: (Terminal.symbol leftParen).spelled :: s)
      (.select (.ofBody (.block
        ⟨false, [.wildcard], some ⟨.derived q none, []⟩, none, [], none⟩))) r := by
  let g := Grammar.upTo (s.length + 4)
  have source := Grammar.reads_fromClause (g := g) (h.query_upTo (by omega)) start hr
  have item : g.selectItem.Reads 0 ((Terminal.symbol star).spelled :: (Terminal.keyword FROM).spelled ::
      (Terminal.symbol leftParen).spelled :: s) .wildcard
      ((Terminal.keyword FROM).spelled :: (Terminal.symbol leftParen).spelled :: s) :=
    .accepted (Terminal.admits_self _) (.pure _ _)
  have size : s.length + 4 = ((Terminal.symbol star).spelled :: (Terminal.keyword FROM).spelled ::
      (Terminal.symbol leftParen).spelled :: s).length + 1 := rfl
  exact (Grammar.reads_statement_select size rfl rfl item rfl
    (.optional_some (Terminal.admits_self _) source) (.optional_none (hr.admits _)) hr).cast (by simp)

end

/-- The query in front of which the named query stands is `SELECT` and a number. -/
theorem reads_with (name number : String)
    (h : Parse.query.Reads n s q ((Terminal.symbol rightParen).spelled ::
      (Terminal.keyword SELECT).spelled :: ⟨.number number, number⟩ :: r)) (hr : Closed r) :
    Parse.statement.Reads (1 + max n 1) ((Terminal.keyword WITH).spelled :: nameToken name ::
      (Terminal.keyword AS).spelled :: (Terminal.symbol leftParen).spelled :: s)
      (.select ⟨some ⟨false, [⟨name, [], q⟩]⟩,
        .block ⟨false, [.expr (.number number) none], none, none, [], none⟩, [], none, [], none⟩) r := by
  let g := Grammar.upTo (s.length + 4)
  have tables := Grammar.reads_withClause (g := g) (h.query_upTo (by omega)) name rfl
  have column := Grammar.reads_number (r := r) number (s.length + 3) hr.ofKinds?
  have item := Grammar.reads_selectItem (g := g) column rfl (.inl rfl) (hr.admits _) hr.name?
  have block := Grammar.reads_selectBlock rfl rfl item (hr.admits _) (.optional_none (hr.admits _))
    (.optional_none (hr.admits _)) hr
  have query := (Grammar.reads_queryRule tables block hr).cast
    (show 1 + max n (max 1 (max 0 0)) = 1 + max n 1 by simp)
  exact .statement ((reads_peek _).next (query.last (.pure _ r)))

/-- The query of a view. -/
theorem reads_createView (name : String) (h : Parse.query.Reads n s q r) :
    Parse.statement.Reads n ((Terminal.keyword CREATE).spelled :: (Terminal.word VIEW).spelled ::
      nameToken name :: (Terminal.keyword AS).spelled :: s)
      (.createView ⟨false, false, false, .bare name, none, none, [], q⟩) r := by
  let w := nameToken name :: (Terminal.keyword AS).spelled :: s
  have query := h.query_upTo (show s.length < s.length + 4 by omega)
  have view : ((Grammar.upTo (s.length + 4)).createView false false).Reads n w
      ⟨false, false, false, .bare name, none, none, [], q⟩ r := by
    refine (reads_ifNotExists (s := w) false fun _ => ?_).next ?_
    · exact Bool.and_eq_false_iff.2 (.inr rfl)
    refine (reads_qualifiedName (.bare name) rfl).next ((reads_onCluster none fun _ => rfl).next ?_)
    refine (Reads.optional_none rfl).next ((reads_optionalNameList [] fun _ => rfl).next ?_)
    exact (reads_expect (Terminal.admits_self _) s).next (query.last (.pure _ r))
  refine .statement ((reads_peek _).next ((reads_expect (Terminal.admits_self _) _).next ?_))
  refine (reads_acceptAll_none rfl).next ?_
  refine .rejected rfl (.rejected rfl (.rejected rfl (.accepted (Terminal.admits_self _) ?_)))
  exact view.last (.pure _ r)

/-- The query of an insertion. -/
theorem reads_insert (name : String) (h : Parse.query.Reads n s q r)
    (start : (kindAt s 0).startsQuery = true ∨
      kindAt s 0 = .symbol leftParen ∧ (kindAt s 1).startsQuery = true) :
    Parse.statement.Reads n ((Terminal.keyword INSERT).spelled :: (Terminal.keyword INTO).spelled ::
      nameToken name :: s) (.insert ⟨.bare name, [], .query q⟩) r := by
  have query := h.query_upTo (show s.length < s.length + 3 by omega)
  have first : kindAt s 0 = .keyword SELECT ∨ kindAt s 0 = .keyword WITH ∨
      kindAt s 0 = .symbol leftParen :=
    start.elim (fun bare => (Token.Kind.startsQuery_iff.1 bare).imp_right .inl) fun opens =>
      .inr (.inr opens.1)
  have source : (Grammar.upTo (s.length + 3)).insertSource.Reads n s (.query q) r := by
    have noValues : (Terminal.keyword VALUES).admits (kindAt s 0) = false := by
      rcases first with hk | hk | hk <;> rw [hk] <;> rfl
    have found : ((kindAt s 0).startsQuery || (Terminal.symbol leftParen).admits (kindAt s 0)) =
        true := by
      rcases first with hk | hk | hk <;> rw [hk] <;> rfl
    refine .rejected noValues ((reads_peek s).next ((reads_sees _ s).next ?_))
    rw [if_pos found]
    exact query.last (.pure _ r)
  have noDot : (Terminal.symbol dot).admits (kindAt s 0) = false := by
    rcases first with hk | hk | hk <;> rw [hk] <;> rfl
  have noTable : (Terminal.keyword TABLE).admits (nameToken name).kind = false :=
    admits_of_name? (name?_nameToken name) rfl
  refine .statement ((reads_peek _).next (Reads.last ?_ (.pure _ r)))
  refine (reads_expect (Terminal.admits_self _) _).next ((reads_expect (Terminal.admits_self _) _).next ?_)
  refine (reads_accept_none noTable).discard.next ?_
  refine (reads_qualifiedName (.bare name) noDot).next ((reads_peekAt 1 s).next ?_)
  -- A parenthesis in front of the query is no list of columns: a query starts right behind it.
  cases second : (kindAt s 1).startsQuery with
  | true => exact .next (.pure [] s) (source.last (.pure _ r))
  | false =>
    have noColumns : (Terminal.symbol leftParen).admits (kindAt s 0) = false := by
      have bare := start.resolve_right fun opens => by simp [second] at opens
      rcases Token.Kind.startsQuery_iff.1 bare with hk | hk <;> rw [hk] <;> rfl
    exact (reads_optionalNameList [] fun _ => noColumns).next (source.last (.pure _ r))

end

/-! ### Texts around a query -/

/-- A column of the result is a well formed expression. -/
theorem Query.wellFormed_column {e : Expr} (h : (Query.column e).WellFormed) : e.WellFormed := by
  have block := (Query.wellFormed_iff.1 h).2.1
  exact (SelectBlock.wellFormed_iff.1 block).2.1 (.expr e none) (List.mem_singleton_self _)

theorem kindAt_append {s : List Spelled} {i : ℕ} (h : kindAt s i ≠ .eof) (r : List Spelled) :
    kindAt (s ++ r) i = kindAt s i := by
  unfold kindAt at h ⊢
  by_cases inside : i < s.length
  · rw [List.getElem?_append_left inside]
  · rw [List.getElem?_eq_none (Nat.not_lt.1 inside)] at h
    exact absurd rfl h

theorem startsQuery_append {s : List Spelled} {i : ℕ} (h : (kindAt s i).startsQuery = true)
    (r : List Spelled) : (kindAt (s ++ r) i).startsQuery = true := by
  rwa [kindAt_append (fun none => by rw [none] at h; cases h)]

theorem leftParen_append {s : List Spelled} (h : kindAt s 0 = .symbol leftParen) (r : List Spelled) :
    kindAt (s ++ r) 0 = .symbol leftParen := by
  rwa [kindAt_append (fun none => by rw [none] at h; cases h)]

section

variable {text : String} {ts : List Token} {place : Position} {limit m : ℕ} {q : Query}
  (lexed : tokenize text = .ok (ts ++ [.endMark place])) (guest : IsQuery limit (ts.map Token.spelled) q)
  (room : limit + 3 ≤ m)

theorem printable_rightParen : Printable [.symbol rightParen] :=
  ⟨by simp [Piece.Legible], by unfold Apart; decide⟩

include lexed guest room

theorem parseDocument_existence :
    parseDocument ("SELECT EXISTS (" ++ text ++ "\n)") m = .ok [.select (.column (.existence q))] := by
  obtain ⟨n, few, reads⟩ := guest.reads _ printable_rightParen (.inr ⟨[], rfl⟩)
  have enough : 1 + (1 + (n : ℕ∞)) ≤ m := by norm_cast; omega
  have opening : Opening [SELECT, .space, EXISTS, .space, leftParen] "SELECT EXISTS (" SELECT
      [(Terminal.keyword EXISTS).spelled, (Terminal.symbol leftParen).spelled] :=
    ⟨rfl, ⟨by simp [Piece.Legible], by unfold Apart; decide⟩, by simp [Piece.isBreak],
      by simp, by decide⟩
  exact opening.parseDocument_between lexed rfl printable_rightParen
    (reads_select_existence reads (.inl rfl)) (.inl rfl) enough

theorem parseDocument_relation :
    parseDocument ("SELECT * FROM (" ++ text ++ "\n)") m = .ok [.select (.ofBody (.block
      ⟨false, [.wildcard], some ⟨.derived q none, []⟩, none, [], none⟩))] := by
  obtain ⟨n, few, reads⟩ := guest.reads _ printable_rightParen (.inr ⟨[], rfl⟩)
  have enough : 1 + (n : ℕ∞) ≤ m := by norm_cast; omega
  have starts := guest.starts.imp (startsQuery_append · (tokensOf [.symbol rightParen]))
    (leftParen_append · (tokensOf [.symbol rightParen]))
  have opening : Opening [SELECT, .space, star, .space, FROM, .space, leftParen] "SELECT * FROM (" SELECT
      [(Terminal.symbol star).spelled, (Terminal.keyword FROM).spelled,
        (Terminal.symbol leftParen).spelled] :=
    ⟨rfl, ⟨by simp [Piece.Legible], by unfold Apart; decide⟩, by simp [Piece.isBreak],
      by simp, by decide⟩
  exact opening.parseDocument_between lexed rfl printable_rightParen
    (reads_select_from reads starts (.inl rfl)) (.inl rfl) enough

theorem parseDocument_named :
    parseDocument ("WITH c AS (" ++ text ++ "\n) SELECT 1") m = .ok [.select
      ⟨some ⟨false, [⟨"c", [], q⟩]⟩,
        .block ⟨false, [.expr (.number "1") none], none, none, [], none⟩, [], none, [], none⟩] := by
  let back : List Piece := [rightParen, .space, SELECT, .space, .number "1"]
  have number : LexesAs "1" (.number "1") := by rfl
  have printable' : Printable back := ⟨by simp [back, Piece.Legible, number], by unfold Apart; decide⟩
  obtain ⟨n, few, reads⟩ := guest.reads back printable' (.inr ⟨_, tokensOf_symbol _ rightParen⟩)
  have enough : 1 + max (n : ℕ∞) 1 ≤ m := by
    rw [← max_add_add_left]
    exact max_le (by norm_cast; omega) (by norm_cast; omega)
  have opening : Opening [WITH, .space, .name "c", .space, AS, .space, leftParen] "WITH c AS (" WITH
      [nameToken "c", (Terminal.keyword AS).spelled, (Terminal.symbol leftParen).spelled] :=
    ⟨rfl, ⟨by simp [Piece.Legible], by unfold Apart; decide⟩, by simp [Piece.isBreak],
      by simp, by decide⟩
  exact opening.parseDocument_between lexed rfl printable'
    (reads_with "c" "1" (r := []) reads (.inl rfl)) (.inl rfl) enough

theorem parseDocument_view :
    parseDocument ("CREATE VIEW v AS " ++ text ++ "\n") m =
      .ok [.createView ⟨false, false, false, .bare "v", none, none, [], q⟩] := by
  obtain ⟨n, few, reads⟩ := guest.reads [] ⟨by simp, .nil⟩ (.inl rfl)
  have enough : (n : ℕ∞) ≤ m := by norm_cast; omega
  have opening : Opening [CREATE, .space, VIEW, .space, .name "v", .space, AS, .space]
      "CREATE VIEW v AS " CREATE
      [(Terminal.word VIEW).spelled, nameToken "v", (Terminal.keyword AS).spelled] :=
    ⟨rfl, ⟨by simp [Piece.Legible], by unfold Apart; decide⟩, by simp [Piece.isBreak],
      by simp, by decide⟩
  exact opening.parseDocument_between lexed rfl ⟨by simp, .nil⟩
    (reads_createView "v" reads) (.inl rfl) enough

theorem parseDocument_subquery (bare : q.startsBare = true) :
    parseDocument ("SELECT (" ++ text ++ "\n)") m = .ok [.select (.column (.subquery q))] := by
  obtain ⟨n, few, reads⟩ := guest.reads _ printable_rightParen (.inr ⟨[], rfl⟩)
  have enough : 1 + (1 + (n : ℕ∞)) ≤ m := by norm_cast; omega
  have start := startsQuery_append (guest.bare bare) (tokensOf [.symbol rightParen])
  have opening : Opening [SELECT, .space, leftParen] "SELECT (" SELECT
      [(Terminal.symbol leftParen).spelled] :=
    ⟨rfl, ⟨by simp [Piece.Legible], by unfold Apart; decide⟩, by simp [Piece.isBreak],
      by simp, by decide⟩
  exact opening.parseDocument_between lexed rfl printable_rightParen
    (reads_select_subquery reads start (.inl rfl)) (.inl rfl) enough

theorem parseDocument_member (bare : q.startsBare = true) :
    parseDocument ("SELECT x IN (" ++ text ++ "\n)") m =
      .ok [.select (.column (.member (.bareColumn "x") (.query q) false))] := by
  obtain ⟨n, few, reads⟩ := guest.reads _ printable_rightParen (.inr ⟨[], rfl⟩)
  have enough : 1 + (1 + (1 + (n : ℕ∞))) ≤ m := by norm_cast; omega
  have start := startsQuery_append (guest.bare bare) (tokensOf [.symbol rightParen])
  have opening : Opening [SELECT, .space, .name "x", .space, IN, .space, leftParen] "SELECT x IN (" SELECT
      [nameToken "x", (Terminal.keyword IN).spelled, (Terminal.symbol leftParen).spelled] :=
    ⟨rfl, ⟨by simp [Piece.Legible], by unfold Apart; decide⟩, by simp [Piece.isBreak],
      by simp, by decide⟩
  exact opening.parseDocument_between lexed rfl printable_rightParen
    (reads_select_member reads "x" start (.inl rfl)) (.inl rfl) enough

theorem parseDocument_insertion (start : q.startsBare = true ∨ q.opensBare = true) :
    parseDocument ("INSERT INTO t " ++ text ++ "\n") m = .ok [.insert ⟨.bare "t", [], .query q⟩] := by
  obtain ⟨n, few, reads⟩ := guest.reads [] ⟨by simp, .nil⟩ (.inl rfl)
  have enough : (n : ℕ∞) ≤ m := by norm_cast; omega
  have starts := start.imp guest.bare guest.opens
  rw [tokensOf_nil, List.append_nil] at reads
  have opening : Opening [INSERT, .space, INTO, .space, .name "t", .space] "INSERT INTO t " INSERT
      [(Terminal.keyword INTO).spelled, nameToken "t"] :=
    ⟨rfl, ⟨by simp [Piece.Legible], by unfold Apart; decide⟩, by simp [Piece.isBreak],
      by simp, by decide⟩
  refine opening.parseDocument_between lexed rfl ⟨by simp, .nil⟩ ?_ (.inl rfl) enough
  rw [tokensOf_nil, List.append_nil]
  exact reads_insert "t" reads starts

end

/-- The places where a query can stand, and what they take.  Let a text without a semicolon be a query within
some limit.  Within a limit of three levels more it is this very query behind `EXISTS`, as a relation, as a
named query and as the query of a view.  As an operand between parentheses and as the right side of `IN` it is
taken exactly if its first word is `SELECT` or `WITH`, and behind the table of an insertion exactly if it is
such a query or opens with a single parenthesis in front of these words. -/
theorem query_inside {text : String} {tokens : List Token} {limit m : ℕ} {q : Query}
    (lexed : tokenize text = .ok tokens) (unended : ∀ t ∈ tokens, t.kind ≠ .symbol semicolon)
    (h : parseDocument text limit = .ok [.select q]) (room : limit + 3 ≤ m) :
    parseDocument ("SELECT EXISTS (" ++ text ++ "\n)") m = .ok [.select (.column (.existence q))] ∧
      parseDocument ("SELECT * FROM (" ++ text ++ "\n)") m = .ok [.select (.ofBody (.block
        ⟨false, [.wildcard], some ⟨.derived q none, []⟩, none, [], none⟩))] ∧
      parseDocument ("WITH c AS (" ++ text ++ "\n) SELECT 1") m = .ok [.select
        ⟨some ⟨false, [⟨"c", [], q⟩]⟩,
          .block ⟨false, [.expr (.number "1") none], none, none, [], none⟩, [], none, [], none⟩] ∧
      parseDocument ("CREATE VIEW v AS " ++ text ++ "\n") m =
        .ok [.createView ⟨false, false, false, .bare "v", none, none, [], q⟩] ∧
      (parseDocument ("SELECT (" ++ text ++ "\n)") m = .ok [.select (.column (.subquery q))] ↔
        q.startsBare = true) ∧
      (parseDocument ("SELECT x IN (" ++ text ++ "\n)") m =
          .ok [.select (.column (.member (.bareColumn "x") (.query q) false))] ↔
        q.startsBare = true) ∧
      (parseDocument ("INSERT INTO t " ++ text ++ "\n") m =
          .ok [.insert ⟨.bare "t", [], .query q⟩] ↔
        q.startsBare = true ∨ q.opensBare = true) := by
  obtain ⟨ts, lexer, -, -, rfl⟩ := Lexer.passes_of_tokens lexed
  rw [List.forall_mem_append] at unended
  have guest := isQuery_of_parseDocument lexed unended.1 h
  refine ⟨parseDocument_existence lexed guest room, parseDocument_relation lexed guest room,
    parseDocument_named lexed guest room, parseDocument_view lexed guest room,
    ⟨fun read => ?operand, parseDocument_subquery lexed guest room⟩,
    ⟨fun read => ?member, parseDocument_member lexed guest room⟩,
    ⟨fun read => ?insertion, parseDocument_insertion lexed guest room⟩⟩
  all_goals have formed := wellFormed_of_parseDocument read _ (List.mem_singleton_self _)
  case operand => exact (Query.wellFormed_column formed).2
  case member => exact (Query.wellFormed_column formed).2.2
  case insertion => exact formed.2 rfl

set_option maxRecDepth 2000 in
/-- A union that starts with a parenthesis is no operand between parentheses. -/
theorem query_inside_union :
    ∃ q, parseDocument "(SELECT 1) UNION SELECT 2" 4 = .ok [.select q] ∧
      parseDocument ("SELECT EXISTS (" ++ "(SELECT 1) UNION SELECT 2" ++ "\n)") 7 =
        .ok [.select (.column (.existence q))] ∧
      parseDocument ("INSERT INTO t " ++ "(SELECT 1) UNION SELECT 2" ++ "\n") 7 =
        .ok [.insert ⟨.bare "t", [], .query q⟩] ∧
      parseDocument ("SELECT (" ++ "(SELECT 1) UNION SELECT 2" ++ "\n)") 7 ≠
        .ok [.select (.column (.subquery q))] := by
  let block (number : String) : QueryBody :=
    .block ⟨false, [.expr (.number number) none], none, none, [], none⟩
  let q : Query := .ofBody (.compound .union .unstated (.nested (.ofBody (block "1"))) (block "2"))
  have read : parseDocument "(SELECT 1) UNION SELECT 2" 4 = .ok [.select q] := by cbv
  cases lexed : tokenize "(SELECT 1) UNION SELECT 2" with
  | error e => simp [parseDocument, Parse.ofText, lexed] at read
  | ok tokens =>
    have kinds : (tokenize "(SELECT 1) UNION SELECT 2").map (·.map Token.kind) =
        .ok [.symbol leftParen, .keyword SELECT, .number "1", .symbol rightParen, .keyword UNION,
          .keyword SELECT, .number "2", .eof] := by
      cbv
    have unended : ∀ t ∈ tokens, t.kind ≠ .symbol semicolon := fun t ht semi => by
      simpa [semi] using kind_mem_of_tokenize lexed kinds ht
    obtain ⟨existence, -, -, -, operand, -, insertion⟩ := query_inside lexed unended read le_rfl
    exact ⟨q, read, existence, insertion.2 (.inr rfl), fun held => Bool.false_ne_true (operand.1 held)⟩

end CanonicalSql
