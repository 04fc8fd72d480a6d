import CanonicalSql.Proofs.Reading.Chain

/-! Reading back a single `SELECT`: its columns, its relations and their joins, and its clauses.
Every clause ends at the first word of one that can follow it. -/

namespace CanonicalSql

open Keyword Word CanonicalSql.Symbol

namespace Grammar

open Parse

variable {g : Grammar} {size : Nat} {r s : List Spelled} {ts : List Terminal}

/-! ### Columns of the result -/

/-- Whether the tokens do not start with a name for the columns of a whole table. -/
def NoWildcard (s : List Spelled) : Prop :=
  (kindAt s 0).name? = none ∨
    admitsAll s [dot, star] 1 = false ∧
      ((kindAt s 2).name? = none ∨ (Terminal.symbol dot).admits (kindAt s 1) = false ∨
        admitsAll s [dot, star] 3 = false)

theorem reads_tableWildcard_none (h : NoWildcard s) : tableWildcard?.Reads 0 s none s := by
  unfold tableWildcard?
  refine (reads_peek s).next ?_
  rcases h with h | ⟨short, long⟩
  · rw [h]
    exact .pure none s
  · cases (kindAt s 0).name? with
    | none => exact .pure none s
    | some first =>
      refine (reads_seesAllAt _ 1 s).next ?_
      rw [short]
      refine (reads_peekAt 2 s).next ?_
      cases hn : (kindAt s 2).name? with
      | none => exact .pure none s
      | some second =>
        refine (reads_seesAt 1 _ s).next ((reads_seesAllAt _ 3 s).next ?_)
        have absent : ((Terminal.symbol dot).admits (kindAt s 1) &&
            admitsAll s [dot, star] 3) = false := by
          rcases long with long | long | long
          · simp [hn] at long
          · rw [long, Bool.false_and]
          · rw [long, Bool.and_false]
        rw [absent]
        exact .pure none s

theorem noWildcard_of_name {t : Spelled} (hs : (Terminal.symbol dot).admits (kindAt s 0) = false) :
    NoWildcard (t :: s) := by
  refine .inr ⟨?_, .inr (.inl hs)⟩
  unfold admitsAll
  rw [kindAt_cons_succ, hs]
  rfl

theorem noWildcard_placed {e : Expr} (level : Nat) (h : NoWildcard (tokensOf e.pieces ++ s)) :
    NoWildcard (tokensOf (e.placed level e.pieces) ++ s) := by
  unfold Expr.placed Piece.parensIf
  split
  · exact .inl rfl
  · exact h

/-- An expression with a left operand starts as the operand does. -/
theorem Continues.noWildcard {e left : Expr} {c : Continuation} {rest : List Spelled}
    (h : Continues e left c rest)
    (first : NoWildcard (tokensOf left.pieces ++ (c.tokens ++ (rest ++ s)))) :
    NoWildcard (tokensOf e.pieces ++ s) := by
  rw [h, List.append_assoc, List.append_assoc]
  exact noWildcard_placed _ first

/-- An expression does not start like the columns of a whole table: there is a name behind each of
its dots, and no dot behind it. -/
theorem noWildcard_tokensOf : (e : Expr) → (s : List Spelled) →
    (Terminal.symbol dot).admits (kindAt s 0) = false → NoWildcard (tokensOf e.pieces ++ s)
  | .column ⟨none, column⟩, s, hs => noWildcard_of_name hs
  | .column ⟨some ⟨none, table⟩, column⟩, s, hs => by
    have name := admits_of_name? (t := star) (name?_nameToken column) rfl
    simp [NoWildcard, Expr.pieces, ColumnRef.pieces, QualifiedName.pieces, admitsAll, name, hs]
  | .column ⟨some ⟨some database, table⟩, column⟩, s, hs => by
    have first := admits_of_name? (t := star) (name?_nameToken table) rfl
    have second := admits_of_name? (t := star) (name?_nameToken column) rfl
    simp [NoWildcard, Expr.pieces, ColumnRef.pieces, QualifiedName.pieces, admitsAll, first, second]
  | .call ⟨function, args, distinct, window⟩, s, hs => by
    rw [Expr.pieces, tokensOf_call]
    exact noWildcard_of_name rfl
  | .binary left op right, s, hs => (continues_binary left op right).noWildcard
      (noWildcard_tokensOf left _ (Continuation.first_tokens _ _ _ (.inr (.inl rfl))))
  | .between value low high negated, s, hs => (continues_between value low high negated).noWildcard
      (noWildcard_tokensOf value _ (Continuation.first_tokens _ _ _ (.inr (.inl rfl))))
  | .member value set negated, s, hs => (continues_member value set negated).noWildcard
      (noWildcard_tokensOf value _ (Continuation.first_tokens _ _ _ (.inr (.inl rfl))))
  | .like value op pattern negated, s, hs => (continues_like value op pattern negated).noWildcard
      (noWildcard_tokensOf value _ (Continuation.first_tokens _ _ _ (.inr (.inl rfl))))
  | .isNull value negated, s, hs => (continues_isNull value negated).noWildcard
      (noWildcard_tokensOf value _ (Continuation.first_tokens _ _ _ (.inr (.inl rfl))))
  | .subscript base index, s, hs => (continues_subscript base index).noWildcard
      (noWildcard_tokensOf base _ (Continuation.first_tokens _ _ _ (.inr (.inl rfl))))
  | .literal value, s, hs => by
    rcases value with t | v | ⟨_ | _⟩ | _ <;> simp [Expr.pieces, Literal.piece] <;> exact .inl rfl
  | .placeholder p, s, hs => by
    rw [Expr.pieces, tokensOf_placeholder]
    cases p <;> exact .inl rfl
  | .unary op operand, s, hs => by
    cases op <;> simp [Expr.pieces, UnaryOp.pieces] <;> exact .inl rfl
  | .cases operand arms otherwise, s, hs => by
    rw [tokensOf_cases]
    exact .inl rfl
  | .cast value type, s, hs => by
    rw [Expr.pieces]
    exact .inl rfl
  | .existence q, s, hs => by
    rw [Expr.pieces]
    exact .inl rfl
  | .subquery q, s, hs => by
    rw [Expr.pieces]
    exact .inl rfl
  | .tuple items, s, hs => by
    rw [Expr.pieces]
    exact .inl rfl
  | .array items, s, hs => by
    rw [Expr.pieces]
    exact .inl rfl
  | .interval value u, s, hs => by
    rw [Expr.pieces]
    exact .inl rfl

theorem reads_tableWildcard (n : QualifiedName) (r : List Spelled) :
    tableWildcard?.Reads 0
      (tokensOf (n.pieces ++ [.symbol dot, .symbol star]) ++ r) (some n) r := by
  obtain ⟨database, name⟩ := n
  unfold tableWildcard?
  cases database with
  | none =>
    refine (reads_peek _).next ?_
    have written : (kindAt (tokensOf (QualifiedName.pieces ⟨none, name⟩ ++
        [.symbol dot, .symbol star]) ++ r) 0).name? = some name := name?_nameToken name
    rw [written]
    refine (reads_seesAllAt _ 1 _).next ?_
    exact (reads_skip [nameToken name, (Terminal.symbol dot).spelled,
      (Terminal.symbol star).spelled] r).next (.pure _ r)
  | some database =>
    have second := name?_nameToken name
    refine (reads_peek _).next ?_
    have written : (kindAt (tokensOf (QualifiedName.pieces ⟨some database, name⟩ ++
        [.symbol dot, .symbol star]) ++ r) 0).name? = some database := name?_nameToken database
    rw [written]
    refine (reads_seesAllAt _ 1 _).next ?_
    have short : admitsAll (tokensOf (QualifiedName.pieces ⟨some database, name⟩ ++
        [.symbol dot, .symbol star]) ++ r) [dot, star] 1 = false := by
      simp [QualifiedName.pieces, admitsAll, admits_of_name? (t := star) second rfl]
    rw [short]
    refine (reads_peekAt 2 _).next ?_
    have third : (kindAt (tokensOf (QualifiedName.pieces ⟨some database, name⟩ ++
        [.symbol dot, .symbol star]) ++ r) 2).name? = some name := second
    rw [third]
    refine (reads_seesAt 1 _ _).next ((reads_seesAllAt _ 3 _).next ?_)
    exact (reads_skip [nameToken database, (Terminal.symbol dot).spelled, nameToken name,
      (Terminal.symbol dot).spelled, (Terminal.symbol star).spelled] r).next (.pure _ r)

/-- What can follow the grouping of a `SELECT`. -/
def groupEnds : List Terminal := HAVING :: bodyEnds

/-- What can follow the relations of a `SELECT`. -/
def sourceEnds : List Terminal := WHERE :: GROUP :: groupEnds

/-- What can follow the columns of a `SELECT`. -/
def columnsEnds : List Terminal := FROM :: sourceEnds

theorem begins_aliasClause (h : Begins ts r) (a : Option String) :
    Begins (.keyword AS :: ts) (tokensOf (Piece.aliasClause a) ++ r) := by
  cases a with
  | none => exact h.weaken AS
  | some a =>
    simp only [Piece.aliasClause, tokensOf_clause, tokensOf_keyword]
    exact .first _ ts _

/-- An alias in front of terminals that are no words. -/
theorem reads_aliasName_of_begins (a : Option String) (h : Begins ts r) (has : .keyword AS ∉ ts)
    (words : ts.all (!Terminal.isWord ·) = true) :
    aliasName.Reads 0 (tokensOf (Piece.aliasClause a) ++ r) a r :=
  reads_aliasName a fun _ => ⟨h.admits has, h.name? words⟩

theorem Reads.selectItem (hg : g.Reads size) {item : SelectItem} (hi : item.WellFormed)
    (hs : (tokensOf item.pieces).length < size) (hr : Begins (.symbol comma :: columnsEnds) r) :
    g.selectItem.Reads item.levels (tokensOf item.pieces ++ r) item r := by
  unfold Grammar.selectItem
  cases item with
  | wildcard =>
    simp only [SelectItem.pieces, SelectItem.levels, tokensOf_symbol, tokensOf_nil,
      List.cons_append, List.nil_append]
    exact .accepted (Terminal.admits_self star) (.pure _ r)
  | tableWildcard table =>
    have named : (Terminal.symbol star).admits
        (kindAt (tokensOf (table.pieces ++ [.symbol dot, .symbol star]) ++ r) 0) = false := by
      rcases table with ⟨_ | database, name⟩ <;>
        exact admits_of_name? (name?_nameToken _) rfl
    rw [SelectItem.pieces, SelectItem.levels]
    exact .rejected named ((reads_tableWildcard table r).next (.pure _ r))
  | expr e a =>
    rw [SelectItem.WellFormed] at hi
    rw [SelectItem.pieces, tokensOf_append, List.length_append] at hs
    rw [SelectItem.pieces, SelectItem.levels, tokensOf_append, List.append_assoc]
    have after := begins_aliasClause hr a
    refine .rejected (admits_of_startsExpr (startsExpr_tokensOf e _) rfl) ?_
    refine (reads_tableWildcard_none (noWildcard_tokensOf e _ (after.admits (by decide)))).next ?_
    refine .last (hg.anyExpr hi (by omega) (.of_begins after (by decide))) ?_
    exact (reads_aliasName_of_begins a hr (by decide) (by decide)).next (.pure _ r)

/-- The columns of the result do not start with a keyword, but for those that start expressions. -/
theorem admits_selectItems {t : Terminal} (ht : t.spelled.kind.startsExpr = false)
    (star : t ≠ .symbol star) (word : t.isWord = false) {items : List SelectItem}
    (some : items ≠ []) (s : List Spelled) :
    t.admits (kindAt (tokensOf (Piece.commas (SelectItem.each items)) ++ s) 0) = false := by
  obtain ⟨item, items, rfl⟩ := List.exists_cons_of_ne_nil some
  rw [SelectItem.each, tokensOf_commas, List.append_assoc]
  cases item with
  | wildcard => simp [SelectItem.pieces, star]
  | tableWildcard table =>
    rw [SelectItem.pieces]
    rcases table with ⟨_ | database, name⟩ <;>
      exact admits_of_name? (name?_nameToken _) word
  | expr e a =>
    rw [SelectItem.pieces, tokensOf_append, List.append_assoc]
    exact admits_of_startsExpr (startsExpr_tokensOf e _) ht

/-! ### Relations -/

/-- A query starts with its first word or with a parenthesis. -/
theorem startsQuery_or_parenthesis : (b : QueryBody) → b.WellFormed → (s : List Spelled) →
    b.startsBare = false →
      (Terminal.symbol leftParen).admits (kindAt (tokensOf b.pieces ++ s) 0) = true
  | .block _, _, _, bare => by cases bare
  | .nested q, _, s, _ => by
    rw [QueryBody.pieces]
    simp
  | .compound op quantifier left right, h, s, bare => by
    rw [QueryBody.WellFormed] at h
    have first := startsQuery_or_parenthesis left h.1
    have tight : decide (left.precedence < op.precedence) = false :=
      decide_eq_false (Nat.not_lt.mpr h.2.2.1)
    rw [QueryBody.startsBare] at bare
    simp [QueryBody.pieces, tight, Piece.parensIf, first _ bare]

theorem opensQuery {q : Query} (h : q.WellFormed) (s : List Spelled) :
    ((kindAt (tokensOf q.pieces ++ s) 0).startsQuery ||
      (Terminal.symbol leftParen).admits (kindAt (tokensOf q.pieces ++ s) 0)) = true := by
  rw [startsQuery_query h, Bool.or_eq_true]
  cases bare : q.startsBare with
  | true => exact .inl rfl
  | false =>
    right
    obtain ⟨tables, body, orderBy, limit, settings, format⟩ := q
    unfold Query.WellFormed at h
    rw [Query.startsBare, Bool.or_eq_false_iff] at bare
    cases tables with
    | some tables => cases bare.1
    | none =>
      unfold Query.pieces
      simp only [List.nil_append, tokensOf_append, List.append_assoc]
      exact startsQuery_or_parenthesis body h.2.1 _ bare.2

/-- What can follow a join. -/
def joinEnds : List Terminal := comma :: INNER :: LEFT :: RIGHT :: FULL :: CROSS :: sourceEnds

/-- What can follow a relation. -/
def relationEnds : List Terminal := ON :: USING :: joinEnds

/-- A qualified name starts with a name, and no parenthesis stands behind its first part. -/
theorem kinds_qualifiedName (n : QualifiedName)
    (hs : (Terminal.symbol leftParen).admits (kindAt s 0) = false) :
    ((kindAt (tokensOf n.pieces ++ s) 0).name?.isSome = true) ∧
      (Terminal.symbol leftParen).admits (kindAt (tokensOf n.pieces ++ s) 1) = false := by
  obtain ⟨_ | database, name⟩ := n
  · simpa [QualifiedName.pieces] using hs
  · simp [QualifiedName.pieces]

theorem admits_of_isSome {t : Terminal} {k : Token.Kind} (h : k.name?.isSome = true)
    (ht : t.isWord = false) : t.admits k = false := by
  obtain ⟨name, hn⟩ := Option.isSome_iff_exists.1 h
  exact admits_of_name? hn ht

theorem Reads.relation (hg : g.Reads size) {relation : Relation} (hw : relation.WellFormed)
    (hs : (tokensOf relation.pieces).length < size) (hr : Begins relationEnds r) :
    g.relation.Reads relation.levels (tokensOf relation.pieces ++ r) relation r := by
  have readAlias : ∀ a, aliasName.Reads 0 (tokensOf (Piece.aliasClause a) ++ r) a r :=
    fun a => reads_aliasName_of_begins a hr (by decide) (by decide)
  have after : ∀ a, Begins (.keyword AS :: relationEnds) (tokensOf (Piece.aliasClause a) ++ r) :=
    fun a => begins_aliasClause hr a
  unfold Grammar.relation
  cases relation with
  | table name a =>
    rw [Relation.pieces, Relation.levels, tokensOf_append, List.append_assoc]
    obtain ⟨named, plain⟩ := kinds_qualifiedName name ((after a).admits (by decide))
    refine .rejected (admits_of_isSome named rfl) ((reads_peek _).next ?_)
    rw [Option.isNone_eq_false_iff.2 named]
    refine (reads_seesAt 1 _ _).next ?_
    rw [plain]
    refine (reads_qualifiedName name ((after a).admits (by decide))).next ?_
    exact (readAlias a).next (.pure _ r)
  | function name args a =>
    rw [Relation.WellFormed] at hw
    simp only [Relation.pieces, tokensOf_append, tokensOf_name, tokensOf_parens,
      List.cons_append, List.nil_append, List.append_assoc, List.length_cons,
      List.length_append] at hs ⊢
    rw [Relation.levels]
    refine .rejected (admits_of_name? (name?_nameToken name) rfl) ((reads_peek _).next ?_)
    rw [kindAt_cons_zero, name?_nameToken]
    refine (reads_seesAt 1 _ _).next ?_
    rw [kindAt_cons_succ, kindAt_cons_zero, Terminal.admits_self]
    refine (reads_identifier (name?_nameToken name) _).next ?_
    refine .last (.between (Terminal.admits_self leftParen) (Terminal.admits_self rightParen)
      (hg.exprsUpTo hw (by omega) (by decide) (by decide) rfl _)) ?_
    exact (readAlias a).next (.pure _ r)
  | derived q a =>
    rw [Relation.WellFormed] at hw
    simp only [Relation.pieces, tokensOf_append, tokensOf_parens, List.cons_append,
      List.nil_append, List.append_assoc, List.length_cons, List.length_append] at hs ⊢
    rw [Relation.levels]
    refine .accepted (Terminal.admits_self leftParen) (.last (a := q) ?_
      ((readAlias a).next (.pure _ r)))
    unfold Grammar.derivedQuery
    refine (reads_peek _).next ((reads_sees _ _).next ?_)
    rw [opensQuery hw]
    refine .last (hg.query hw (by omega) (.cons (t := rightParen) (by decide) _)) ?_
    exact (reads_expect (Terminal.admits_self rightParen) _).next (.pure _ _)

/-! ### Joins -/

/-- The words of a join up to `JOIN`, as they are printed. -/
def joinWords : JoinKind → List Terminal
  | .comma => [comma]
  | .inner => [INNER, JOIN]
  | .left => [LEFT, JOIN]
  | .right => [RIGHT, JOIN]
  | .full => [FULL, JOIN]
  | .cross => [CROSS, JOIN]

theorem tokensOf_joinKind (kind : JoinKind) :
    tokensOf kind.pieces = (joinWords kind).map Terminal.spelled := by
  cases kind <;> simp [JoinKind.pieces, joinWords]

/-- The tokens of the condition that a join may have. -/
def constraintTokens : Option JoinConstraint → List Spelled
  | none => []
  | some c => tokensOf c.pieces

/-- The levels of the condition that a join may have. -/
noncomputable def constraintLevels : Option JoinConstraint → ℕ∞
  | none => 0
  | some c => c.levels

theorem tokensOf_join (kind : JoinKind) (relation : Relation) (c : Option JoinConstraint) :
    tokensOf (Join.pieces ⟨kind, relation, c⟩) =
      (joinWords kind).map Terminal.spelled ++ (tokensOf relation.pieces ++ constraintTokens c) := by
  rw [← tokensOf_joinKind]
  unfold Join.pieces
  cases c <;> simp [constraintTokens]

theorem levels_join (kind : JoinKind) (relation : Relation) (c : Option JoinConstraint) :
    Join.levels ⟨kind, relation, c⟩ = max relation.levels (constraintLevels c) := by
  unfold Join.levels
  cases c <;> rfl

theorem Reads.joinConstraint (hg : g.Reads size) {kind : JoinKind} {c : Option JoinConstraint}
    (hk : kind.takesConstraint = c.isSome) (hc : kind ≠ .comma) (hw : ∀ a ∈ c, a.WellFormed)
    (hs : (constraintTokens c).length ≤ size) (hr : Begins joinEnds r) :
    (g.joinConstraint kind).Reads (constraintLevels c) (constraintTokens c ++ r) c r := by
  unfold Grammar.joinConstraint
  cases c with
  | none =>
    have cross : kind = .cross := by
      cases kind with
      | comma => exact absurd rfl hc
      | cross => rfl
      | _ => cases hk
    rw [if_pos cross]
    exact .pure none r
  | some c =>
    have notCross : kind ≠ .cross := by
      rintro rfl
      cases hk
    rw [if_neg notCross]
    have wellFormed := hw c rfl
    cases c with
    | on condition =>
      rw [JoinConstraint.WellFormed] at wellFormed
      simp only [constraintTokens, constraintLevels, JoinConstraint.pieces, JoinConstraint.levels,
        tokensOf_clause, tokensOf_keyword, tokensOf_nil, List.cons_append, List.nil_append,
        List.length_cons] at hs ⊢
      refine .accepted (Terminal.admits_self ON) ?_
      exact (hg.anyExpr wellFormed (by omega) (.of_begins hr (by decide))).last (.pure _ r)
    | «using» columns =>
      rw [JoinConstraint.WellFormed] at wellFormed
      simp only [constraintTokens, constraintLevels, JoinConstraint.pieces, JoinConstraint.levels,
        tokensOf_clause, tokensOf_keyword, tokensOf_nil, List.cons_append, List.nil_append]
      refine .rejected (by simp) (.accepted (Terminal.admits_self USING) ?_)
      exact (reads_nameList wellFormed r).next (.pure _ r)

theorem reads_joinKind {kind : JoinKind} (hk : kind ≠ .comma) (s : List Spelled) :
    joinKind.Reads 0 ((joinWords kind).map Terminal.spelled ++ s) (some kind)
      ((Terminal.keyword JOIN).spelled :: s) := by
  unfold Grammar.joinKind Grammar.joinSide
  cases kind with
  | comma => exact absurd rfl hk
  | inner => exact .unseen rfl (.accepted (Terminal.admits_self INNER) (.pure _ _))
  | cross =>
    exact .unseen rfl (.rejected rfl (.accepted (Terminal.admits_self CROSS) (.pure _ _)))
  | left =>
    refine .unseen rfl (.rejected rfl (.rejected rfl (.accepted (Terminal.admits_self LEFT) ?_)))
    exact (reads_accept_none rfl).discard.next (.pure _ _)
  | right =>
    refine .unseen rfl (.rejected rfl (.rejected rfl (.rejected rfl
      (.accepted (Terminal.admits_self RIGHT) ?_))))
    exact (reads_accept_none rfl).discard.next (.pure _ _)
  | full =>
    refine .unseen rfl (.rejected rfl (.rejected rfl (.rejected rfl (.rejected rfl
      (.accepted (Terminal.admits_self FULL) ?_)))))
    exact (reads_accept_none rfl).discard.next (.pure _ _)

/-- Where no word of a join is ahead, there is no further join. -/
theorem reads_join_none (hr : Begins sourceEnds r) : g.join.Reads 0 r none r := by
  unfold Grammar.join Grammar.joinKind Grammar.joinSide
  refine .rejected (hr.admits (by decide)) (.next (a := none) (r := r) ?_ (.pure none r))
  refine .unseen (hr.admits (by decide)) (.rejected (hr.admits (by decide)) ?_)
  refine .rejected (hr.admits (by decide)) (.rejected (hr.admits (by decide)) ?_)
  exact .rejected (hr.admits (by decide)) (.rejected (hr.admits (by decide)) (.pure none r))

theorem begins_constraintTokens (hr : Begins joinEnds r) (c : Option JoinConstraint) :
    Begins relationEnds (constraintTokens c ++ r) := by
  cases c with
  | none => exact hr.mono (by decide)
  | some c =>
    cases c with
    | on condition =>
      rw [constraintTokens, JoinConstraint.pieces, tokensOf_clause, tokensOf_keyword]
      exact .cons (by decide) _
    | «using» columns =>
      rw [constraintTokens, JoinConstraint.pieces, tokensOf_clause, tokensOf_keyword]
      exact .cons (by decide) _

theorem Reads.join (hg : g.Reads size) {join : Join} (hw : join.WellFormed)
    (hs : (tokensOf join.pieces).length ≤ size) (hr : Begins joinEnds r) :
    g.join.Reads join.levels (tokensOf join.pieces ++ r) (some join) r := by
  obtain ⟨kind, relation, constraint⟩ := join
  unfold Join.WellFormed at hw
  obtain ⟨wellFormed, taken, condition⟩ := hw
  have conditions : ∀ c ∈ constraint, c.WellFormed := by
    rintro c rfl
    exact condition
  have words : 0 < (joinWords kind).length := by cases kind <;> decide
  rw [tokensOf_join] at hs ⊢
  simp only [List.length_append, List.length_map, List.append_assoc] at hs ⊢
  rw [levels_join]
  have related := hg.relation wellFormed (by omega) (begins_constraintTokens hr constraint)
  unfold Grammar.join
  by_cases comma : kind = .comma
  · subst comma
    cases constraint with
    | some c => cases taken
    | none =>
      refine .accepted (Terminal.admits_self Symbol.comma) ?_
      exact .cast (related.last (.pure _ r)) (max_eq_left zero_le).symm
  · have start : (Terminal.symbol Symbol.comma).admits (kindAt ((joinWords kind).map
        Terminal.spelled ++ (tokensOf relation.pieces ++ (constraintTokens constraint ++ r))) 0) =
          false := by
      cases kind with
      | comma => exact absurd rfl comma
      | _ => rfl
    refine .rejected start ((reads_joinKind comma _).next ?_)
    refine (reads_expect (Terminal.admits_self JOIN) _).next (related.bind ?_)
    exact (hg.joinConstraint taken comma conditions (by omega) hr).last (.pure _ r)

theorem begins_joins (joins : List Join) (hr : Begins joinEnds r) :
    Begins joinEnds (tokensOf (Join.allPieces joins) ++ r) := by
  cases joins with
  | nil => exact hr
  | cons join joins =>
    obtain ⟨kind, relation, constraint⟩ := join
    rw [Join.allPieces, tokensOf_append, tokensOf_join]
    cases kind <;> exact .cons (by decide) _

theorem length_le_joins (joins : List Join) :
    joins.length ≤ (tokensOf (Join.allPieces joins)).length := by
  induction joins with
  | nil => exact Nat.zero_le _
  | cons join joins ih =>
    obtain ⟨kind, relation, constraint⟩ := join
    have words : 0 < (joinWords kind).length := by cases kind <;> decide
    simp only [Join.allPieces, tokensOf_append, tokensOf_join, List.length_append,
      List.length_map, List.length_cons]
    omega

theorem Reads.joins (hg : g.Reads size) {joins : List Join} (hw : Join.AllWellFormed joins)
    (hs : (tokensOf (Join.allPieces joins)).length ≤ size) (count : Nat)
    (enough : joins.length ≤ count) (hr : Begins sourceEnds r) :
    (g.joins count).Reads (Join.allLevels joins) (tokensOf (Join.allPieces joins) ++ r) joins
      r := by
  induction joins generalizing count with
  | nil =>
    cases count with
    | zero => exact .pure [] r
    | succ count => exact (reads_join_none hr).next (.pure [] r)
  | cons join joins ih =>
    obtain ⟨count, rfl⟩ : ∃ m, count = m + 1 := ⟨count - 1, by simp at enough; omega⟩
    rw [Join.AllWellFormed] at hw
    rw [Join.allPieces, tokensOf_append] at hs ⊢
    rw [List.length_append] at hs
    rw [List.append_assoc, Join.allLevels]
    have others := ih hw.2 (by omega) count (by simpa using enough)
    unfold Grammar.joins
    refine .bind (hg.join hw.1 (by omega) (begins_joins joins (hr.mono (by decide)))) ?_
    exact others.last (.pure _ r)

theorem Reads.fromClause (hg : g.Reads size) {source : FromClause} (hw : source.WellFormed)
    (hs : (tokensOf source.pieces).length < size) (hr : Begins sourceEnds r) :
    g.fromClause.Reads source.levels (tokensOf source.pieces ++ r) source r := by
  obtain ⟨relation, joins⟩ := source
  rw [FromClause.WellFormed] at hw
  rw [FromClause.pieces, tokensOf_append] at hs ⊢
  rw [List.length_append] at hs
  rw [List.append_assoc, FromClause.levels]
  have after := begins_joins joins (hr.mono (by decide))
  unfold Grammar.fromClause
  refine .bind (hg.relation hw.1 (by omega) (after.mono (by decide))) ?_
  refine (reads_remaining _).next (.last (hg.joins hw.2 (by omega) _ ?_ hr) (.pure _ r))
  have shorter := length_le_joins joins
  rw [List.length_append]
  omega

/-! ### Single queries -/

/-- The tokens of the relations that a `SELECT` may have. -/
def sourceTokens : Option FromClause → List Spelled
  | none => []
  | some source => (Terminal.keyword FROM).spelled :: tokensOf source.pieces

theorem tokensOf_block (distinct : Bool) (items : List SelectItem) (source : Option FromClause)
    (selection : Option Expr) (groupBy : List Expr) (having : Option Expr) :
    tokensOf (SelectBlock.pieces ⟨distinct, items, source, selection, groupBy, having⟩) =
      (Terminal.keyword SELECT).spelled :: (distinctTokens distinct ++
        (tokensOf (Piece.commas (SelectItem.each items)) ++ (sourceTokens source ++
          (optionTokens WHERE selection ++ (listTokens [GROUP, BY] (Expr.each groupBy) ++
            optionTokens HAVING having))))) := by
  unfold SelectBlock.pieces Piece.listClause
  cases distinct <;> cases source <;> cases selection <;> cases groupBy <;> cases having <;>
    simp [distinctTokens, sourceTokens, optionTokens, listTokens, Expr.each]

theorem begins_sourceTokens (h : Begins ts r) (source : Option FromClause) :
    Begins (.keyword FROM :: ts) (sourceTokens source ++ r) := by
  cases source with
  | none => exact h.weaken FROM
  | some source => exact .first _ ts _

/-- The columns of the result with commas between them. -/
theorem Reads.selectItems (hg : g.Reads size) {items : List SelectItem} (some : items ≠ [])
    (hi : ∀ item ∈ items, item.WellFormed)
    (hs : (tokensOf (Piece.commas (SelectItem.each items))).length < size)
    (hr : Begins columnsEnds r) :
    (commaList g.selectItem).Reads (SelectItem.allLevels items)
      (tokensOf (Piece.commas (SelectItem.each items)) ++ r) items r := by
  rw [SelectItem.each_eq] at hs ⊢
  refine .cast (.commaList some (fun item hm r' after => ?_) (hr.admits (by decide)))
    (SelectItem.allLevels_eq items).symm
  refine hg.selectItem (hi item hm)
    (Nat.lt_of_le_of_lt (length_le_commas SelectItem.pieces hm) hs) ?_
  rcases after with rfl | ⟨s, rfl⟩
  · exact hr.mono (List.subset_cons_self _ _)
  · exact .cons (List.mem_cons_self ..) s

theorem Reads.source (hg : g.Reads size) {source : Option FromClause}
    (hw : ∀ a ∈ source, a.WellFormed) (hs : (sourceTokens source).length ≤ size)
    (hr : Begins sourceEnds r) :
    (optional FROM g.fromClause).Reads (levelsIn FromClause.levels source)
      (sourceTokens source ++ r) source r := by
  cases source with
  | none => exact .optional_none (hr.admits (by decide))
  | some source =>
    rw [sourceTokens, List.length_cons] at hs
    exact .optional_some (Terminal.admits_self FROM) (hg.fromClause (hw source rfl) (by omega) hr)

theorem Reads.selectBlock (hg : g.Reads size) {block : SelectBlock} (hw : block.WellFormed)
    (hs : (tokensOf block.pieces).length ≤ size) (hr : Begins bodyEnds r) :
    g.selectBlock.Reads block.levels (tokensOf block.pieces ++ r) block r := by
  obtain ⟨distinct, items, source, selection, groupBy, having⟩ := block
  obtain ⟨some, columns, sources, conditions, terms, groups⟩ := SelectBlock.wellFormed_iff.1 hw
  rw [← Expr.allWellFormed_iff] at terms
  rw [tokensOf_block] at hs ⊢
  simp only [List.length_cons, List.length_append, List.cons_append, List.append_assoc] at hs ⊢
  rw [SelectBlock.levels_eq]
  -- What each clause starts with, from the last one to the first.
  have havingStart : Begins groupEnds (optionTokens HAVING having ++ r) :=
    begins_optionTokens hr HAVING having
  have groupStart : Begins (GROUP :: groupEnds) (listTokens [GROUP, BY] (Expr.each groupBy) ++
      (optionTokens HAVING having ++ r)) :=
    begins_listTokens havingStart _
  have whereStart : Begins sourceEnds (optionTokens WHERE selection ++
      (listTokens [GROUP, BY] (Expr.each groupBy) ++ (optionTokens HAVING having ++ r))) :=
    begins_optionTokens groupStart WHERE selection
  have fromStart : Begins columnsEnds (sourceTokens source ++ (optionTokens WHERE selection ++
      (listTokens [GROUP, BY] (Expr.each groupBy) ++ (optionTokens HAVING having ++ r)))) :=
    begins_sourceTokens whereStart source
  unfold Grammar.selectBlock
  have clauses : Parse.Reads (do
        let items ← commaList g.selectItem
        let source ← optional FROM g.fromClause
        let selection ← optional WHERE g.anyExpr
        let groupBy ← optionalList GROUP do
          expect BY
          commaList g.anyExpr
        let having ← optional HAVING g.anyExpr
        return SelectBlock.mk distinct items source selection groupBy having)
      (max (SelectItem.allLevels items) (max (levelsIn FromClause.levels source)
        (max (levelsIn (Expr.levels false) selection) (max (Expr.allLevels groupBy)
          (levelsIn (Expr.levels false) having)))))
      (tokensOf (Piece.commas (SelectItem.each items)) ++ (sourceTokens source ++
        (optionTokens WHERE selection ++ (listTokens [GROUP, BY] (Expr.each groupBy) ++
          (optionTokens HAVING having ++ r)))))
      ⟨distinct, items, source, selection, groupBy, having⟩ r := by
    refine .bind (hg.selectItems some columns (by omega) fromStart) ?_
    refine .bind (hg.source sources (by omega) whereStart) ?_
    refine .bind (hg.optionalExpr conditions (by omega) groupStart (by decide) (by decide)) ?_
    refine .bind (hg.exprsBy (t := GROUP) terms (by omega) havingStart (by decide) (by decide)
      (by decide)) ?_
    exact .last (hg.optionalExpr groups (by omega) hr (by decide) (by decide)) (.pure _ r)
  refine (reads_expect (Terminal.admits_self SELECT) _).next ?_
  cases distinct with
  | true =>
    refine (reads_accept (Terminal.admits_self DISTINCT) _).next ?_
    exact clauses
  | false =>
    refine (reads_accept_none (admits_selectItems rfl (by decide) rfl some _)).next ?_
    refine (reads_accept_none (admits_selectItems rfl (by decide) rfl some _)).discard.next ?_
    exact clauses

end Grammar

end CanonicalSql
