import CanonicalSql.Proofs.Reading.Query

/-! Reading back the statements that change data, and the phrases that all statements share. -/

namespace CanonicalSql

open Keyword Word CanonicalSql.Symbol

namespace Parse

variable {r s : List Spelled}

/-! ### Phrases -/

/-- The cluster of a statement, if no `ON` can be taken for its clause. -/
theorem reads_onCluster (cluster : Option String)
    (hr : cluster = none → (Terminal.keyword ON).admits (kindAt r 0) = false) :
    onCluster.Reads 0 (tokensOf (clusterClause cluster) ++ r) cluster r := by
  unfold onCluster
  cases cluster with
  | none =>
    refine (reads_acceptAll_none ?_).next (.pure none r)
    rw [admitsAll]
    exact Bool.and_eq_false_iff.2 (.inl (hr rfl))
  | some cluster =>
    simp only [clusterClause, tokensOf_clause, tokensOf_keyword, tokensOf_word, tokensOf_name,
      tokensOf_nil, List.cons_append, List.nil_append]
    refine (reads_acceptAll [.keyword ON, .word CLUSTER] _).next ?_
    exact (reads_identifier (name?_nameToken cluster) r).next (.pure _ r)

theorem reads_ifExists (present : Bool)
    (hs : present = false → admitsAll s [.word IF, .keyword EXISTS] 0 = false) :
    ifExists.Reads 0 (tokensOf (ifExistsPieces present) ++ s) present s := by
  unfold ifExists ifExistsPieces
  cases present with
  | false => exact reads_acceptAll_none (hs rfl)
  | true =>
    simp only [tokensOf_flag, tokensOf_word, tokensOf_keyword, tokensOf_nil, ↓reduceIte]
    exact reads_acceptAll [.word IF, .keyword EXISTS] s

theorem reads_ifNotExists (present : Bool)
    (hs : present = false → admitsAll s [.word IF, .keyword NOT, .keyword EXISTS] 0 = false) :
    ifNotExists.Reads 0 (tokensOf (ifNotExistsPieces present) ++ s) present s := by
  unfold ifNotExists ifNotExistsPieces
  cases present with
  | false => exact reads_acceptAll_none (hs rfl)
  | true =>
    simp only [tokensOf_flag, tokensOf_word, tokensOf_keyword, tokensOf_nil, ↓reduceIte]
    exact reads_acceptAll [.word IF, .keyword NOT, .keyword EXISTS] s

/-- A name that is written `IF` is not taken for the phrase, as no word of the phrase follows it. -/
theorem admitsAll_second {t u : Terminal} {ts : List Terminal}
    (h : u.admits (kindAt s 1) = false) : admitsAll s (t :: u :: ts) 0 = false := by
  simp [admitsAll, h]

/-- Behind the first part of a qualified name there is a dot or what follows the name. -/
theorem admits_second {t : Terminal} (n : QualifiedName) (hd : t ≠ dot)
    (hs : t.admits (kindAt s 0) = false) :
    t.admits (kindAt (tokensOf n.pieces ++ s) 1) = false := by
  obtain ⟨_ | database, name⟩ := n
  · simpa [QualifiedName.pieces] using hs
  · simp [QualifiedName.pieces, hd]

/-- A qualified name starts with a name. -/
theorem admits_qualifiedName {t : Terminal} (n : QualifiedName) (ht : t.isWord = false)
    (s : List Spelled) : t.admits (kindAt (tokensOf n.pieces ++ s) 0) = false := by
  obtain ⟨_ | database, name⟩ := n <;> exact admits_of_name? (name?_nameToken _) ht

end Parse

namespace Grammar

open Parse

variable {g : Grammar} {size : Nat} {r s : List Spelled} {ts : List Terminal}

/-- What can follow a statement. -/
def statementEnds : List Terminal := [semicolon]

theorem begins_clusterClause (h : Begins ts r) (cluster : Option String) :
    Begins (.keyword ON :: ts) (tokensOf (clusterClause cluster) ++ r) := by
  cases cluster with
  | none => exact h.weaken ON
  | some cluster =>
    rw [clusterClause, tokensOf_clause, tokensOf_keyword]
    exact .first _ ts _

theorem tokensOf_whereClause (e : Option Expr) :
    tokensOf (whereClause e) = optionTokens WHERE e := by
  cases e <;> simp [whereClause, optionTokens]

/-! ### Rows to insert -/

theorem Reads.row (hg : g.Reads size) {row : List Expr} (some : row ≠ [])
    (hw : ∀ e ∈ row, e.WellFormed) (hs : (tokensOf (rowPieces row)).length ≤ size)
    (r : List Spelled) :
    g.row.Reads (greatest (Expr.levels false) row) (tokensOf (rowPieces row) ++ r) row r := by
  rw [rowPieces, tokensOf_parens, List.length_cons, List.length_append] at hs
  rw [rowPieces, tokensOf_parens, List.cons_append, List.append_assoc, ← Expr.allLevels_eq]
  refine .between (Terminal.admits_self leftParen) (Terminal.admits_self rightParen) ?_
  exact hg.exprs some (Expr.allWellFormed_iff.2 hw) (by omega)
    (.cons (List.mem_singleton_self (Terminal.symbol rightParen)) r) (by decide) (by decide)

theorem reads_rows {item : Parse (List Expr)} {levels : List Expr → ℕ∞}
    {rows : List (List Expr)} (h : ∀ row ∈ rows, ∀ s, item.Reads (levels row)
      (tokensOf (rowPieces row) ++ s) row s) (count : Nat) (enough : rows.length ≤ count)
    (hr : Begins statementEnds r) :
    (Grammar.rows item count).Reads (greatest levels rows)
      (rows.flatMap (fun row => (Terminal.symbol comma).spelled :: tokensOf (rowPieces row)) ++ r)
      rows r := by
  induction rows generalizing count with
  | nil =>
    cases count with
    | zero => exact .pure [] r
    | succ count =>
      refine (reads_accept_none (hr.admits (by decide))).next ((reads_sees _ _).next ?_)
      rw [hr.admits (by decide)]
      exact .pure [] r
  | cons row rows ih =>
    obtain ⟨count, rfl⟩ : ∃ m, count = m + 1 := ⟨count - 1, by simp at enough; omega⟩
    have others := ih (fun other hm => h other (by simp [hm])) count (by simpa using enough)
    simp only [List.flatMap_cons, List.cons_append, List.append_assoc]
    unfold Grammar.rows
    refine (reads_accept (Terminal.admits_self comma) _).next ((reads_sees _ _).next ?_)
    rw [Bool.true_or]
    exact (h row (by simp) _).bind (others.last (.pure _ r))

theorem length_le_rows {rows : List (List Expr)} {row : List Expr} (h : row ∈ rows) :
    (tokensOf (rowPieces row)).length ≤ (tokensOf (Piece.commas (rows.map rowPieces))).length :=
  length_le_commas rowPieces h

/-- The rows of an insertion start with `VALUES`, with the first word of a query or with a
parenthesis. -/
theorem begins_insertSource {source : InsertSource} (hw : source.WellFormed) (r : List Spelled) :
    Begins [.keyword VALUES, .keyword WITH, .keyword SELECT, .symbol leftParen]
      (tokensOf source.pieces ++ r) := by
  cases source with
  | values rows =>
    rw [InsertSource.pieces, tokensOf_clause, tokensOf_keyword]
    exact .first _ _ _
  | query q =>
    rw [InsertSource.pieces, tokensOf_space]
    exact (begins_query hw r).weaken VALUES

theorem Reads.insertSource (hg : g.Reads size) {source : InsertSource} (hw : source.WellFormed)
    (hs : (tokensOf source.pieces).length < size) (hr : Begins statementEnds r) :
    g.insertSource.Reads source.levels (tokensOf source.pieces ++ r) source r := by
  unfold Grammar.insertSource
  cases source with
  | values rows =>
    obtain ⟨some, wellFormed⟩ := hw
    simp only [InsertSource.pieces, tokensOf_clause, tokensOf_keyword, tokensOf_nil,
      List.cons_append, List.nil_append, List.length_cons] at hs ⊢
    have items : ∀ row ∈ rows, ∀ s, g.row.Reads (greatest (Expr.levels false) row)
        (tokensOf (rowPieces row) ++ s) row s := fun row hm s => by
      have shorter := length_le_rows hm
      exact hg.row (wellFormed row hm).1 (wellFormed row hm).2 (by omega) s
    obtain ⟨row, rows, rfl⟩ := List.exists_cons_of_ne_nil some
    rw [List.map_cons, tokensOf_commas, List.append_assoc, List.flatMap_map, InsertSource.levels]
    refine .accepted (Terminal.admits_self VALUES) ?_
    refine (items row (by simp) _).bind ((reads_remaining _).next ?_)
    refine .last (reads_rows (fun other hm => items other (by simp [hm])) _ ?_ hr) (.pure _ r)
    have commas := length_le_flatMap_cons rows (Terminal.symbol comma).spelled
      fun row => tokensOf (rowPieces row)
    rw [List.length_append]
    omega
  | query q =>
    rw [InsertSource.WellFormed] at hw
    rw [InsertSource.pieces, tokensOf_space] at hs ⊢
    have start := opensQuery hw r
    refine .rejected ((begins_query hw r).admits (by decide)) ((reads_peek _).next
      ((reads_sees _ _).next ?_))
    rw [start, InsertSource.levels]
    exact (hg.query hw hs (hr.mono (by decide))).last (.pure _ r)

/-- The body opens with a parenthesis and a query that starts bare. -/
theorem startsQuery_second : (b : QueryBody) → b.WellFormed → (s : List Spelled) →
    b.opensBare = true → (kindAt (tokensOf b.pieces ++ s) 1).startsQuery = true
  | .block _, _, _, opens => by cases opens
  | .nested q, h, s, opens => by
    rw [QueryBody.WellFormed] at h
    rw [QueryBody.opensBare] at opens
    rw [QueryBody.pieces, tokensOf_parens, List.cons_append, List.append_assoc, kindAt_cons_succ,
      startsQuery_query h, opens]
  | .compound op quantifier left right, h, s, opens => by
    rw [QueryBody.WellFormed] at h
    have tight : decide (left.precedence < op.precedence) = false :=
      decide_eq_false (Nat.not_lt.mpr h.2.2.1)
    rw [QueryBody.opensBare] at opens
    simp [QueryBody.pieces, tight, Piece.parensIf, startsQuery_second left h.1 _ opens]

/-- The columns of an insertion are told from a query between parentheses. -/
theorem reads_insertColumns (table : QualifiedName) {columns : List String}
    {source : InsertSource} (hw : Insert.WellFormed ⟨table, columns, source⟩)
    {f : List String → Parse Insert} {n : ℕ∞} {i : Insert}
    (h : (f columns).Reads n (tokensOf source.pieces ++ r) i s) :
    (peekAt 1 >>= fun k => if k.startsQuery = true then pure [] >>= f
        else optionalNameList >>= f).Reads n
      (tokensOf (Piece.nameList columns) ++ (tokensOf source.pieces ++ r)) i s := by
  obtain ⟨wellFormed, opens⟩ := hw
  refine (reads_peekAt 1 _).next ?_
  cases columns with
  | cons column columns =>
    have named : (kindAt (tokensOf (Piece.nameList (column :: columns)) ++
        (tokensOf source.pieces ++ r)) 1).startsQuery = false := by
      have printed : Piece.nameList (column :: columns) =
          .space :: Piece.parens (Piece.commas ([.name column] ::
            columns.map fun n => [.name n])) := rfl
      rw [printed, tokensOf_space, tokensOf_parens, tokensOf_commas, tokensOf_name]
      have written := name?_nameToken column
      change (nameToken column).kind.startsQuery = false
      cases hk : (nameToken column).kind <;> first | rfl | simp [hk, Token.Kind.name?] at written
    rw [named]
    exact (reads_optionalNameList _ fun h => by cases h).next h
  | nil =>
    rw [show Piece.nameList [] = [] from rfl, tokensOf_nil, List.nil_append]
    have absent : (kindAt (tokensOf source.pieces ++ r) 1).startsQuery = false →
        (Terminal.symbol leftParen).admits (kindAt (tokensOf source.pieces ++ r) 0) = false := by
      intro second
      cases source with
      | values rows =>
        rw [InsertSource.pieces, tokensOf_clause, tokensOf_keyword]
        simp
      | query q =>
        rw [InsertSource.WellFormed] at wellFormed
        rw [InsertSource.pieces, tokensOf_space] at second ⊢
        rcases opens rfl with bare | opens
        · have first := startsQuery_query wellFormed r
          rw [bare] at first
          cases hk : kindAt (tokensOf q.pieces ++ r) 0 with
          | symbol c => simp [hk, Token.Kind.startsQuery] at first
          | _ => rfl
        · obtain ⟨tables, body, orderBy, limit, settings, format⟩ := q
          unfold Query.WellFormed at wellFormed
          rw [Query.opensBare, Bool.and_eq_true] at opens
          cases tables with
          | some tables => cases opens.1
          | none =>
            rw [tokensOf_query, withTokens, List.nil_append, List.append_assoc,
              startsQuery_second body wellFormed.2.1 _ opens.2] at second
            cases second
    cases second : (kindAt (tokensOf source.pieces ++ r) 1).startsQuery with
    | true => exact .next (.pure [] _) h
    | false => exact (reads_optionalNameList [] fun _ => absent second).next h

theorem Reads.insert (hg : g.Reads size) {i : Insert} (hw : i.WellFormed)
    (hs : (tokensOf i.pieces).length ≤ size) (hr : Begins statementEnds r) :
    g.insert.Reads i.source.levels (tokensOf i.pieces ++ r) i r := by
  obtain ⟨table, columns, source⟩ := i
  have wellFormed : source.WellFormed := hw.1
  simp only [Insert.pieces, tokensOf_append, tokensOf_ahead, tokensOf_keyword, tokensOf_nil,
    List.cons_append, List.nil_append, List.append_assoc, List.length_cons,
    List.length_append] at hs ⊢
  unfold Grammar.insert
  refine (reads_expect (Terminal.admits_self INSERT) _).next ?_
  refine (reads_expect (Terminal.admits_self INTO) _).next ?_
  refine (reads_accept_none (admits_qualifiedName table rfl _)).discard.next ?_
  refine (reads_qualifiedName table ?_).next ?_
  · cases columns with
    | nil => exact (begins_insertSource wellFormed r).admits (by decide)
    | cons column columns => rfl
  · refine reads_insertColumns table hw ?_
    exact (hg.insertSource wellFormed (by omega) hr).last (.pure _ r)

/-! ### Changes and deletions -/

theorem Reads.assignment (hg : g.Reads size) {a : Assignment} (hw : a.value.WellFormed)
    (hs : (tokensOf a.pieces).length < size) (hr : Ends 0 false r) :
    g.assignment.Reads a.levels (tokensOf a.pieces ++ r) a r := by
  obtain ⟨column, value⟩ := a
  dsimp only at hw
  simp only [Assignment.pieces, tokensOf_name, tokensOf_nil, tokensOf_clause, tokensOf_symbol,
    List.cons_append, List.nil_append, List.length_cons] at hs ⊢
  unfold Grammar.assignment
  refine (reads_identifier (name?_nameToken column) _).next ?_
  refine (reads_expect (Terminal.admits_self equal) _).next ?_
  exact (hg.anyExpr hw (by omega) hr).last (.pure _ r)

theorem Reads.assignments (hg : g.Reads size) {assignments : List Assignment}
    (some : assignments ≠ []) (hw : ∀ a ∈ assignments, a.value.WellFormed)
    (hs : (tokensOf (Piece.commas (assignments.map Assignment.pieces))).length < size)
    (hr : Begins ts r) (ht : ts.all Terminal.endsExpr = true) (hc : .symbol comma ∉ ts) :
    (commaList g.assignment).Reads (greatest Assignment.levels assignments)
      (tokensOf (Piece.commas (assignments.map Assignment.pieces)) ++ r) assignments r := by
  refine .commaList some (fun a hm r' after => ?_) (hr.admits hc)
  exact hg.assignment (hw a hm)
    (Nat.lt_of_le_of_lt (length_le_commas Assignment.pieces hm) hs) (Ends.of_afterItem after hr ht 0)

theorem Reads.update (hg : g.Reads size) {u : Update} (hw : u.WellFormed)
    (hs : (tokensOf u.pieces).length ≤ size) (hr : Begins statementEnds r) :
    g.update.Reads u.levels (tokensOf u.pieces ++ r) u r := by
  obtain ⟨table, a, assignments, selection⟩ := u
  obtain ⟨some, wellFormed, conditions⟩ := hw
  dsimp only at some wellFormed conditions
  simp only [Update.pieces, tokensOf_append, tokensOf_ahead, tokensOf_clause, tokensOf_keyword,
    tokensOf_nil, tokensOf_whereClause, List.cons_append, List.nil_append, List.append_assoc,
    List.length_cons, List.length_append] at hs ⊢
  have set : Begins [.keyword SET] ((Terminal.keyword SET).spelled ::
      (tokensOf (Piece.commas (assignments.map Assignment.pieces)) ++
        (optionTokens WHERE selection ++ r))) := .cons (List.mem_singleton_self _) _
  have whereStart : Begins (.keyword WHERE :: statementEnds) (optionTokens WHERE selection ++ r) :=
    begins_optionTokens hr WHERE selection
  change g.update.Reads (max (greatest Assignment.levels assignments)
    (levelsIn (Expr.levels false) selection)) _ _ _
  unfold Grammar.update
  refine (reads_expect (Terminal.admits_self UPDATE) _).next ?_
  refine (reads_qualifiedName table ((begins_aliasClause set a).admits (by decide))).next ?_
  refine (reads_aliasName_of_begins a set (by decide) (by decide)).next ?_
  refine (reads_expect (Terminal.admits_self SET) _).next ?_
  refine .bind (hg.assignments some wellFormed (by omega) whereStart (by decide) (by decide)) ?_
  exact .last (hg.optionalExpr conditions (by omega) hr (by decide) (by decide)) (.pure _ r)

theorem Reads.delete (hg : g.Reads size) {d : Delete} (hw : ∀ e ∈ d.selection, e.WellFormed)
    (hs : (tokensOf d.pieces).length ≤ size) (hr : Begins statementEnds r) :
    g.delete.Reads (levelsIn (Expr.levels false) d.selection) (tokensOf d.pieces ++ r) d r := by
  obtain ⟨table, cluster, selection⟩ := d
  simp only [Delete.pieces, tokensOf_append, tokensOf_ahead, tokensOf_keyword, tokensOf_nil,
    tokensOf_whereClause, List.cons_append, List.nil_append, List.append_assoc, List.length_cons,
    List.length_append] at hs ⊢
  have whereStart : Begins (.keyword WHERE :: statementEnds) (optionTokens WHERE selection ++ r) :=
    begins_optionTokens hr WHERE selection
  have onStart : Begins (.keyword ON :: .keyword WHERE :: statementEnds)
      (tokensOf (clusterClause cluster) ++ (optionTokens WHERE selection ++ r)) :=
    begins_clusterClause whereStart cluster
  unfold Grammar.delete
  refine (reads_expect (Terminal.admits_self DELETE) _).next ?_
  refine (reads_expect (Terminal.admits_self FROM) _).next ?_
  refine (reads_qualifiedName table (onStart.admits (by decide))).next ?_
  refine (reads_onCluster cluster fun _ => whereStart.admits (by decide)).next ?_
  exact .last (hg.optionalExpr hw (by omega) hr (by decide) (by decide)) (.pure _ r)

end Grammar

end CanonicalSql
