import CanonicalSql.Proofs.Reading.Select

/-! Reading back queries: set operations, which a loop reads as it reads operators, and what stands
around them. -/

namespace CanonicalSql

open Keyword Word CanonicalSql.Symbol

/-- The levels of a body count those that its own set operations hold open. -/
theorem QueryBody.links_le_levels (b : QueryBody) : (b.links : ℕ∞) ≤ b.levels := by
  cases b with
  | block _ | nested _ => exact zero_le
  | compound op quantifier left right =>
    rw [QueryBody.links, QueryBody.levels]
    push_cast
    exact le_max_of_le_right le_self_add

/-- The terminal that a set operation is printed as. -/
def SetOp.terminal : SetOp → Terminal
  | .union => UNION
  | .intersect => INTERSECT
  | .except => EXCEPT

theorem SetOp.setOp?_terminal (op : SetOp) :
    Grammar.setOp? op.terminal.spelled.kind = some op := by
  cases op <;> rfl

namespace BodyEnds

variable {level level' : Nat} {r : List Spelled} {ts : List Terminal}

theorem mono (h : BodyEnds level r) (hl : level ≤ level') : BodyEnds level' r :=
  ⟨h.1, fun op hop => Nat.lt_of_lt_of_le (h.2 op hop) hl⟩

/-- A set operation ends the body before it if it binds less tightly. -/
theorem of_setOp {op : SetOp} (h : op.precedence < level) (s : List Spelled) :
    BodyEnds level (op.terminal.spelled :: s) := by
  refine ⟨.cons (by cases op <;> decide) s, fun found hf => ?_⟩
  rw [kindAt_cons_zero, SetOp.setOp?_terminal] at hf
  cases hf
  exact h

theorem of_begins (h : Begins ts r) (hsub : ts ⊆ bodyEnds)
    (none : ts.all (fun t => (Grammar.setOp? t.spelled.kind).isNone) = true) :
    BodyEnds level r := by
  refine ⟨h.mono hsub, fun op hop => ?_⟩
  rcases h with rfl | ⟨t, ht, s, rfl⟩
  · cases hop
  · have absent := List.all_eq_true.1 none t ht
    rw [kindAt_cons_zero] at hop
    rw [hop] at absent
    cases absent

end BodyEnds

namespace Grammar

open Parse

variable {g : Grammar} {size level : Nat} {n : ℕ∞} {b x : QueryBody} {r s s' : List Spelled}
  {ts : List Terminal}

/-! ### Set operations -/

theorem reads_setOperations_end (count : Nat) (hr : BodyEnds level r) :
    (g.setOperations level count b).Reads 0 r b r := by
  cases count with
  | zero => exact .pure b r
  | succ count =>
    unfold Grammar.setOperations
    refine (reads_peek r).next ?_
    cases hop : setOp? (kindAt r 0) with
    | none => exact .pure b r
    | some op =>
      have stops := hr.2 op hop
      simp only [stops, ↓reduceIte]
      exact .pure b r

/-- What a quantifier is printed as. -/
def quantifierTerminals : SetQuantifier → List Terminal
  | .unstated => []
  | .all => [ALL]
  | .distinct => [DISTINCT]

theorem tokensOf_quantifier (q : SetQuantifier) :
    tokensOf q.pieces = (quantifierTerminals q).map Terminal.spelled := by
  cases q <;> simp [SetQuantifier.pieces, quantifierTerminals]

theorem reads_setQuantifier (q : SetQuantifier)
    (hs : (Terminal.keyword ALL).admits (kindAt s 0) = false ∧
      (Terminal.keyword DISTINCT).admits (kindAt s 0) = false) :
    setQuantifier.Reads 0 ((quantifierTerminals q).map Terminal.spelled ++ s) q s := by
  unfold Grammar.setQuantifier
  cases q with
  | unstated => exact .rejected hs.1 (.rejected hs.2 (.pure _ s))
  | all => exact .accepted (Terminal.admits_self ALL) (.pure _ s)
  | distinct =>
    exact .rejected (by simp [quantifierTerminals])
      (.accepted (Terminal.admits_self DISTINCT) (.pure _ s))

/-- A body starts with `SELECT` or with a parenthesis. -/
theorem begins_body : (b : QueryBody) → b.WellFormed → (s : List Spelled) →
    Begins [.keyword SELECT, .symbol leftParen] (tokensOf b.pieces ++ s)
  | .block ⟨distinct, items, source, selection, groupBy, having⟩, _, s => by
    rw [QueryBody.pieces, tokensOf_block]
    exact .first _ _ _
  | .nested q, _, s => by
    rw [QueryBody.pieces, tokensOf_parens]
    exact (Begins.first _ _ _).weaken SELECT
  | .compound op quantifier left right, h, s => by
    rw [QueryBody.WellFormed] at h
    have tight : decide (left.precedence < op.precedence) = false :=
      decide_eq_false (Nat.not_lt.mpr h.2.2.1)
    simp only [QueryBody.pieces, tight, Piece.parensIf, Bool.false_eq_true, ↓reduceIte,
      tokensOf_append, List.append_assoc]
    exact begins_body left h.1 _

/-- The body is read as the head of a chain of set operations, as expressions are of operators. -/
def HeadsBody (g : Grammar) (b : QueryBody) : Prop :=
  ∀ ⦃level : Nat⦄ ⦃n : ℕ∞⦄ ⦃x : QueryBody⦄ ⦃r s' : List Spelled⦄, level ≤ b.precedence →
    BodyEnds (b.precedence + 1) r →
    (∀ count, r.length ≤ count → (g.setOperations level count b).Reads n r x s') →
    (g.bodyRule level).Reads (max b.levels (b.links + n)) (tokensOf b.pieces ++ r) x s'

/-- What the loop makes of a first operand is what the body is. -/
theorem reads_bodyRule {m : ℕ∞} (h : g.setOperand.Reads m s b r)
    (loop : ∀ count, r.length ≤ count → (g.setOperations level count b).Reads n r x s') :
    (g.bodyRule level).Reads (max m n) s x s' := by
  rw [bodyRule_eq_setOperations]
  exact h.bind ((reads_remaining r).next (loop r.length (Nat.le_refl _)))

theorem Reads.headsBody (hg : g.Reads size) : (b : QueryBody) → b.WellFormed →
    (tokensOf b.pieces).length ≤ size → g.HeadsBody b
  | .block block, hw, hs => by
    rw [QueryBody.WellFormed] at hw
    rw [QueryBody.pieces] at hs
    intro level n x r s' hl hr loop
    have read := hg.selectBlock hw hs hr.1
    have operand : g.setOperand.Reads block.levels (tokensOf block.pieces ++ r) (.block block)
        r := by
      have start : (Terminal.keyword SELECT).admits (kindAt (tokensOf block.pieces ++ r) 0) =
          true := by
        obtain ⟨distinct, items, source, selection, groupBy, having⟩ := block
        rw [tokensOf_block]
        simp
      exact .seen start (read.last (.pure _ r))
    rw [QueryBody.pieces, QueryBody.levels]
    refine .cast (reads_bodyRule operand loop) ?_
    rw [QueryBody.links, Nat.cast_zero, zero_add]
  | .nested q, hw, hs => by
    rw [QueryBody.WellFormed] at hw
    rw [QueryBody.pieces, tokensOf_parens, List.length_cons, List.length_append] at hs
    intro level n x r s' hl hr loop
    have read := hg.subquery hw (by omega) r
    have operand : g.setOperand.Reads q.levels (tokensOf (Piece.parens q.pieces) ++ r) (.nested q)
        r := by
      refine .unseen ?_ (.seen ?_ (read.last (.pure _ r)))
      · simp
      · simp
    rw [QueryBody.pieces, QueryBody.levels]
    refine .cast (reads_bodyRule operand loop) ?_
    rw [QueryBody.links, Nat.cast_zero, zero_add]
  | .compound op quantifier left right, hw, hs => by
    rw [QueryBody.WellFormed] at hw
    obtain ⟨hleft, hright, lower, upper⟩ := hw
    have pieces : tokensOf (QueryBody.pieces (.compound op quantifier left right)) =
        tokensOf left.pieces ++ (op.terminal.spelled ::
          ((quantifierTerminals quantifier).map Terminal.spelled ++ tokensOf right.pieces)) := by
      have tightLeft : decide (left.precedence < op.precedence) = false :=
        decide_eq_false (Nat.not_lt.mpr lower)
      have tightRight : decide (right.precedence ≤ op.precedence) = false :=
        decide_eq_false (Nat.not_le.mpr upper)
      rw [QueryBody.pieces, tightLeft, tightRight, ← tokensOf_quantifier]
      cases op <;> simp [Piece.parensIf, SetOp.piece, SetOp.terminal]
    rw [pieces, List.length_append, List.length_cons, List.length_append] at hs
    have head := hg.headsBody left hleft (by omega)
    intro level n x r s' hl hr loop
    have ends : BodyEnds (op.precedence + 1) r := hr
    rw [pieces, List.append_assoc, List.cons_append, List.append_assoc, QueryBody.levels,
      QueryBody.links, ← levels_link]
    refine head (Nat.le_trans hl lower) (.of_setOp (by omega) _) fun count enough => ?_
    rw [List.length_cons, List.length_append, List.length_append] at enough
    obtain ⟨count, rfl⟩ : ∃ k, count = k + 1 := ⟨count - 1, by omega⟩
    unfold Grammar.setOperations
    refine (reads_peek _).next ?_
    rw [kindAt_cons_zero, SetOp.setOp?_terminal]
    have tight : ¬ op.precedence < level := Nat.not_lt.mpr hl
    simp only [tight, ↓reduceIte]
    refine .descend ((reads_discard_advance _ _).next ?_)
    have start := begins_body right hright r
    refine (reads_setQuantifier quantifier
      ⟨start.admits (by decide), start.admits (by decide)⟩).next ?_
    exact (hg.body hright (by omega) (by omega) ends).bind (loop count (by omega))

/-- A body is read back at every level of its place. -/
theorem Reads.bodyRule (hg : g.Reads size) (hw : b.WellFormed) (hl : level ≤ b.precedence)
    (hs : (tokensOf b.pieces).length ≤ size) (hr : BodyEnds level r) :
    (g.bodyRule level).Reads b.levels (tokensOf b.pieces ++ r) b r := by
  refine .cast (hg.headsBody b hw hs hl (hr.mono (by omega))
    fun count _ => reads_setOperations_end count hr) ?_
  rw [add_zero, max_eq_left b.links_le_levels]

/-! ### Named queries -/

theorem Reads.commonTable (hg : g.Reads size) {table : CommonTable} (hw : table.WellFormed)
    (hs : (tokensOf table.pieces).length < size) (r : List Spelled) :
    g.commonTable.Reads table.levels (tokensOf table.pieces ++ r) table r := by
  obtain ⟨name, columns, q⟩ := table
  rw [CommonTable.WellFormed] at hw
  simp only [CommonTable.pieces, tokensOf_append, tokensOf_name, tokensOf_nil, tokensOf_clause,
    tokensOf_keyword, List.cons_append, List.nil_append, List.append_assoc, List.length_cons,
    List.length_append] at hs ⊢
  have shorter : (tokensOf q.pieces).length < size := by
    rw [tokensOf_parens, List.length_cons, List.length_append] at hs
    omega
  rw [CommonTable.levels]
  unfold Grammar.commonTable
  refine (reads_identifier (name?_nameToken name) _).next ?_
  refine (reads_optionalNameList columns fun _ => by simp).next ?_
  refine (reads_expect (Terminal.admits_self AS) _).next ?_
  exact (hg.subquery hw shorter r).last (.pure _ r)

theorem Reads.withClause (hg : g.Reads size) {tables : WithClause} (hw : tables.WellFormed)
    (hs : (tokensOf tables.pieces).length ≤ size)
    (hr : (Terminal.symbol comma).admits (kindAt r 0) = false) :
    (optional WITH g.withClause).Reads tables.levels (tokensOf tables.pieces ++ r) (some tables)
      r := by
  obtain ⟨recursive, tables⟩ := tables
  rw [WithClause.WellFormed, CommonTable.allWellFormed_iff] at hw
  obtain ⟨some, wellFormed⟩ := hw
  simp only [WithClause.pieces, tokensOf_append, tokensOf_ahead, tokensOf_keyword, tokensOf_nil,
    tokensOf_flag, CommonTable.each_eq, List.cons_append, List.nil_append, List.append_assoc,
    List.length_cons, List.length_append] at hs ⊢
  rw [WithClause.levels, CommonTable.allLevels_eq]
  have read : (commaList g.commonTable).Reads (greatest CommonTable.levels tables)
      (tokensOf (Piece.commas (tables.map CommonTable.pieces)) ++ r) tables r :=
    .commaList some (fun table hm r' _ => hg.commonTable (wellFormed table hm)
      (Nat.lt_of_le_of_lt (length_le_commas CommonTable.pieces hm) (by omega)) r') hr
  refine .optional_some (Terminal.admits_self WITH) ?_
  unfold Grammar.withClause
  cases recursive with
  | true => exact (reads_accept (Terminal.admits_self RECURSIVE) _).next (read.last (.pure _ r))
  | false =>
    have start : (Terminal.keyword RECURSIVE).admits (kindAt (tokensOf (Piece.commas
        (tables.map CommonTable.pieces)) ++ r) 0) = false := by
      obtain ⟨⟨name, columns, q⟩, tables, rfl⟩ := List.exists_cons_of_ne_nil some
      rw [List.map_cons, tokensOf_commas, List.append_assoc, CommonTable.pieces]
      exact admits_of_name? (name?_nameToken name) rfl
    exact (reads_accept_none start).next (read.last (.pure _ r))

/-! ### Limits and settings -/

/-- What can follow the settings of a query. -/
def settingsEnds : List Terminal := FORMAT :: queryEnds

/-- What can follow the limit of a query. -/
def limitEnds : List Terminal := SETTINGS :: settingsEnds

/-- What can follow the sort order of a query. -/
def orderEnds : List Terminal := LIMIT :: limitEnds

/-- The tokens of the limit that a query may have. -/
def limitTokens : Option Limit → List Spelled
  | none => []
  | some l => tokensOf l.pieces

theorem tokensOf_limit (count : Expr) (offset : Option Expr) :
    tokensOf (Limit.pieces ⟨count, offset⟩) =
      (Terminal.keyword LIMIT).spelled :: (tokensOf count.pieces ++ optionTokens OFFSET offset) := by
  unfold Limit.pieces
  cases offset <;> simp [optionTokens]

theorem begins_limitTokens (h : Begins ts r) (l : Option Limit) :
    Begins (.keyword LIMIT :: ts) (limitTokens l ++ r) := by
  cases l with
  | none => exact h.weaken LIMIT
  | some l =>
    obtain ⟨count, offset⟩ := l
    rw [limitTokens, tokensOf_limit]
    exact .first _ ts _

theorem Reads.limit (hg : g.Reads size) {l : Option Limit} (hw : ∀ a ∈ l, a.WellFormed)
    (hs : (limitTokens l).length ≤ size) (hr : Begins limitEnds r) :
    (optional LIMIT g.limit).Reads (levelsIn Limit.levels l) (limitTokens l ++ r) l r := by
  cases l with
  | none => exact .optional_none (hr.admits (by decide))
  | some l =>
    have wellFormed := hw l rfl
    obtain ⟨count, offset⟩ := l
    unfold Limit.WellFormed at wellFormed
    have offsets : ∀ a ∈ offset, a.WellFormed := by rintro a rfl; exact wellFormed.2
    rw [limitTokens, tokensOf_limit] at hs ⊢
    simp only [List.length_cons, List.length_append, List.cons_append, List.append_assoc] at hs ⊢
    rw [levelsIn, Limit.levels_eq]
    have offsetStart : Begins (.word OFFSET :: limitEnds) (optionTokens OFFSET offset ++ r) :=
      begins_optionTokens hr OFFSET offset
    refine .optional_some (Terminal.admits_self LIMIT) ?_
    unfold Grammar.limit
    refine .bind (hg.anyExpr wellFormed.1 (by omega) (.of_begins offsetStart (by decide))) ?_
    refine .rejected (offsetStart.admits (by decide)) ?_
    exact .last (hg.optionalExpr offsets (by omega) hr (by decide) (by decide)) (.pure _ r)

theorem Reads.setting (hg : g.Reads size) {setting : Setting} (hw : setting.WellFormed)
    (hs : (tokensOf setting.pieces).length < size) (hr : Ends 0 false r) :
    g.setting.Reads setting.levels (tokensOf setting.pieces ++ r) setting r := by
  obtain ⟨name, value⟩ := setting
  rw [Setting.WellFormed] at hw
  simp only [Setting.pieces, tokensOf_name, tokensOf_nil, tokensOf_clause, tokensOf_symbol,
    List.cons_append, List.nil_append, List.length_cons] at hs ⊢
  rw [Setting.levels]
  unfold Grammar.setting
  refine (reads_identifier (name?_nameToken name) _).next ?_
  refine (reads_expect (Terminal.admits_self equal) _).next ?_
  exact (hg.anyExpr hw (by omega) hr).last (.pure _ r)

/-- Settings with commas between them. -/
theorem Reads.settings (hg : g.Reads size) {settings : List Setting} (some : settings ≠ [])
    (hw : ∀ setting ∈ settings, setting.WellFormed)
    (hs : (tokensOf (Piece.commas (Setting.each settings))).length < size) (hr : Begins ts r)
    (ht : ts.all Terminal.endsExpr = true) (hc : .symbol comma ∉ ts) :
    (commaList g.setting).Reads (greatest Setting.levels settings)
      (tokensOf (Piece.commas (Setting.each settings)) ++ r) settings r := by
  rw [Setting.each_eq] at hs ⊢
  refine .commaList some (fun setting hm r' after => ?_) (hr.admits hc)
  exact hg.setting (hw setting hm)
    (Nat.lt_of_le_of_lt (length_le_commas Setting.pieces hm) hs) (Ends.of_afterItem after hr ht 0)

/-- Settings behind their word, if there are any. -/
theorem Reads.settingsClause (hg : g.Reads size) {settings : List Setting}
    (hw : ∀ setting ∈ settings, setting.WellFormed)
    (hs : (listTokens [SETTINGS] (Setting.each settings)).length ≤ size) (hr : Begins ts r)
    (ht : ts.all Terminal.endsExpr = true) (hc : .symbol comma ∉ ts) (hn : .keyword SETTINGS ∉ ts) :
    (optionalList SETTINGS (commaList g.setting)).Reads (greatest Setting.levels settings)
      (listTokens [SETTINGS] (Setting.each settings) ++ r) settings r := by
  cases settings with
  | nil => exact .optionalList_none (hr.admits hn)
  | cons setting settings =>
    have shorter : (tokensOf (Piece.commas (Setting.each (setting :: settings)))).length < size := by
      simp [listTokens, Setting.each] at hs ⊢
      omega
    exact .optionalList_some (Terminal.admits_self SETTINGS)
      (hg.settings (List.cons_ne_nil _ _) hw shorter hr ht hc)

/-! ### Whole queries -/

/-- The tokens of the named queries that a query may have. -/
def withTokens : Option WithClause → List Spelled
  | none => []
  | some tables => tokensOf tables.pieces

/-- The tokens of the format that a query may have. -/
def formatTokens : Option String → List Spelled
  | none => []
  | some format => [(Terminal.keyword FORMAT).spelled, labelToken format]

theorem tokensOf_listClause {head : List Piece} {ts : List Terminal} (items : List (List Piece))
    (h : tokensOf head = ts.map Terminal.spelled) :
    tokensOf (Piece.listClause head items) = listTokens ts items := by
  cases items <;> simp [Piece.listClause, listTokens, h]

theorem tokensOf_query (tables : Option WithClause) (body : QueryBody) (orderBy : List OrderItem)
    (limit : Option Limit) (settings : List Setting) (format : Option String) :
    tokensOf (Query.pieces ⟨tables, body, orderBy, limit, settings, format⟩) =
      withTokens tables ++ (tokensOf body.pieces ++ (listTokens [ORDER, BY] (OrderItem.each orderBy)
        ++ (limitTokens limit ++ (listTokens [SETTINGS] (Setting.each settings) ++
          formatTokens format)))) := by
  have orders : tokensOf (Piece.listClause [ORDER, BY] (OrderItem.each orderBy)) =
      listTokens [ORDER, BY] (OrderItem.each orderBy) := tokensOf_listClause _ (by simp)
  have all : tokensOf (Piece.listClause [SETTINGS] (Setting.each settings)) =
      listTokens [SETTINGS] (Setting.each settings) := tokensOf_listClause _ (by simp)
  unfold Query.pieces
  simp only [tokensOf_append, List.append_assoc, orders, all]
  cases tables <;> cases limit <;> cases format <;> simp [withTokens, limitTokens, formatTokens]

/-- A query starts with its first word or with a parenthesis. -/
theorem begins_query {q : Query} (hw : q.WellFormed) (s : List Spelled) :
    Begins [.keyword WITH, .keyword SELECT, .symbol leftParen] (tokensOf q.pieces ++ s) := by
  obtain ⟨tables, body, orderBy, limit, settings, format⟩ := q
  unfold Query.WellFormed at hw
  rw [tokensOf_query]
  cases tables with
  | none =>
    rw [withTokens, List.nil_append, List.append_assoc]
    exact (begins_body body hw.2.1 _).weaken WITH
  | some tables =>
    obtain ⟨recursive, tables⟩ := tables
    simp only [withTokens, WithClause.pieces, tokensOf_append, tokensOf_ahead, tokensOf_keyword]
    exact .first _ _ _

/-- A query is read back in front of everything that can follow it. -/
theorem Reads.queryRule (hg : g.Reads size) {q : Query} (hw : q.WellFormed)
    (hs : (tokensOf q.pieces).length ≤ size) (hr : Begins queryEnds r) :
    g.queryRule.Reads q.levels (tokensOf q.pieces ++ r) q r := by
  obtain ⟨tables, body, orderBy, limit, settings, format⟩ := q
  obtain ⟨ht, hb, ho, limits, hset⟩ := Query.wellFormed_iff.1 hw
  rw [← OrderItem.allWellFormed_iff] at ho
  rw [tokensOf_query] at hs ⊢
  simp only [List.length_append, List.append_assoc] at hs ⊢
  rw [Query.levels_eq, Setting.allLevels_eq]
  have formatStart : Begins settingsEnds (formatTokens format ++ r) := by
    cases format with
    | none => exact hr.weaken FORMAT
    | some format => exact .first _ _ _
  have settingsStart : Begins limitEnds (listTokens [SETTINGS] (Setting.each settings) ++
      (formatTokens format ++ r)) :=
    begins_listTokens formatStart _
  have limitStart : Begins orderEnds (limitTokens limit ++
      (listTokens [SETTINGS] (Setting.each settings) ++ (formatTokens format ++ r))) :=
    begins_limitTokens settingsStart limit
  have orderStart : Begins (ORDER :: orderEnds) (listTokens [ORDER, BY] (OrderItem.each orderBy) ++
      (limitTokens limit ++ (listTokens [SETTINGS] (Setting.each settings) ++
        (formatTokens format ++ r)))) :=
    begins_listTokens limitStart _
  unfold Grammar.queryRule
  refine .descend (.bind (a := tables) ?_ (.bind (hg.bodyRule hb (Nat.zero_le _) (by omega)
    (.of_begins orderStart (by decide) (by decide))) ?_))
  · cases tables with
    | none => exact .optional_none ((begins_body body hb _).admits (by decide))
    | some tables =>
      refine hg.withClause (ht tables rfl) ?_ ((begins_body body hb _).admits (by decide))
      rw [withTokens] at hs
      omega
  · refine .bind (hg.orderBy ho (by omega) limitStart (by decide) (by decide) (by decide)) ?_
    refine .bind (hg.limit limits (by omega) settingsStart) ?_
    refine .last (hg.settingsClause hset (by omega) formatStart (by decide) (by decide)
      (by decide)) ?_
    refine .next (a := format) (r := r) ?_ (.pure _ r)
    cases format with
    | none => exact .optional_none (hr.admits (by decide))
    | some format =>
      exact .optional_some (Terminal.admits_self FORMAT) (reads_label format .formatName r)

end Grammar

end CanonicalSql
