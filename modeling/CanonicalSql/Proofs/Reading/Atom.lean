import CanonicalSql.Proofs.Reading.Operand

/-! Reading back operands: names and calls, case distinctions, casts, intervals, and what stands
between parentheses or brackets. -/

namespace CanonicalSql

open Keyword Word CanonicalSql.Symbol

/-! ### The start of a query -/

/-- The first token of a body tells whether a parenthesis stands before its first `SELECT`. -/
theorem startsQuery_body : (b : QueryBody) → b.WellFormed → (s : List Spelled) →
    (kindAt (tokensOf b.pieces ++ s) 0).startsQuery = b.startsBare
  | .block ⟨_, _, _, _, _, _⟩, _, s => by
    unfold QueryBody.pieces SelectBlock.pieces
    simp [QueryBody.startsBare]
    rfl
  | .nested q, _, s => by
    rw [QueryBody.pieces]
    simp [QueryBody.startsBare]
    rfl
  | .compound op quantifier left right, h, s => by
    rw [QueryBody.WellFormed] at h
    have first := startsQuery_body left h.1
    have bare : decide (left.precedence < op.precedence) = false :=
      decide_eq_false (Nat.not_lt.mpr h.2.2.1)
    simp [QueryBody.pieces, QueryBody.startsBare, bare, Piece.parensIf, first]

theorem startsQuery_query {q : Query} (h : q.WellFormed) (s : List Spelled) :
    (kindAt (tokensOf q.pieces ++ s) 0).startsQuery = q.startsBare := by
  obtain ⟨tables, body, orderBy, limit, settings, format⟩ := q
  unfold Query.WellFormed at h
  unfold Query.pieces Query.startsBare
  cases tables with
  | none => simp [startsQuery_body body h.2.1]
  | some tables =>
    obtain ⟨recursive, tables⟩ := tables
    simp [WithClause.pieces]
    rfl

namespace Grammar

open Parse

variable {g : Grammar} {size level : Nat} {beforeOver : Bool} {r : List Spelled}

/-! ### Names and calls -/

theorem Reads.call (hg : g.Reads size) {function : String} {args : CallArgs} {distinct : Bool}
    {window : Option Window} (hc : Call.WellFormed ⟨function, args, distinct, window⟩)
    (hs : (callTokens args distinct window).length ≤ size) (hr : Ends level beforeOver r) :
    (g.call function).Reads (Call.levels ⟨function, args, distinct, window⟩ beforeOver)
      (callTokens args distinct window ++ r) (.call ⟨function, args, distinct, window⟩) r := by
  unfold Call.WellFormed at hc
  unfold callTokens at hs ⊢
  simp only [List.length_cons, List.length_append] at hs
  simp only [List.cons_append, List.append_assoc]
  have windows : ∀ w ∈ window, w.WellFormed := by
    rintro w rfl
    exact hc.2
  unfold Grammar.call
  rw [levels_call]
  refine .bind (a := (args, distinct)) (r := overTokens window ++ r)
    (.between (Terminal.admits_self leftParen) (Terminal.admits_self rightParen)
      (hg.callArgs hc.1 (by omega) _)) ?_
  exact .last (hg.overClause windows (by omega) hr) (.pure _ r)

/-- The parts of a column behind its first name. -/
def columnTail : ColumnRef → List Spelled
  | ⟨none, _⟩ => []
  | ⟨some ⟨none, _⟩, column⟩ => [(Terminal.symbol dot).spelled, nameToken column]
  | ⟨some ⟨some _, table⟩, column⟩ =>
    [(Terminal.symbol dot).spelled, nameToken table, (Terminal.symbol dot).spelled,
      nameToken column]

/-- The first name of a column. -/
def columnHead : ColumnRef → String
  | ⟨none, column⟩ => column
  | ⟨some ⟨none, table⟩, _⟩ => table
  | ⟨some ⟨some database, _⟩, _⟩ => database

theorem tokensOf_column (c : ColumnRef) :
    tokensOf c.pieces = nameToken (columnHead c) :: columnTail c := by
  rcases c with ⟨_ | ⟨_ | database, table⟩, column⟩ <;>
    simp [ColumnRef.pieces, QualifiedName.pieces, columnHead, columnTail]

theorem reads_named_column (c : ColumnRef) (hr : Ends level beforeOver r) :
    (g.named (columnHead c)).Reads 0 (columnTail c ++ r) (.column c) r := by
  unfold Grammar.named
  rcases c with ⟨_ | ⟨_ | database, table⟩, column⟩
  · exact .unseen hr.noCall (.rejected hr.noDot (.pure _ r))
  · refine .unseen (by simp [columnTail]) (.accepted (Terminal.admits_self dot) ?_)
    refine (reads_identifier (name?_nameToken column) r).next ?_
    exact .rejected hr.noDot (.pure _ r)
  · refine .unseen (by simp [columnTail]) (.accepted (Terminal.admits_self dot) ?_)
    refine (reads_identifier (name?_nameToken table) _).next ?_
    refine .accepted (Terminal.admits_self dot) ?_
    exact (reads_identifier (name?_nameToken column) r).next (.pure _ r)

theorem kind_of_spelled {token : Token} {t : Spelled} (h : token.spelled = t) :
    token.kind = t.kind := congrArg Spelled.kind h

/-- An operand that starts with a name is what the name starts. -/
theorem reads_operand_name {t : Spelled} {name : String} (ht : t.kind.name? = some name)
    {s : List Spelled} {n : ℕ∞} {e : Expr} (h : (g.named name).Reads n s e r) :
    g.operand.Reads n (t :: s) e r := by
  unfold Grammar.operand
  refine .advance fun token same => ?_
  rw [kind_of_spelled same]
  cases hk : t.kind with
  | ident _ | quotedIdent _ =>
    rw [hk] at ht
    cases ht
    exact h
  | _ => simp [hk, Token.Kind.name?] at ht

/-- An operand that starts with a keyword is what the keyword starts. -/
theorem reads_operand_keyword (k : Keyword) {s : List Spelled} {n : ℕ∞} {e : Expr}
    (h : ∀ token : Token, (g.keywordOperand token k).Reads n s e r) :
    g.operand.Reads n ((Terminal.keyword k).spelled :: s) e r := by
  unfold Grammar.operand
  refine .advance fun token same => ?_
  rw [kind_of_spelled same]
  exact h token

/-- An operand that starts with a symbol is what the symbol starts. -/
theorem reads_operand_symbol (c : Symbol) {s : List Spelled} {n : ℕ∞} {e : Expr}
    (h : ∀ token : Token, (g.symbolOperand token c).Reads n s e r) :
    g.operand.Reads n ((Terminal.symbol c).spelled :: s) e r := by
  unfold Grammar.operand
  refine .advance fun token same => ?_
  rw [kind_of_spelled same]
  exact h token

/-- A call of a function, whose name can be a keyword. -/
theorem reads_operand_call {name : String} {s : List Spelled} {n : ℕ∞} {e : Expr}
    (hs : (Terminal.symbol leftParen).admits (kindAt s 0) = true)
    (h : (g.call name).Reads n s e r) :
    g.operand.Reads n (functionNameToken name :: s) e r := by
  rcases kind_functionNameToken name with hk | ⟨k, word, hk⟩
  · exact reads_operand_name hk (.seen hs h)
  · unfold Grammar.operand
    refine .advance fun token same => ?_
    obtain ⟨kind, text⟩ : token.kind = .keyword k ∧ token.text = name := by
      rw [hk] at same
      exact ⟨congrArg Spelled.kind same, congrArg Spelled.text same⟩
    have called : (g.keywordOperand token k).Reads n s e r := by
      have called : (sees leftParen >>= fun found => if found = true then g.call token.text
          else failAt token .expression).Reads n s e r := .seen hs (text.symm ▸ h)
      cases k <;> first | exact called | cases word
    rw [kind]
    exact called

/-! ### Case distinctions -/

theorem length_le_arms (arms : List CaseArm) :
    arms.length ≤ (tokensOf (CaseArm.allPieces arms)).length := by
  induction arms with
  | nil => exact Nat.zero_le _
  | cons arm arms ih =>
    obtain ⟨condition, result⟩ := arm
    simp [CaseArm.allPieces, CaseArm.pieces]
    omega

/-- What can follow the arms of a case distinction. -/
def armEnds : List Terminal := [WHEN, ELSE, END]

theorem begins_arms (arms : List CaseArm) (hr : Begins armEnds r) :
    Begins armEnds (tokensOf (CaseArm.allPieces arms) ++ r) := by
  cases arms with
  | nil => exact hr
  | cons arm arms =>
    obtain ⟨condition, result⟩ := arm
    simp only [CaseArm.allPieces, CaseArm.pieces, tokensOf_append, tokensOf_clause,
      tokensOf_keyword, tokensOf_nil, List.cons_append, List.append_assoc]
    exact .cons (by decide) _

theorem Reads.caseArms (hg : g.Reads size) {arms : List CaseArm}
    (ha : CaseArm.AllWellFormed arms) (hs : (tokensOf (CaseArm.allPieces arms)).length < size)
    (count : Nat) (enough : arms.length ≤ count) (hr : Begins armEnds r)
    (hw : (Terminal.keyword WHEN).admits (kindAt r 0) = false) :
    (g.caseArms count).Reads (CaseArm.allLevels arms)
      (tokensOf (CaseArm.allPieces arms) ++ r) arms r := by
  induction arms generalizing count with
  | nil =>
    cases count with
    | zero => exact .pure [] r
    | succ count => exact .rejected hw (.pure [] r)
  | cons arm arms ih =>
    obtain ⟨condition, result⟩ := arm
    obtain ⟨count, rfl⟩ : ∃ m, count = m + 1 := ⟨count - 1, by simp at enough; omega⟩
    rw [CaseArm.AllWellFormed, CaseArm.WellFormed] at ha
    simp only [CaseArm.allPieces, CaseArm.pieces, tokensOf_append, tokensOf_clause,
      tokensOf_keyword, tokensOf_nil, List.cons_append, List.nil_append, List.append_assoc,
      List.length_cons, List.length_append] at hs ⊢
    have others := ih ha.2 (by omega) count (by simpa using enough)
    unfold Grammar.caseArms
    rw [CaseArm.allLevels, CaseArm.levels]
    refine .accepted (Terminal.admits_self WHEN) ?_
    refine .cast (.bind (hg.anyExpr ha.1.1 (by omega) (.of_terminal (t := THEN) (by decide) _))
      (.next (reads_expect (Terminal.admits_self THEN) _)
        (.bind (hg.anyExpr ha.1.2 (by omega) (.of_begins (begins_arms arms hr) (by decide)))
          (others.last (.pure _ r))))) ?_
    exact (max_assoc _ _ _).symm

/-- The tokens of an expression that may be missing, behind a terminal. -/
def optionTokens (t : Terminal) : Option Expr → List Spelled
  | none => []
  | some e => t.spelled :: tokensOf e.pieces

theorem begins_optionTokens {ts : List Terminal} (h : Begins ts r) (t : Terminal)
    (e : Option Expr) : Begins (t :: ts) (optionTokens t e ++ r) := by
  cases e with
  | none => exact h.weaken t
  | some e => exact .first t ts _

/-- An expression that may be missing, behind a terminal. -/
theorem Reads.optionalExpr (hg : g.Reads size) {t : Terminal} {e : Option Expr}
    (he : ∀ a ∈ e, a.WellFormed) (hs : (optionTokens t e).length ≤ size)
    {ts : List Terminal} (hr : Begins ts r) (ht : t ∉ ts)
    (hts : ts.all Terminal.endsExpr = true) :
    (Parse.optional t g.anyExpr).Reads (levelsIn (Expr.levels false) e) (optionTokens t e ++ r) e
      r := by
  cases e with
  | none => exact .optional_none (hr.admits ht)
  | some e =>
    simp only [optionTokens, List.length_cons] at hs
    exact .optional_some (Terminal.admits_self t)
      (hg.anyExpr (he e rfl) (by omega) (.of_begins hr hts))

theorem tokensOf_cases (operand : Option Expr) (arms : List CaseArm) (otherwise : Option Expr) :
    tokensOf (Expr.pieces (.cases operand arms otherwise)) =
      (Terminal.keyword CASE).spelled ::
        ((match operand with | none => [] | some e => tokensOf e.pieces) ++
          (tokensOf (CaseArm.allPieces arms) ++
            (optionTokens ELSE otherwise ++ [(Terminal.keyword END).spelled]))) := by
  conv_lhs => unfold Expr.pieces
  cases operand <;> cases otherwise <;> simp [optionTokens]

/-- The arms of a case distinction and what is behind them. -/
theorem Reads.armsAndEnd (hg : g.Reads size) {arms : List CaseArm} {otherwise : Option Expr}
    (arm : arms ≠ []) (ha : CaseArm.AllWellFormed arms) (hl : ∀ e ∈ otherwise, e.WellFormed)
    (hs : (tokensOf (CaseArm.allPieces arms)).length + (optionTokens ELSE otherwise).length < size)
    (operand : Option Expr) (r : List Spelled) :
    Parse.Reads (do
        let arms ← g.caseArms (← remaining)
        if arms.isEmpty then fail .caseArm
        let otherwise ← optional ELSE g.anyExpr
        expect END
        return Expr.cases operand arms otherwise)
      (max (CaseArm.allLevels arms) (levelsIn (Expr.levels false) otherwise))
      (tokensOf (CaseArm.allPieces arms) ++
        (optionTokens ELSE otherwise ++ (Terminal.keyword END).spelled :: r))
      (.cases operand arms otherwise) r := by
  have ends : Begins [ELSE, END]
      (optionTokens ELSE otherwise ++ (Terminal.keyword END).spelled :: r) :=
    begins_optionTokens (.first _ _ r) ELSE otherwise
  refine (reads_remaining _).next ?_
  refine .bind (hg.caseArms ha (by omega) _ ?_ (ends.mono (by decide)) (ends.admits (by decide))) ?_
  · have shorter := length_le_arms arms
    rw [List.length_append]
    omega
  · have nonempty : arms.isEmpty = false := by
      cases arms with
      | nil => exact absurd rfl arm
      | cons arm arms => rfl
    simp only [nonempty]
    refine .last (hg.optionalExpr hl (by omega) (Begins.cons (List.mem_singleton_self (.keyword END)) r)
      (by decide) (by decide)) ?_
    exact (reads_expect (Terminal.admits_self END) r).next (.pure _ r)

theorem Reads.cases (hg : g.Reads size) {operand : Option Expr} {arms : List CaseArm}
    {otherwise : Option Expr} (he : (Expr.cases operand arms otherwise).WellFormed)
    (hs : (tokensOf (Expr.pieces (.cases operand arms otherwise))).length ≤ size)
    (r : List Spelled) :
    g.operand.Reads ((Expr.cases operand arms otherwise).inner beforeOver)
      (tokensOf (Expr.pieces (.cases operand arms otherwise)) ++ r)
      (.cases operand arms otherwise) r := by
  unfold Expr.WellFormed at he
  obtain ⟨ho, arm, ha, hl⟩ := he
  rw [tokensOf_cases] at hs ⊢
  simp only [List.length_cons, List.length_append, List.cons_append, List.append_assoc,
    List.nil_append] at hs ⊢
  have others : ∀ e ∈ otherwise, e.WellFormed := by
    rintro e rfl
    exact hl
  have rest := hg.armsAndEnd arm ha others (by omega) operand r
  refine reads_operand_keyword CASE fun token => ?_
  change g.cases.Reads _ _ _ _
  unfold Grammar.cases
  rw [Expr.inner_cases]
  cases operand with
  | none =>
    have first : (Terminal.keyword WHEN).admits (kindAt (tokensOf (CaseArm.allPieces arms) ++
        (optionTokens ELSE otherwise ++ (Terminal.keyword END).spelled :: r)) 0) = true := by
      obtain ⟨⟨condition, result⟩, arms, rfl⟩ := List.exists_cons_of_ne_nil arm
      simp [CaseArm.allPieces, CaseArm.pieces]
    exact .seen first (.bind (.pure none _) rest)
  | some e =>
    have start : (Terminal.keyword WHEN).admits (kindAt (tokensOf e.pieces ++
        (tokensOf (CaseArm.allPieces arms) ++ (optionTokens ELSE otherwise ++
          (Terminal.keyword END).spelled :: r))) 0) = false :=
      admits_of_startsExpr (startsExpr_tokensOf e _) rfl
    dsimp only at hs
    refine .unseen start (.bind (.map (hg.anyExpr ho (by omega) ?_)) rest)
    have ends : Begins [ELSE, END]
        (optionTokens ELSE otherwise ++ (Terminal.keyword END).spelled :: r) :=
      begins_optionTokens (.first _ _ r) ELSE otherwise
    exact .of_begins (begins_arms arms (ends.weaken WHEN)) (by decide)

/-! ### Between parentheses -/

theorem Reads.subquery (hg : g.Reads size) {q : Query} (hq : q.WellFormed)
    (hs : (tokensOf q.pieces).length < size) (r : List Spelled) :
    (between leftParen rightParen g.query).Reads q.levels (tokensOf (Piece.parens q.pieces) ++ r) q
      r := by
  rw [tokensOf_parens, List.cons_append, List.append_assoc]
  exact .between (Terminal.admits_self leftParen) (Terminal.admits_self rightParen)
    (hg.query hq hs (.cons (t := rightParen) (by decide) r))

/-- What a left parenthesis starts in the place of an operand. -/
theorem reads_operand_parens {ps : List Piece} {n : ℕ∞} {e : Expr}
    (h : g.parenthesized.Reads n (tokensOf ps ++ (Terminal.symbol rightParen).spelled :: r) e
      ((Terminal.symbol rightParen).spelled :: r)) :
    g.operand.Reads n (tokensOf (Piece.parens ps) ++ r) e r := by
  rw [tokensOf_parens, List.cons_append, List.append_assoc]
  exact reads_operand_symbol leftParen fun token =>
    h.last ((reads_expect (Terminal.admits_self rightParen) r).next (.pure e r))

/-- What expressions between parentheses stand for: a single one for itself. -/
def listed : List Expr → Expr
  | [item] => item
  | items => .tuple items

/-- A list of expressions between parentheses is no query. -/
theorem Reads.parenthesizedList (hg : g.Reads size) {es : List Expr} (some : es ≠ [])
    (he : Expr.AllWellFormed es) (hs : (tokensOf (Piece.commas (Expr.each es))).length < size)
    (r : List Spelled) :
    g.parenthesized.Reads (Expr.allLevels es)
      (tokensOf (Piece.commas (Expr.each es)) ++ (Terminal.symbol rightParen).spelled :: r)
      (listed es) ((Terminal.symbol rightParen).spelled :: r) := by
  unfold Grammar.parenthesized
  refine (reads_peek _).next ?_
  rw [startsQuery_of_startsExpr (startsExpr_commas some _)]
  refine .last (hg.exprs some he hs (.cons (t := rightParen) (List.mem_singleton_self _) r)
    (by decide) (by decide)) ?_
  rcases es with _ | ⟨e, _ | ⟨e', es⟩⟩
  · exact absurd rfl some
  · exact .pure _ _
  · exact .pure _ _

theorem Reads.parenthesizedQuery (hg : g.Reads size) {q : Query} (hq : q.WellFormed)
    (bare : q.startsBare = true) (hs : (tokensOf q.pieces).length < size) (r : List Spelled) :
    g.parenthesized.Reads q.levels (tokensOf q.pieces ++ (Terminal.symbol rightParen).spelled :: r)
      (.subquery q) ((Terminal.symbol rightParen).spelled :: r) := by
  unfold Grammar.parenthesized
  refine (reads_peek _).next ?_
  rw [startsQuery_query hq, bare]
  exact (hg.query hq hs (.cons (t := rightParen) (by decide) r)).last (.pure _ _)

/-- An expression between parentheses of its own. -/
theorem Reads.grouped (hg : g.Reads size) {e : Expr} (he : e.WellFormed)
    (hs : (tokensOf e.pieces).length < size) (r : List Spelled) :
    g.operand.Reads (e.levels false) (tokensOf (Piece.parens e.pieces) ++ r) e r := by
  refine reads_operand_parens ?_
  have alone : Piece.commas (Expr.each [e]) = e.pieces := by
    simp [Expr.each, Piece.commas, List.intercalate]
  have wellFormed : Expr.AllWellFormed [e] := by simpa [Expr.AllWellFormed] using he
  have read := hg.parenthesizedList (List.cons_ne_nil e []) wellFormed (by rwa [alone]) r
  rw [alone] at read
  refine read.cast ?_
  rw [Expr.allLevels, Expr.allLevels, Expr.levels]
  exact max_eq_left zero_le

/-! ### Casts and intervals -/

theorem Reads.cast (hg : g.Reads size) {value : Expr} {type : DataType} (hv : value.WellFormed)
    (hs : (tokensOf (Expr.pieces (.cast value type))).length ≤ size) (r : List Spelled) :
    g.operand.Reads ((Expr.cast value type).inner beforeOver)
      (tokensOf (Expr.pieces (.cast value type)) ++ r) (.cast value type) r := by
  simp only [Expr.pieces, tokensOf_append, tokensOf_keyword, tokensOf_nil, tokensOf_parens,
    tokensOf_clause, List.cons_append, List.nil_append, List.append_assoc, List.length_cons,
    List.length_append] at hs ⊢
  refine reads_operand_keyword CAST fun token => ?_
  refine .between (Terminal.admits_self leftParen) (Terminal.admits_self rightParen) ?_
  refine .last (hg.anyExpr hv (by omega) (.of_terminal (t := AS) (by decide) _)) ?_
  refine (reads_expect (Terminal.admits_self AS) _).next ?_
  exact (hg.dataType (by omega) (by simp)).next (.pure _ _)

theorem Reads.interval (hg : g.Reads size) {value : Expr} {u : String}
    (he : (Expr.interval value u).WellFormed)
    (hs : (tokensOf (Expr.pieces (.interval value u))).length ≤ size)
    (hr : (Terminal.symbol leftParen).admits (kindAt r 0) = false) :
    g.operand.Reads ((Expr.interval value u).inner beforeOver)
      (tokensOf (Expr.pieces (.interval value u)) ++ r) (.interval value u) r := by
  rw [Expr.WellFormed] at he
  obtain ⟨hv, -, capital⟩ := he
  simp only [Expr.pieces, tokensOf_append, tokensOf_ahead, tokensOf_keyword, tokensOf_nil,
    tokensOf_space, tokensOf_unit, List.cons_append, List.nil_append, List.append_assoc,
    List.length_cons, List.length_append] at hs ⊢
  refine reads_operand_keyword INTERVAL fun token => ?_
  refine .last (hg.placed hv (by omega) (.of_unit u r hr)) ?_
  refine (reads_peek _).next ?_
  refine (reads_discard_advance _ r).next ?_
  rw [capital]
  exact .pure _ r

/-! ### Operands -/

theorem Reads.array (hg : g.Reads size) {es : List Expr} (he : Expr.AllWellFormed es)
    (hs : (tokensOf (Piece.commas (Expr.each es))).length < size) (r : List Spelled) :
    g.operand.Reads (Expr.allLevels es) (tokensOf (Expr.pieces (.array es)) ++ r) (.array es) r := by
  simp only [Expr.pieces, tokensOf_append, tokensOf_symbol, tokensOf_nil, List.cons_append,
    List.nil_append, List.append_assoc]
  refine reads_operand_symbol leftBracket fun token => ?_
  refine .last (hg.exprsUpTo (c := rightBracket) he hs (by decide) (by decide) rfl r) ?_
  exact (reads_expect (Terminal.admits_self rightBracket) r).next (.pure _ r)

theorem reads_literal (value : Literal) (r : List Spelled) :
    g.operand.Reads 0 (tokensOf (Expr.pieces (.literal value)) ++ r) (.literal value) r := by
  rw [Expr.pieces]
  rcases value with t | v | ⟨_ | _⟩ | _
  · simp only [Literal.piece, tokensOf_number, tokensOf_nil, List.cons_append, List.nil_append]
    unfold Grammar.operand
    refine .advance fun token same => ?_
    rw [kind_of_spelled same]
    exact .pure _ r
  · unfold Grammar.operand
    refine .advance (t := stringToken v) fun token same => ?_
    rw [kind_of_spelled same]
    exact .pure _ r
  · simp only [Literal.piece, tokensOf_keyword, tokensOf_nil, List.cons_append, List.nil_append]
    exact reads_operand_keyword FALSE fun token => .pure _ r
  · simp only [Literal.piece, tokensOf_keyword, tokensOf_nil, List.cons_append, List.nil_append]
    exact reads_operand_keyword TRUE fun token => .pure _ r
  · simp only [Literal.piece, tokensOf_keyword, tokensOf_nil, List.cons_append, List.nil_append]
    exact reads_operand_keyword NULL fun token => .pure _ r

theorem reads_placeholder (p : Placeholder) (r : List Spelled) :
    g.operand.Reads 0 (tokensOf (Expr.pieces (.placeholder p)) ++ r) (.placeholder p) r := by
  rw [Expr.pieces]
  unfold Grammar.operand
  refine .advance (t := placeholderToken p) fun token same => ?_
  rw [kind_of_spelled same]
  cases p <;> exact .pure _ r

/-- An operand without an operator of its own is read back, as is any between parentheses. -/
theorem Reads.operand (hg : g.Reads size) {grouped : Bool} {e : Expr} (he : e.WellFormed)
    (atom : grouped = false → e.precedence = Precedence.atom)
    (hs : (tokensOf (Piece.parensIf grouped e.pieces)).length ≤ size) (hr : Ends level beforeOver r) :
    g.operand.Reads (if grouped then e.levels false else e.inner beforeOver)
      (tokensOf (Piece.parensIf grouped e.pieces) ++ r) e r := by
  cases grouped with
  | true =>
    simp only [Piece.parensIf, ↓reduceIte, tokensOf_parens, List.length_cons,
      List.length_append] at hs
    exact hg.grouped he (by omega) r
  | false =>
    have atom := atom rfl
    simp only [Piece.parensIf, Bool.false_eq_true, ↓reduceIte] at hs ⊢
    cases e with
    | literal value =>
      rw [Expr.inner]
      exact reads_literal value r
    | placeholder p =>
      rw [Expr.inner]
      exact reads_placeholder p r
    | column c =>
      rw [Expr.inner, Expr.pieces, tokensOf_column, List.cons_append]
      exact reads_operand_name (name?_nameToken _) (reads_named_column c hr)
    | call c =>
      obtain ⟨function, args, distinct, window⟩ := c
      rw [Expr.WellFormed] at he
      rw [Expr.pieces, tokensOf_call] at hs ⊢
      rw [Expr.inner, List.cons_append]
      rw [List.length_cons] at hs
      exact reads_operand_call (Terminal.admits_self leftParen) (hg.call he (by omega) hr)
    | cases operand arms otherwise => exact hg.cases he hs r
    | cast value type =>
      rw [Expr.WellFormed] at he
      exact hg.cast he.1 hs r
    | interval value u => exact hg.interval he hs hr.noCall
    | existence q =>
      rw [Expr.WellFormed] at he
      simp only [Expr.pieces, tokensOf_append, tokensOf_ahead, tokensOf_keyword, tokensOf_nil,
        tokensOf_parens, List.cons_append, List.nil_append, List.append_assoc, List.length_cons,
        List.length_append] at hs ⊢
      have read := hg.subquery he (by omega) r
      rw [tokensOf_parens, List.cons_append, List.append_assoc] at read
      rw [Expr.inner]
      exact reads_operand_keyword EXISTS fun token => read.last (.pure _ r)
    | subquery q =>
      rw [Expr.WellFormed] at he
      rw [Expr.pieces, tokensOf_parens, List.length_cons, List.length_append] at hs
      rw [Expr.pieces, Expr.inner]
      exact reads_operand_parens (hg.parenthesizedQuery he.1 he.2 (by omega) r)
    | tuple items =>
      rw [Expr.WellFormed] at he
      rw [Expr.pieces, tokensOf_parens, List.length_cons, List.length_append] at hs
      rw [Expr.pieces, Expr.inner]
      obtain ⟨first, second, items, rfl⟩ : ∃ a b es, items = a :: b :: es := by
        rcases items with _ | ⟨a, _ | ⟨b, es⟩⟩
        · exact absurd he.1 (by simp)
        · exact absurd he.1 (by simp)
        · exact ⟨a, b, es, rfl⟩
      exact reads_operand_parens (hg.parenthesizedList (by simp) he.2 (by omega) r)
    | array items =>
      rw [Expr.WellFormed] at he
      have shorter : (tokensOf (Piece.commas (Expr.each items))).length < size := by
        simp only [Expr.pieces, tokensOf_append, tokensOf_symbol, tokensOf_nil, List.cons_append,
          List.nil_append, List.length_cons, List.length_append] at hs
        omega
      rw [Expr.inner]
      exact hg.array he shorter r
    | binary left op right => cases op <;> cases atom
    | unary op operand => cases op <;> cases atom
    | _ => cases atom

/-! ### Types -/

theorem Reads.typeArgument (hg : g.Reads size) {arg : DataTypeArg}
    (hs : (tokensOf arg.pieces).length < size)
    (hr : (Terminal.symbol leftParen).admits (kindAt r 0) = false) :
    g.typeArgument.Reads 0 (tokensOf arg.pieces ++ r) arg r := by
  unfold Grammar.typeArgument
  cases arg with
  | number t =>
    simp only [DataTypeArg.pieces, tokensOf_number, tokensOf_nil, List.cons_append,
      List.nil_append]
    refine (reads_peek _).next ?_
    exact (reads_discard_advance _ r).next (.pure _ r)
  | string v =>
    rw [DataTypeArg.pieces, tokensOf_string]
    refine (reads_peek _).next ?_
    exact (reads_discard_advance _ r).next (.pure _ r)
  | type type =>
    rw [DataTypeArg.pieces] at hs ⊢
    have read := hg.dataType hs hr
    obtain ⟨name, args⟩ := type
    have named : ∃ s, tokensOf (DataType.pieces ⟨name, args⟩) ++ r = typeNameToken name :: s := by
      rw [DataType.pieces, tokensOf_typeName]
      exact ⟨_, rfl⟩
    obtain ⟨s, hs⟩ := named
    rw [hs] at read ⊢
    refine (reads_peek _).next ?_
    rw [kindAt_cons_zero]
    have written := name?_typeNameToken name
    cases hk : (typeNameToken name).kind with
    | ident _ | quotedIdent _ => exact read.next (.pure _ r)
    | _ => simp [hk, Token.Kind.name?] at written

/-- An argument of a type does not start with a parenthesis. -/
theorem admits_typeArgument (arg : DataTypeArg) (closing : Symbol) (s : List Spelled) :
    (Terminal.symbol closing).admits (kindAt (tokensOf arg.pieces ++ s) 0) = false := by
  cases arg with
  | number t => simp [DataTypeArg.pieces, Terminal.admits]
  | string v => rfl
  | type type =>
    obtain ⟨name, args⟩ := type
    rw [DataTypeArg.pieces, DataType.pieces, tokensOf_typeName, List.cons_append,
      kindAt_cons_zero]
    exact admits_of_name? (name?_typeNameToken name) rfl

theorem Reads.dataTypeRule (hg : g.Reads size) {type : DataType}
    (hs : (tokensOf type.pieces).length ≤ size)
    (hr : (Terminal.symbol leftParen).admits (kindAt r 0) = false) :
    g.dataTypeRule.Reads 0 (tokensOf type.pieces ++ r) type r := by
  obtain ⟨name, args⟩ := type
  rw [DataType.pieces, tokensOf_typeName] at hs ⊢
  rw [List.cons_append]
  rw [List.length_cons] at hs
  unfold Grammar.dataTypeRule
  refine (reads_peek _).next ?_
  rw [kindAt_cons_zero, name?_typeNameToken]
  refine (reads_discard_advance _ _).next ?_
  cases args with
  | nil => exact .next (.optionalList_none hr) (.pure _ r)
  | cons arg args =>
    have printed : Piece.optionalParens (DataTypeArg.each (arg :: args)) =
        Piece.parens (Piece.commas ((arg :: args).map DataTypeArg.pieces)) := by
      rw [← DataTypeArg.each_eq]
      rfl
    rw [printed, tokensOf_parens] at hs ⊢
    simp only [List.length_cons, List.length_append, List.cons_append, List.append_assoc] at hs ⊢
    refine .next (.optionalList_some (Terminal.admits_self leftParen) (.cast (.last
      (.commaListUpTo (c := rightParen) (fun a hm r' after => ?_) (by simp) (by simp)
        fun a _ s => admits_typeArgument a rightParen s) ?_) (greatest_zero (arg :: args))))
      (.pure _ r)
    · refine hg.typeArgument (Nat.lt_of_le_of_lt (length_le_commas DataTypeArg.pieces hm) (by omega))
        ?_
      rcases after with rfl | ⟨s, rfl⟩
      · simp
      · simp
    · exact (reads_expect (Terminal.admits_self rightParen) r).next (.pure _ r)

end Grammar

end CanonicalSql
