import CanonicalSql.Proofs.Lexing.Text

/-! Pieces that can stand together in a statement: none of them runs into the next one, and none ends
the statement.  Printed text is put together from coherent parts which start or end with a piece that
breaks. -/

namespace CanonicalSql

/-- Whether pieces can stand together in a statement. -/
def Coherent (ps : List Piece) : Prop := Apart ps ∧ ∀ p ∈ ps, p ≠ .symbol .semicolon

namespace Piece

/-- Whether a piece breaks within a statement. -/
def isJoint (p : Piece) : Bool := p.isBreak && !p matches .symbol .semicolon

@[simp] theorem isJoint_space : isJoint .space = true := by decide
@[simp] theorem isJoint_comma : isJoint (.symbol .comma) = true := by decide
@[simp] theorem isJoint_leftParen : isJoint (.symbol .leftParen) = true := by decide
@[simp] theorem isJoint_rightParen : isJoint (.symbol .rightParen) = true := by decide
@[simp] theorem isJoint_leftBracket : isJoint (.symbol .leftBracket) = true := by decide
@[simp] theorem isJoint_rightBracket : isJoint (.symbol .rightBracket) = true := by decide

theorem isBreak_of_isJoint {p : Piece} (h : p.isJoint = true) : p.isBreak = true :=
  (Bool.and_eq_true_iff.1 h).1

theorem ne_semicolon_of_isJoint {p : Piece} (h : p.isJoint = true) : p ≠ .symbol .semicolon := by
  rintro rfl
  cases h

theorem meets_of_isBreak_left {p : Piece} (h : p.isBreak = true) (q : Piece) :
    p.meets q = true := by
  simp [meets, h]

theorem meets_of_isBreak_right {q : Piece} (h : q.isBreak = true) (p : Piece) :
    p.meets q = true := by
  simp [meets, h]

end Piece

/-! ### Putting pieces together -/

section

variable {p q : Piece} {ps qs : List Piece}

theorem apart_append : Apart (ps ++ qs) ↔
    Apart ps ∧ Apart qs ∧ ∀ p ∈ ps.getLast?, ∀ q ∈ qs.head?, p.meets q = true :=
  List.isChain_append

/-- A piece that breaks can stand in front of everything. -/
theorem apart_cons_of_isBreak (h : p.isBreak = true) : Apart (p :: ps) ↔ Apart ps := by
  rw [← List.singleton_append, apart_append]
  simp [Apart, Piece.meets_of_isBreak_left h]

/-- A piece that breaks can stand between everything. -/
theorem apart_append_of_isBreak (h : q.isBreak = true) :
    Apart (ps ++ q :: qs) ↔ Apart ps ∧ Apart qs := by
  rw [apart_append, apart_cons_of_isBreak h]
  simp [Piece.meets_of_isBreak_right h]

@[simp] theorem coherent_nil : Coherent [] := ⟨.nil, List.forall_mem_nil _⟩

@[simp] theorem coherent_singleton : Coherent [p] ↔ p ≠ .symbol .semicolon := by
  simp [Coherent, Apart]

theorem coherent_append : Coherent (ps ++ qs) ↔
    Coherent ps ∧ Coherent qs ∧ ∀ p ∈ ps.getLast?, ∀ q ∈ qs.head?, p.meets q = true := by
  rw [Coherent, apart_append, List.forall_mem_append]
  exact ⟨fun h => ⟨⟨h.1.1, h.2.1⟩, ⟨h.1.2.1, h.2.2⟩, h.1.2.2⟩,
    fun h => ⟨⟨h.1.1, h.2.1.1, h.2.2⟩, h.1.2, h.2.1.2⟩⟩

/-- A joint can stand in front of everything. -/
@[simp] theorem coherent_cons_of_isJoint (h : p.isJoint = true) :
    Coherent (p :: ps) ↔ Coherent ps := by
  rw [Coherent, apart_cons_of_isBreak (Piece.isBreak_of_isJoint h), List.forall_mem_cons]
  simp [Coherent, Piece.ne_semicolon_of_isJoint h]

/-- A joint can stand between everything. -/
@[simp] theorem coherent_append_of_isJoint (h : q.isJoint = true) :
    Coherent (ps ++ q :: qs) ↔ Coherent ps ∧ Coherent qs := by
  rw [coherent_append, coherent_cons_of_isJoint h]
  simp [Piece.meets_of_isBreak_right (Piece.isBreak_of_isJoint h)]

/-- A joint can stand behind every single piece. -/
@[simp] theorem coherent_cons_cons_of_isJoint (h : q.isJoint = true) :
    Coherent (p :: q :: qs) ↔ p ≠ .symbol .semicolon ∧ Coherent qs := by
  rw [← List.singleton_append, coherent_append_of_isJoint h, coherent_singleton]

end

/-- Between words there are spaces. -/
@[simp] theorem coherent_phrase {ps : List Piece} :
    Coherent (Piece.phrase ps) ↔ ∀ p ∈ ps, p ≠ .symbol .semicolon := by
  induction ps with
  | nil => simp
  | cons p ps ih =>
    cases ps with
    | nil => simp
    | cons q ps => simp [ih]

@[simp] theorem coherent_parens {ps : List Piece} : Coherent (Piece.parens ps) ↔ Coherent ps := by
  simp [Piece.parens]

@[simp] theorem coherent_parensIf {needed : Bool} {ps : List Piece} :
    Coherent (Piece.parensIf needed ps) ↔ Coherent ps := by
  cases needed <;> simp [Piece.parensIf]

@[simp] theorem coherent_placed {e : Expr} {level : Nat} {ps : List Piece} :
    Coherent (e.placed level ps) ↔ Coherent ps := coherent_parensIf

@[simp] theorem coherent_commas {items : List (List Piece)} :
    Coherent (Piece.commas items) ↔ ∀ item ∈ items, Coherent item := by
  induction items with
  | nil => simp
  | cons item items ih =>
    cases items with
    | nil => simp
    | cons next items => simp_all

/-- Coherent parts with blanks between them are coherent. -/
theorem coherent_intercalate_space {parts : List (List Piece)}
    (h : ∀ part ∈ parts, Coherent part) : Coherent (List.intercalate [.space] parts) := by
  induction parts with
  | nil => exact coherent_nil
  | cons part parts ih =>
    cases parts with
    | nil => simpa [List.intercalate] using h
    | cons next parts =>
      have others := ih fun part hp => h part (by simp [hp])
      simp_all [List.intercalate]

@[simp] theorem coherent_names (ns : List String) : Coherent (Piece.names ns) := by
  simp [Piece.names]

/-- Whether pieces can stand behind every piece: there are none, or the first of them is a joint. -/
def Trailing (ps : List Piece) : Prop := ∀ q ∈ ps.head?, q.isJoint = true

@[simp] theorem trailing_nil : Trailing [] := by simp [Trailing]

@[simp] theorem trailing_cons {q : Piece} {ps : List Piece} :
    Trailing (q :: ps) ↔ q.isJoint = true := by
  simp [Trailing]

theorem Coherent.append {ps qs : List Piece} (hp : Coherent ps) (hq : Coherent qs)
    (ht : Trailing qs) : Coherent (ps ++ qs) :=
  coherent_append.2 ⟨hp, hq, fun p _ q hh => Piece.meets_of_isBreak_right (Piece.isBreak_of_isJoint (ht q hh)) p⟩

@[simp] theorem trailing_append {ps qs : List Piece} :
    Trailing (ps ++ qs) ↔ Trailing ps ∧ (ps = [] → Trailing qs) := by
  cases ps <;> simp

@[simp] theorem coherent_append_of_trailing {ps qs : List Piece} (h : Trailing qs) :
    Coherent (ps ++ qs) ↔ Coherent ps ∧ Coherent qs :=
  ⟨fun hp => ⟨(coherent_append.1 hp).1, (coherent_append.1 hp).2.1⟩, fun hp => hp.1.append hp.2 h⟩

@[simp] theorem coherent_cons_of_trailing {p : Piece} {ps : List Piece} (h : Trailing ps) :
    Coherent (p :: ps) ↔ p ≠ .symbol .semicolon ∧ Coherent ps := by
  rw [← List.singleton_append, coherent_append_of_trailing h, coherent_singleton]

@[simp] theorem coherent_ahead_append {ps qs : List Piece} :
    Coherent (Piece.ahead ps ++ qs) ↔ (∀ p ∈ ps, p ≠ .symbol .semicolon) ∧ Coherent qs := by
  simp [Piece.ahead]

@[simp] theorem coherent_flag_append {present : Bool} {ps qs : List Piece}
    (h : ∀ p ∈ ps, p ≠ .symbol .semicolon) :
    Coherent (Piece.flag present ps ++ qs) ↔ Coherent qs := by
  cases present
  · simp [Piece.flag]
  · rw [Piece.flag, if_pos rfl, coherent_ahead_append]
    exact and_iff_right h

@[simp] theorem trailing_behind {ps : List Piece} : Trailing (Piece.behind ps) := by
  simp [Piece.behind]

@[simp] theorem trailing_clause {head body : List Piece} : Trailing (Piece.clause head body) := by
  simp [Piece.clause, Piece.behind]

@[simp] theorem trailing_listClause {head : List Piece} {items : List (List Piece)} :
    Trailing (Piece.listClause head items) := by
  rw [Piece.listClause]
  split <;> simp

@[simp] theorem trailing_aliasClause {a : Option String} : Trailing (Piece.aliasClause a) := by
  cases a <;> simp [Piece.aliasClause]

@[simp] theorem coherent_behind {ps : List Piece} :
    Coherent (Piece.behind ps) ↔ ∀ p ∈ ps, p ≠ .symbol .semicolon := by
  simp [Piece.behind]

@[simp] theorem coherent_clause {head body : List Piece} :
    Coherent (Piece.clause head body) ↔
      (∀ p ∈ head, p ≠ .symbol .semicolon) ∧ Coherent body := by
  simp [Piece.clause, Piece.behind]

@[simp] theorem coherent_listClause {head : List Piece} {items : List (List Piece)}
    (h : ∀ p ∈ head, p ≠ .symbol .semicolon) :
    Coherent (Piece.listClause head items) ↔ ∀ item ∈ items, Coherent item := by
  cases items with
  | nil => simp [Piece.listClause]
  | cons item items => simpa [Piece.listClause] using fun _ _ => h

@[simp] theorem coherent_aliasClause (a : Option String) : Coherent (Piece.aliasClause a) := by
  cases a <;> simp [Piece.aliasClause]

@[simp] theorem trailing_nameList {ns : List String} : Trailing (Piece.nameList ns) := by
  rw [Piece.nameList]
  split <;> simp

@[simp] theorem coherent_nameList (ns : List String) : Coherent (Piece.nameList ns) := by
  rw [Piece.nameList]
  split <;> simp

theorem QualifiedName.coherent (n : QualifiedName) : Coherent n.pieces := by
  obtain ⟨database, name⟩ := n
  cases database <;> simp [QualifiedName.pieces, Coherent, Apart, Piece.meets]

theorem QualifiedName.coherent_wildcard (n : QualifiedName) :
    Coherent (n.pieces ++ [.symbol .dot, .symbol .star]) := by
  obtain ⟨database, name⟩ := n
  cases database <;> simp [QualifiedName.pieces, Coherent, Apart, Piece.meets]

theorem ColumnRef.coherent (c : ColumnRef) : Coherent c.pieces := by
  obtain ⟨table, column⟩ := c
  match table with
  | none => simp [ColumnRef.pieces]
  | some ⟨none, _⟩ => simp [ColumnRef.pieces, QualifiedName.pieces, Coherent, Apart, Piece.meets]
  | some ⟨some _, _⟩ => simp [ColumnRef.pieces, QualifiedName.pieces, Coherent, Apart, Piece.meets]

end CanonicalSql
