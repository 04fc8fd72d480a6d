import CanonicalSql.Proofs.Parts
import CanonicalSql.Proofs.Roundtrip

/-! Set operations are grouped as their tree says.  The text of a tree of set operations has parentheses
where the grammar would group its operands in another way, and these parentheses are part of the tree that
the text is read as.  That tree has the same text. -/

namespace CanonicalSql

/-- The queries that the set operations of a tree combine. -/
def QueryBody.leaves : QueryBody → List QueryBody
  | .block b => [.block b]
  | .nested q => [.nested q]
  | .compound _ _ left right => left.leaves ++ right.leaves

/-- The body in parentheses, if `needed`. -/
def QueryBody.parensIf (needed : Bool) (body : QueryBody) : QueryBody :=
  if needed then .nested (.ofBody body) else body

/-- The tree with the parentheses of its text: around a left operand that binds less tightly than the
operation, and around a right operand that does not bind more tightly. -/
def QueryBody.grouped : QueryBody → QueryBody
  | .block b => .block b
  | .nested q => .nested q
  | .compound op quantifier left right =>
    .compound op quantifier (.parensIf (left.precedence < op.precedence) left.grouped)
      (.parensIf (right.precedence ≤ op.precedence) right.grouped)

/-! ### The parentheses of operands -/

/-- Set operations bind less tightly than the queries that they combine. -/
theorem SetOp.precedence_lt (op : SetOp) : op.precedence < 3 := by
  cases op <;> decide

namespace QueryBody

variable {body : QueryBody} {needed : Bool}

@[simp] theorem pieces_parensIf (body : QueryBody) (needed : Bool) :
    (parensIf needed body).pieces = Piece.parensIf needed body.pieces := by
  cases needed with
  | false => rfl
  | true => simp [parensIf, QueryBody.pieces, Query.ofBody, Query.pieces, OrderItem.each, Setting.each,
      Piece.listClause, Piece.parensIf]

@[simp] theorem data_parensIf (body : QueryBody) (needed : Bool) :
    (parensIf needed body).data = body.data := by
  cases needed with
  | false => rfl
  | true => simp [parensIf, QueryBody.data, Query.ofBody, Query.data, OrderItem.allData, Setting.allData,
      dataIn]

theorem wellFormed_parensIf (h : body.WellFormed) : (parensIf needed body).WellFormed := by
  cases needed with
  | false => exact h
  | true => simpa [parensIf, QueryBody.WellFormed, Query.ofBody, Query.WellFormed, OrderItem.AllWellFormed,
      Setting.AllWellFormed] using h

@[simp] theorem precedence_grouped (body : QueryBody) : body.grouped.precedence = body.precedence := by
  cases body <;> simp [grouped, precedence]

/-- In its parentheses a left operand binds at least as tightly as the operation, -/
theorem le_precedence_left (op : SetOp) (left : QueryBody) :
    op.precedence ≤ (parensIf (left.precedence < op.precedence) left.grouped).precedence := by
  cases loose : decide (left.precedence < op.precedence) with
  | false => simpa [parensIf] using loose
  | true => exact op.precedence_lt.le

/-- and a right operand binds more tightly. -/
theorem lt_precedence_right (op : SetOp) (right : QueryBody) :
    op.precedence < (parensIf (right.precedence ≤ op.precedence) right.grouped).precedence := by
  cases loose : decide (right.precedence ≤ op.precedence) with
  | false => simpa [parensIf] using loose
  | true => exact op.precedence_lt

end QueryBody

/-! ### The tree with the parentheses of its text -/

/-- The text has the parentheses already, and adds no others to them. -/
@[simp] theorem QueryBody.pieces_grouped (body : QueryBody) : body.grouped.pieces = body.pieces := by
  fun_induction grouped body with
  | case1 | case2 => rfl
  | case3 op quantifier left right first second =>
    have tight := decide_eq_false (le_precedence_left op left).not_gt
    have tighter := decide_eq_false (lt_precedence_right op right).not_ge
    simp only [QueryBody.pieces, tight, tighter, pieces_parensIf, first, second]
    rfl

/-- Parentheses add no words of the source. -/
theorem QueryBody.data_grouped (body : QueryBody) :
    body.grouped.data = body.leaves.flatMap QueryBody.data := by
  fun_induction grouped body with
  | case1 | case2 => simp [leaves]
  | case3 op quantifier left right first second => simp [leaves, QueryBody.data, first, second]

/-- Whatever tree is grouped, the operands of its operations bind tightly enough. -/
theorem QueryBody.wellFormed_grouped : (body : QueryBody) →
    (∀ leaf ∈ body.leaves, leaf.WellFormed) → body.grouped.WellFormed
  | .block _, h => by simpa [grouped, leaves] using h
  | .nested _, h => by simpa [grouped, leaves] using h
  | .compound op _ left right, h => by
    rw [leaves, List.forall_mem_append] at h
    exact ⟨wellFormed_parensIf (left.wellFormed_grouped h.1),
      wellFormed_parensIf (right.wellFormed_grouped h.2),
      le_precedence_left op left, lt_precedence_right op right⟩

/-- However set operations combine queries that were read, their text is read as the tree with the
parentheses of the text, and this tree has the same text. -/
theorem parseDocument_sql_grouped {body : QueryBody}
    (parsed : ∀ leaf ∈ body.leaves, (Part.body leaf).Parsed)
    (noOver : ∀ leaf ∈ body.leaves, .unit "OVER" ∉ leaf.data) :
    (∃ levels : Nat, ∀ limit, levels ≤ limit →
      parseDocument (sql (Query.ofBody body)) limit = .ok [.select (.ofBody body.grouped)]) ∧
      sql (Query.ofBody body.grouped) = sql (Query.ofBody body) := by
  have same : sql (Query.ofBody body.grouped) = sql (Query.ofBody body) := by
    simp [sql, Printed.pieces, Query.ofBody, Query.pieces]
  have wellFormed : (Statement.select (.ofBody body.grouped)).WellFormed := by
    have inside := body.wellFormed_grouped fun leaf hl => (parsed leaf hl).wellFormed
    simpa [Statement.WellFormed, Query.ofBody, Query.WellFormed, OrderItem.AllWellFormed,
      Setting.AllWellFormed] using inside
  have data : (Statement.select (.ofBody body.grouped)).data = body.leaves.flatMap QueryBody.data := by
    simp [Statement.data, Query.ofBody, Query.data, OrderItem.allData, Setting.allData, dataIn,
      body.data_grouped]
  have noneOver : .unit "OVER" ∉ (Statement.select (.ofBody body.grouped)).data := by
    intro inside
    obtain ⟨leaf, hl, among⟩ := List.mem_flatMap.1 (data ▸ inside)
    exact noOver leaf hl among
  have text : sql (Statement.select (.ofBody body.grouped)) = sql (Query.ofBody body) := same
  exact ⟨text ▸ parseDocument_sql_of_wellFormed wellFormed noneOver, same⟩

/-- A difference on the right of a difference, and a union on the left of an intersection. -/
theorem parseDocument_sql_grouped_except :
    ∃ body : QueryBody,
      sql (Query.ofBody body) =
        "SELECT * EXCEPT (SELECT * EXCEPT (SELECT * UNION SELECT *) INTERSECT SELECT *)" ∧
      (∀ leaf ∈ body.leaves, (Part.body leaf).Parsed) ∧
      (∀ leaf ∈ body.leaves, .unit "OVER" ∉ leaf.data) ∧
      (∃ levels : Nat, ∀ limit, levels ≤ limit →
        parseDocument (sql (Query.ofBody body)) limit = .ok [.select (.ofBody body.grouped)]) ∧
        sql (Query.ofBody body.grouped) = sql (Query.ofBody body) := by
  let leaf := QueryBody.block ⟨false, [.wildcard], none, none, [], none⟩
  let body := QueryBody.compound .except .unstated leaf (.compound .except .unstated leaf
    (.compound .intersect .unstated (.compound .union .unstated leaf leaf) leaf))
  have read : parseDocument "SELECT *" 2 = .ok [.select (.ofBody leaf)] := by cbv
  have leaves : body.leaves = List.replicate 5 leaf := rfl
  have parsed : ∀ l ∈ body.leaves, (Part.body l).Parsed := by
    intro l hl
    rw [leaves] at hl
    obtain rfl := List.eq_of_mem_replicate hl
    exact .document read (List.mem_singleton_self _)
      (by simp [Statement.parts, Query.ofBody, Query.parts, QueryBody.parts, leaf])
  have noOver : ∀ l ∈ body.leaves, .unit "OVER" ∉ l.data := by
    rw [leaves]
    decide
  exact ⟨body, by decide +kernel, parsed, noOver, parseDocument_sql_grouped parsed noOver⟩

end CanonicalSql
