import Mathlib
import CanonicalSql.Proofs.Course.Document

/-! What the limit of nesting does.  It only cuts a parse off, and it bounds the depth of what is
accepted: not by the limit itself, since the levels of a chain are given back at its end and what the
chain has built can become an operand again, but by the sum of the numbers up to it. -/

namespace CanonicalSql

variable {text : String} {tokens : List Token} {limit : Nat} {statements : List Statement}

/-- A text has one outcome and one number of levels.  Within that many levels or more this is what
becomes of the text, and within less the levels run out in front of one of its tokens. -/
theorem exists_levels_of_tokenize (h : tokenize text = .ok tokens) :
    ∃ (outcome : Except ParseError (List Statement)) (levels : Nat),
      ((∃ statements, outcome = .ok statements) ∨
        ∃ found expected, outcome = .error (.unexpected found expected)) ∧
      ∀ limit, (levels ≤ limit → parseDocument text limit = outcome) ∧
        (limit < levels → ∃ t ∈ tokens,
          parseDocument text limit = .error (.tooDeep t.position limit)) := by
  obtain ⟨levels, e, course, -⟩ := course_of_text h
  refine ⟨e.outcome, levels, ?_, course⟩
  cases e with
  | result statements c => exact .inl ⟨statements, rfl⟩
  | refusal found expected c => exact .inr ⟨found, expected, rfl⟩

/-- Two signs in front of a number, each of which takes a level. -/
theorem exists_levels_of_tokenize_signs :
    ∃ tokens, tokenize "SELECT - -1" = .ok tokens ∧
      ∃ (outcome : Except ParseError (List Statement)) (levels : Nat),
        ((∃ statements, outcome = .ok statements) ∨
          ∃ found expected, outcome = .error (.unexpected found expected)) ∧
        ∀ limit, (levels ≤ limit → parseDocument "SELECT - -1" limit = outcome) ∧
          (limit < levels → ∃ t ∈ tokens,
            parseDocument "SELECT - -1" limit = .error (.tooDeep t.position limit)) := by
  have lexed : tokenize "SELECT - -1" = .ok [⟨.keyword .SELECT, "SELECT", ⟨1, 1, 0⟩⟩,
      ⟨.symbol .minus, "-", ⟨1, 8, 7⟩⟩, ⟨.symbol .minus, "-", ⟨1, 10, 9⟩⟩,
      ⟨.number "1", "1", ⟨1, 11, 10⟩⟩, .endMark ⟨1, 12, 11⟩] := by cbv
  exact ⟨_, lexed, exists_levels_of_tokenize lexed⟩

/-- No tree that is accepted is deeper than the sum of the numbers up to the limit. -/
theorem depth_le_of_parseDocument (h : parseDocument text limit = .ok statements) :
    ∀ statement ∈ statements, 2 * statement.depth ≤ limit * (limit + 1) := by
  obtain ⟨tokens, -, holds⟩ := holds_of_parseDocument h
  intro statement hs
  have deep : deepest Statement.depth statements ≤ triangle limit := holds.shallow
  have bound := (le_deepest Statement.depth hs).trans deep
  rw [← two_mul_triangle]
  omega

/-- Within two levels there can be a query in a set operation in a query. -/
theorem depth_le_of_parseDocument_union :
    ∃ statement, parseDocument "(SELECT *) UNION SELECT *" 2 = .ok [statement] ∧
      statement.depth = 3 ∧ 2 * statement.depth ≤ 2 * (2 + 1) := by
  let block := SelectBlock.mk false [.wildcard] none none [] none
  let statement := Statement.select
    (.ofBody (.compound .union .unstated (.nested (.ofBody (.block block))) (.block block)))
  have read : parseDocument "(SELECT *) UNION SELECT *" 2 = .ok [statement] := by cbv
  exact ⟨statement, read, rfl, depth_le_of_parseDocument read statement (by simp)⟩

end CanonicalSql
