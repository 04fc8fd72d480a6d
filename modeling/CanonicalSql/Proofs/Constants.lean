import CanonicalSql.Proofs.Course.Document
import CanonicalSql.Proofs.Printable

/-! Constants and parameters on their way from a source to its canonical text.  Every rule keeps those
that it passes over, and every tree prints those that it keeps, both in their order; only a limit with
a comma prints its two expressions the other way round. -/

namespace CanonicalSql

theorem literalsOf_of_kinds {ts : List Token} {ps : List Piece}
    (h : ts.map Token.spelled = tokensOf ps ++ [.endMark]) : literalsOf ts = Piece.literals ps := by
  have kinds : ts.map Token.kind = ps.filterMap Piece.kind? ++ [.eof] := by
    have all := congrArg (List.map Spelled.kind) h
    rw [List.map_map, List.map_append, tokensOf, List.map_filterMap] at all
    refine all.trans ?_
    congr 1
    exact List.filterMap_congr fun p _ => by cases hk : p.kind? <;> simp [Piece.token?, hk]
  rw [literalsOf, kinds, List.filter_append, Piece.literals]
  exact List.append_nil _

theorem literals_documentPieces (statements : List Statement) :
    Piece.literals (documentPieces statements) =
      statements.flatMap fun statement => Piece.literals statement.pieces := by
  induction statements with
  | nil => rfl
  | cons statement statements ih =>
    rw [documentPieces] at ih ⊢
    simp [ih]

theorem not_commaLimit {ts : List Token} (h : ∀ t ∈ ts, t.kind ≠ .keyword .LIMIT) :
    ¬ CommaLimit ts := by
  rintro ⟨before, limit, n, e, p, q, rfl, isLimit, -⟩
  exact h limit (by simp) isLimit

variable {text canonical : String} {tokens : List Token}

/-- The canonical text of a source that has no limit with a comma has the constants and parameters of
the source: none is lost, none is added, and none changes its place among them. -/
theorem literalsOf_canonicalize (h : canonicalize text = .ok canonical)
    (ht : tokenize text = .ok tokens) (hc : ¬ CommaLimit tokens) :
    ∃ tokens', tokenize canonical = .ok tokens' ∧ literalsOf tokens' = literalsOf tokens := by
  cases read : parseDocument text with
  | error e =>
    rw [canonicalize, read] at h
    cases h
  | ok statements =>
    obtain rfl : format statements = canonical := by
      rw [canonicalize, read] at h
      exact Except.ok.inj h
    obtain ⟨us, lexed, holds⟩ := holds_of_parseDocument read
    obtain rfl : us = tokens := Except.ok.inj (lexed.symm.trans ht)
    obtain ⟨tokens', printed, spelled, -⟩ := tokenize_text (printable_documentPieces holds.wellFormed)
    refine ⟨tokens', printed, ?_⟩
    rw [literalsOf_of_kinds spelled, literals_documentPieces]
    exact (holds.literals hc).symm

/-- A placeholder, a string and a number, kept in this order. -/
theorem literalsOf_canonicalize_three :
    ∃ tokens, tokenize "SELECT ?, 'a', 1" = .ok tokens ∧ ¬ CommaLimit tokens ∧
      canonicalize "SELECT ?, 'a', 1" = .ok "SELECT ?, 'a', 1;\n" ∧
      ∃ tokens', tokenize "SELECT ?, 'a', 1;\n" = .ok tokens' ∧
        literalsOf tokens' = literalsOf tokens := by
  let tokens : List Token := [⟨.keyword .SELECT, "SELECT", ⟨1, 1, 0⟩⟩,
    ⟨.question, "?", ⟨1, 8, 7⟩⟩, ⟨.symbol .comma, ",", ⟨1, 9, 8⟩⟩,
    ⟨.string "a", "'a'", ⟨1, 11, 10⟩⟩, ⟨.symbol .comma, ",", ⟨1, 14, 13⟩⟩,
    ⟨.number "1", "1", ⟨1, 16, 15⟩⟩, .endMark ⟨1, 17, 16⟩]
  have lexed : tokenize "SELECT ?, 'a', 1" = .ok tokens := by decide +kernel
  have plain : ¬ CommaLimit tokens := not_commaLimit (by decide)
  have printed : canonicalize "SELECT ?, 'a', 1" = .ok "SELECT ?, 'a', 1;\n" := by decide +kernel
  exact ⟨tokens, lexed, plain, printed, literalsOf_canonicalize printed lexed plain⟩

end CanonicalSql
