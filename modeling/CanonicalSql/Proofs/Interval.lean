import CanonicalSql.Proofs.Levels.Crossing
import CanonicalSql.Proofs.Roundtrip

/-! Intervals keep their extent.  The unit of an interval stands right behind its value, and no value takes
it in but a call without a window, which takes the word `OVER`. -/

namespace CanonicalSql

/-- An expression whose units are no windows is read back from its text. -/
theorem exists_levels_of_not_crossed {e : Expr} (hw : e.WellFormed) (h : ¬ Part.AnyCrossed e.parts) :
    ∃ levels : Nat, ∀ limit, levels ≤ limit → parseExpr (sql e) limit = .ok e := by
  have finite : e.levels false ≠ ⊤ := by
    simpa [Expr.levels, e.inner_eq_top] using h
  obtain ⟨levels, same⟩ := ENat.ne_top_iff_exists.1 finite
  exact ⟨levels, fun limit enough => (parseExpr_sql_of_wellFormed hw limit).1
    (same ▸ Nat.cast_le.2 enough)⟩

/-- Where a unit is taken for the start of a window, the text is read within no limit. -/
theorem refused_of_crossed {e : Expr} (hw : e.WellFormed) (h : Part.AnyCrossed e.parts) (limit : Nat) :
    ∃ error, parseExpr (sql e) limit = .error error := by
  have infinite : e.levels false = ⊤ := by
    simpa [Expr.levels, e.inner_eq_top] using h
  exact (parseExpr_sql_of_wellFormed hw limit).2 (by simp [infinite])

/-- Every interval that is read from some text has a text of its own that is read as the same interval, if
no unit `OVER` stands behind a call in it.  If there is such a unit, the text is not read at all. -/
theorem parseExpr_sql_interval {value : Expr} {unit : String}
    (parsed : (Part.expr (.interval value unit)).Parsed) :
    (¬ Part.AnyCrossed (Expr.interval value unit).parts →
        ∃ levels : Nat, ∀ limit, levels ≤ limit →
          parseExpr (sql (Expr.interval value unit)) limit = .ok (.interval value unit)) ∧
      (Part.AnyCrossed (Expr.interval value unit).parts →
        ∀ limit, ∃ error, parseExpr (sql (Expr.interval value unit)) limit = .error error) :=
  ⟨exists_levels_of_not_crossed parsed.wellFormed, refused_of_crossed parsed.wellFormed⟩

/-- A call in parentheses in front of the unit `OVER`: its text has no parentheses. -/
theorem parseExpr_sql_interval_over :
    ∃ value, parseExpr "INTERVAL (f(x)) over" 4 = .ok (.interval value "OVER") ∧
      sql (Expr.interval value "OVER") = "INTERVAL f(x) OVER" ∧
      ∀ limit, ∃ error, parseExpr (sql (Expr.interval value "OVER")) limit = .error error := by
  let value := Expr.call ⟨"f", .list [.bareColumn "x"], false, none⟩
  have read : parseExpr "INTERVAL (f(x)) over" 4 = .ok (.interval value "OVER") := by cbv
  have parsed : (Part.expr (.interval value "OVER")).Parsed :=
    .expression read (by simp [Expr.parts])
  have crossed : Part.AnyCrossed (Expr.interval value "OVER").parts :=
    ⟨.expr (.interval value "OVER"), by simp [Expr.parts], by decide, rfl, rfl⟩
  exact ⟨value, read, by decide +kernel, (parseExpr_sql_interval parsed).2 crossed⟩

end CanonicalSql
