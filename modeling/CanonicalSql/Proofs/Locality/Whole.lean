import CanonicalSql.Proofs.Locality.Query

/-! Where an expression ends.  In every grammar the rules for expressions take more than loose tokens and the
others are inside, however deep it goes.  So the whole grammar reads an expression in front of a mark of the end
as it reads it in front of any other tokens that do not continue it. -/

namespace CanonicalSql

open Keyword CanonicalSql.Symbol

/-! ### What a run passes over -/

namespace Parser

variable {p q : Parser}

/-- A single step passes over no mark of the end. -/
theorem Step.passes (h : p.Step q) :
    ∀ t ∈ p.cursor.upcoming.take (q.cursor.passed - p.cursor.passed), t.kind ≠ .eof := by
  cases h with
  | deeper | close => simp [Parser.deeper, Parser.closed]
  | move =>
    obtain ⟨⟨passed, current, ahead⟩, depth, limit⟩ := p
    by_cases ended : current.kind = .eof
    · simp [Cursor.advance, ended]
    · cases ahead <;> simp [Cursor.advance, Cursor.upcoming, ended]

/-- Neither does a way of single steps. -/
theorem Way.passes {floor : ℕ} {way : List Parser} (h : Way floor p way q) :
    ∀ t ∈ p.cursor.upcoming.take (q.cursor.passed - p.cursor.passed), t.kind ≠ .eof := by
  induction h with
  | stay p => simp
  | @next p q r way step some rest ih =>
    have first := step.onward
    have split : r.cursor.passed - p.cursor.passed =
        (q.cursor.passed - p.cursor.passed) + (r.cursor.passed - q.cursor.passed) := by
      have front := first.passed
      have back := rest.onward.1.passed
      omega
    rw [split, List.take_add, ← first.upcoming, List.forall_mem_append]
    exact ⟨step.passes, ih⟩

end Parser

theorem Parse.Planned.passes {α : Type} {x : Parse α} (h : Planned x) {p q : Parser} {a : α}
    (run : x p = .ok a q) :
    ∀ t ∈ p.cursor.upcoming.take (q.cursor.passed - p.cursor.passed), t.kind ≠ .eof := by
  obtain ⟨plan, rfl⟩ := h
  have passes := (plan.balanced p).1.passes
  unfold Parse.outcome at passes
  rwa [run] at passes

/-! ### The grammar as a whole -/

namespace Grammar

open Parse

variable {tail : Cursor}

theorem local_upTo (stops : tail.Stops) (count : ℕ) : (upTo count).Local tail := by
  induction count with
  | zero =>
    exact ⟨stops, planned_upTo 0, fun _ => .fail _, .fail _, .fail _, fun _ => .fail _, .fail _⟩
  | succ count ih =>
    exact ⟨stops, planned_upTo (count + 1), ih.exprRule, ((planned_upTo count).exprRule 0).advances,
      ih.queryRule, ih.bodyRule, ih.dataTypeRule⟩

/-- An expression is read over both vectors alike, unless loose tokens are left over. -/
theorem near_whole (stops : tail.Stops) (level : ℕ) : Near tail Cursor.Stuck (whole.expr level) := by
  intro p d before
  have first := ((together_whole le_rfl).expr level).agree p before.closed
    (Nat.lt_succ_of_le (Nat.le_max_left p.cursor.remaining d.remaining))
  have second := ((together_whole le_rfl).expr level).agree { p with cursor := d } (before.closed' stops)
    (Nat.lt_succ_of_le (Nat.le_max_right p.cursor.remaining d.remaining))
  exact (((local_upTo stops _).expr level).near p d before).of_eq first second

end Grammar

/-! ### Two vectors -/

namespace Cursor

variable {e r : List Token}

/-- A mark of the end does not continue an expression. -/
theorem stops_endMark (passed : ℕ) (place : Position) : Stops ⟨passed, .endMark place, []⟩ where
  closed := rfl
  silent
    | .inl announced => by cases announced
    | .inr ⟨t, _, admitted⟩ => absurd (t.admits_eof.symm.trans admitted) Bool.false_ne_true

/-- Behind tokens that are no marks of the end, a vector goes on with what does not continue an expression, or
with the mark that it is given. -/
theorem exists_stops (inside : ∀ t ∈ e, t.kind ≠ .eof) (silent : ¬ (ofTokens r).ContinuesExpr) :
    ∃ tail : Cursor, tail.upcoming = r ++ missingEnd (e ++ r) ∧ tail.Stops := by
  cases r with
  | nil =>
    have mark : ∃ place, missingEnd e = [.endMark place] := by
      unfold missingEnd
      cases last : e.getLast? with
      | none => exact ⟨_, rfl⟩
      | some t => exact ⟨_, if_neg (inside t (List.mem_of_getLast? last))⟩
    obtain ⟨place, mark⟩ := mark
    rw [List.append_nil, List.nil_append, mark]
    exact ⟨⟨0, .endMark place, []⟩, rfl, stops_endMark 0 place⟩
  | cons t r =>
    have same : missingEnd (e ++ t :: r) = missingEnd (t :: r) := by
      unfold missingEnd
      rw [List.getLast?_append_cons]
    rw [same, ← upcoming_ofTokens]
    exact ⟨_, rfl, closed_ofTokens _, silent⟩

end Cursor

/-- A step that takes all tokens in front of a mark of the end passes over no other mark, and it leaves that one
over. -/
theorem Parse.Planned.takes_all {α : Type} {x : Parse α} (plan : Planned x) {e : List Token} {mark : Token}
    (ended : mark.kind = .eof) {limit : ℕ} {a : α} {q : Parser}
    (run : x (.ofTokens (e ++ [mark]) limit) = .ok a q) (all : q.cursor.passed = e.length) :
    (∀ t ∈ e, t.kind ≠ .eof) ∧ q.cursor.upcoming = [mark] := by
  have vector : (Parser.ofTokens (e ++ [mark]) limit).cursor.upcoming = e ++ [mark] :=
    Cursor.upcoming_ofTokens_of_ended ended
  have start : (Parser.ofTokens (e ++ [mark]) limit).cursor.passed = 0 := Cursor.passed_ofTokens _
  have passes := plan.passes run
  have upcoming := (plan.onward run).upcoming
  rw [vector, start, all, Nat.sub_zero] at passes upcoming
  rw [List.take_left] at passes
  rw [List.drop_left] at upcoming
  exact ⟨passes, upcoming⟩

/-- An expression that takes all tokens in front of a mark of the end is read in front of any other tokens as
well, unless they continue it, and the cursor is left in front of them. -/
theorem expr_ends {level limit : ℕ} {e r : List Token} {mark : Token} {x : Expr} {q : Parser}
    (ended : mark.kind = .eof)
    (run : Parse.rule (fun g => g.expr level) (.ofTokens (e ++ [mark]) limit) = .ok x q)
    (all : q.cursor.passed = e.length) (silent : ¬ (Cursor.ofTokens r).ContinuesExpr) :
    ∃ c : Cursor,
      Parse.rule (fun g => g.expr level) (.ofTokens (e ++ r) limit) = .ok x { q with cursor := c } ∧
      c.passed = e.length ∧ c.upcoming = r ++ Cursor.missingEnd (e ++ r) := by
  have plan := (Grammar.planned_whole.expr level).planned
  obtain ⟨inside, left⟩ := plan.takes_all ended run all
  have here : q.cursor.current.kind = .eof := (List.cons.inj left).1 ▸ ended
  obtain ⟨tail, follows, stops⟩ := Cursor.exists_stops inside silent
  have before : (Cursor.ofTokens (e ++ [mark])).Before tail (.ofTokens (e ++ r)) := by
    refine ⟨e, mark, Cursor.upcoming_ofTokens_of_ended ended, ?_, ended, inside⟩
    rw [Cursor.upcoming_ofTokens, follows, List.append_assoc]
  rcases Grammar.near_whole stops level _ _ before x q run with stuck | ⟨c, run', before'⟩
  · exact absurd here stuck.2
  · have rest : c.upcoming = r ++ Cursor.missingEnd (e ++ r) := (before'.ended here).trans follows
    have size : c.size = (Cursor.ofTokens (e ++ r)).size := (plan.onward run').size
    refine ⟨c, run', ?_, rest⟩
    simp only [Cursor.size, rest, Cursor.upcoming_ofTokens, Cursor.passed_ofTokens, List.length_append]
      at size
    omega

/-- A call ends in front of `NOT NULL`: no window follows, and nothing is negated. -/
theorem expr_ends_not_null :
    let call : List Token := [⟨.ident "f", "f", ⟨1, 1, 0⟩⟩, ⟨.symbol leftParen, "(", ⟨1, 2, 1⟩⟩,
      ⟨.symbol rightParen, ")", ⟨1, 3, 2⟩⟩]
    let constraint : List Token := [⟨.keyword NOT, "NOT", ⟨1, 5, 4⟩⟩, ⟨.keyword NULL, "NULL", ⟨1, 9, 8⟩⟩]
    let value : Expr := .call ⟨"f", .list [], false, none⟩
    Parse.rule (fun g => g.expr 0) (.ofTokens (call ++ [.endMark ⟨1, 4, 3⟩]) 1) =
      .ok value ⟨⟨3, .endMark ⟨1, 4, 3⟩, []⟩, 0, 1⟩ ∧
    ¬ (Cursor.ofTokens constraint).ContinuesExpr ∧
    ∃ c : Cursor,
      Parse.rule (fun g => g.expr 0) (.ofTokens (call ++ constraint) 1) = .ok value ⟨c, 0, 1⟩ ∧
      c.passed = 3 ∧ c.upcoming = constraint ++ [.endMark ⟨1, 13, 12⟩] := by
  intro call constraint value
  have silent : ¬ (Cursor.ofTokens constraint).ContinuesExpr := by decide
  have run : Parse.rule (fun g => g.expr 0) (.ofTokens (call ++ [.endMark ⟨1, 4, 3⟩]) 1) =
      .ok value ⟨⟨3, .endMark ⟨1, 4, 3⟩, []⟩, 0, 1⟩ := by cbv
  have mark : Cursor.missingEnd (call ++ constraint) = [.endMark ⟨1, 13, 12⟩] := by decide
  rw [← mark]
  exact ⟨run, silent, expr_ends rfl run rfl silent⟩

end CanonicalSql
