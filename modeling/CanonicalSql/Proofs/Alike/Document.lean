import CanonicalSql.Proofs.Alike.Statement
import CanonicalSql.Proofs.Course.Document

/-! Documents over token vectors that go together.  If the vectors end together, so do the runs over them.
If the second one goes on with a semicolon, the statements of the first one come before those that are read
behind the semicolon. -/

namespace CanonicalSql

/-- Whether a statement can end in front of the cursor. -/
def Cursor.EndsStatement (c : Cursor) : Prop :=
  c.current.kind = .eof ∨ c.current.kind = .symbol .semicolon

namespace Parse

/-! ### One statement of a document -/

section

variable {α β : Type} {x : Parse α} {p q : Parser}

/-- What a mapped step gives it makes of what the step gives. -/
theorem exists_of_map {f : α → β} {b : β} (h : (f <$> x) p = .ok b q) :
    ∃ a, x p = .ok a q ∧ f a = b := by
  change EStateM.map f x p = _ at h
  unfold EStateM.map at h
  split at h
  · next run =>
    cases h
    exact ⟨_, run, rfl⟩
  · cases h

/-- Steps that end in the same way still do when their results are mapped. -/
theorem map_congr {y : Parse α} (f : α → β) (h : x p = y q) : (f <$> x) p = (f <$> y) q := by
  change EStateM.map f x p = EStateM.map f y q
  rw [EStateM.map, EStateM.map, h]

end

variable {p q : Parser} {first : Statement} {e : ParseError} {n : ℕ}

theorem skipSemicolons_of_ne (h : p.cursor.current.kind ≠ .symbol .semicolon) :
    skipSemicolons n p = .ok () p := by
  cases n with
  | zero => rfl
  | succ n =>
    have other := Bool.eq_false_of_not_eq_true (mt Terminal.admits_symbol.1 h)
    rw [skipSemicolons, bind_of_ok (accept_of_not_admits other)]
    rfl

/-- Statements from behind the semicolons in front of them. -/
def statementsBehind (n : ℕ) : Parse (List Statement) := do
  if ← atEnd then return []
  else
    let first ← statement
    unless (← accept Symbol.semicolon) || (← atEnd) do fail .statementEnd
    let others ← statementsWithin n
    return first :: others

theorem statementsWithin_eq : statementsWithin (n + 1) = (do
    skipSemicolons (← remaining)
    statementsBehind n) := rfl

theorem statementsWithin_of_ended (h : p.cursor.current.kind = .eof) :
    statementsWithin n p = .ok [] p := by
  cases n with
  | zero => rfl
  | succ n =>
    have ended : atEnd p = .ok true p := congrArg (EStateM.Result.ok · p) (decide_eq_true h)
    have looked : remaining p = .ok p.cursor.remaining p := rfl
    rw [statementsWithin_eq, bind_of_ok looked, bind_of_ok (skipSemicolons_of_ne (by simp [h])),
      statementsBehind, bind_of_ok ended]
    rfl

/-- A semicolon in front of statements makes no difference. -/
theorem statementsWithin_of_semicolon (h : p.cursor.current.kind = .symbol .semicolon) :
    statementsWithin (n + 1) p = statementsWithin (n + 1) { p with cursor := p.cursor.advance } := by
  obtain ⟨⟨passed, current, ahead⟩, depth, limit⟩ := p
  dsimp only at h
  have inside : current.kind ≠ .eof := by simp [h]
  cases ahead with
  | nil => rw [Cursor.advance, if_neg inside]
  | cons next ahead =>
    have looked : ∀ p, remaining p = .ok p.cursor.remaining p := fun _ => rfl
    rw [statementsWithin_eq, bind_of_ok (looked _), bind_of_ok (looked _), Cursor.remaining,
      List.length_cons, skipSemicolons, bind_assoc,
      bind_of_ok (accept_of_admits (Terminal.admits_symbol.2 h)),
      Cursor.advance, if_neg inside]
    rfl

/-- In front of anything else a statement is read. -/
theorem statementsWithin_of_start (inside : p.cursor.current.kind ≠ .eof)
    (other : p.cursor.current.kind ≠ .symbol .semicolon) :
    statementsWithin (n + 1) p = (do
      let first ← statement
      unless (← accept Symbol.semicolon) || (← atEnd) do fail .statementEnd
      let others ← statementsWithin n
      return first :: others : Parse (List Statement)) p := by
  have looked : remaining p = .ok p.cursor.remaining p := rfl
  have going : atEnd p = .ok false p := congrArg (EStateM.Result.ok · p) (decide_eq_false inside)
  rw [statementsWithin_eq, bind_of_ok looked, bind_of_ok (skipSemicolons_of_ne other), statementsBehind,
    bind_of_ok going]
  rfl

/-- What comes of a statement in front of others. -/
theorem statementsWithin_of_statement (inside : p.cursor.current.kind ≠ .eof)
    (other : p.cursor.current.kind ≠ .symbol .semicolon) (h : statement p = .ok first q)
    (done : q.cursor.EndsStatement) :
    statementsWithin (n + 1) p =
      ((first :: ·) <$> statementsWithin n) { q with cursor := q.cursor.advance } := by
  rw [statementsWithin_of_start inside other, bind_of_ok h]
  rcases done with ended | semicolon
  · have stays : q.cursor.advance = q.cursor := by rw [Cursor.advance, if_pos ended]
    have none : Terminal.admits Symbol.semicolon q.cursor.current.kind = false := by rw [ended]; rfl
    have last : atEnd q = .ok true q := congrArg (EStateM.Result.ok · q) (decide_eq_true ended)
    rw [bind_of_ok (accept_of_not_admits none), bind_of_ok last, stays]
    rfl
  · rw [bind_of_ok (accept_of_admits (Terminal.admits_symbol.2 semicolon))]
    rfl

/-- A statement that nothing ends is refused. -/
theorem statementsWithin_of_open (inside : p.cursor.current.kind ≠ .eof)
    (other : p.cursor.current.kind ≠ .symbol .semicolon) (h : statement p = .ok first q)
    (opened : ¬ q.cursor.EndsStatement) : ∃ e, statementsWithin (n + 1) p = .error e q := by
  rw [Cursor.EndsStatement, not_or] at opened
  have none := Bool.eq_false_of_not_eq_true (mt Terminal.admits_symbol.1 opened.2)
  have going : atEnd q = .ok false q := congrArg (EStateM.Result.ok · q) (decide_eq_false opened.1)
  rw [statementsWithin_of_start inside other, bind_of_ok h, bind_of_ok (accept_of_not_admits none),
    bind_of_ok going]
  exact ⟨_, rfl⟩

end Parse

namespace Likeness

open Parse

variable {L : Likeness}

theorem alike_statement : L.Alike Parse.statement Parse.statement := by
  intro c d
  refine .remaining fun less same => ?_
  exact (Grammars.upTo (Nat.succ_le_succ less) fun closed => by rw [same closed]).statement c d

/-- Documents whose vectors end together end alike, if the counts are not below the numbers of tokens. -/
theorem alike_statementsWithin (closed : L.beyond = []) {n m : ℕ} {c d : Cursor}
    (hn : c.remaining ≤ n) (hm : c.remaining ≤ m) :
    L.AlikeAt (Same _) (statementsWithin n) (statementsWithin m) c d := by
  generalize hr : c.remaining = r
  induction r using Nat.strong_induction_on generalizing n m c d with
  | _ r ih =>
    subst hr
    refine .of_beside fun beside => ?_
    have kinds := L.kind_eq (beside.like_of_closed closed)
    by_cases ended : c.current.kind = .eof
    · exact .of_eq (fun p hp => statementsWithin_of_ended (hp ▸ ended))
        (fun p hp => statementsWithin_of_ended (hp ▸ kinds.trans ended)) rfl
    have moved := beside.remaining_advance ended
    obtain ⟨n, rfl⟩ : ∃ k, n = k + 1 := ⟨n - 1, by omega⟩
    obtain ⟨m, rfl⟩ : ∃ k, m = k + 1 := ⟨m - 1, by omega⟩
    by_cases semicolon : c.current.kind = .symbol .semicolon
    · refine AlikeAt.congr (x := discard advance >>= fun _ => statementsWithin (n + 1))
        (y := discard advance >>= fun _ => statementsWithin (m + 1)) ?_
        (fun p hp => statementsWithin_of_semicolon (hp ▸ semicolon))
        (fun p hp => statementsWithin_of_semicolon (hp ▸ kinds.trans semicolon))
      exact .discard_advance ended fun c1 d1 less =>
        ih c1.remaining (by omega) (by omega) (by omega) rfl
    · refine AlikeAt.congr ?_ (fun p hp => statementsWithin_of_start (hp ▸ ended) (hp ▸ semicolon))
        (fun p hp => statementsWithin_of_start (hp ▸ kinds.trans_ne ended)
          (hp ▸ kinds.trans_ne semicolon))
      refine (alike_statement c d).bind ?_
      rintro first _ c1 d1 rfl less1
      have others : ∀ c2 d2 : Cursor, c2.remaining ≤ n → c2.remaining ≤ m →
          c2.remaining < c.remaining → L.AlikeAt (Same _)
            (do return first :: (← statementsWithin n)) (do return first :: (← statementsWithin m))
            c2 d2 := by
        intro c2 d2 hn hm less
        refine (ih c2.remaining less hn hm rfl).bind ?_
        rintro others _ c3 d3 rfl -
        exact .pure rfl
      -- Whether the end follows is looked up behind a semicolon as well, where it makes no difference.
      have looks : ∀ (e : Cursor) (p : Parser), p.cursor = e → atEnd p = .ok e.atEnd p :=
        fun e p hp => by rw [atEnd, hp]
      have : L.Told Symbol.semicolon := ⟨.inr closed⟩
      refine .accept (fun _ c2 d2 less2 => ?_) fun _ => ?_
      · exact .look (looks c2) (looks d2) (others c2 d2 (by omega) (by omega) (by omega))
      · refine .of_beside fun beside1 => .look (looks c1) (looks d1) ?_
        have kinds1 := L.kind_eq (beside1.like_of_closed closed)
        rw [Cursor.atEnd, Cursor.atEnd, kinds1]
        by_cases last : c1.current.kind = .eof
        · have none := beside1.atEnd_iff.1 last
          rw [decide_eq_true last]
          exact others c1 d1 (by omega) (by omega) (by omega)
        · rw [decide_eq_false last]
          exact (AlikeAt.fail (Q := fun (_ _ : PUnit) _ => False) .statementEnd).bind
            fun _ _ _ _ no => no.elim

/-- Documents whose vectors end together end alike. -/
theorem alike_statements (closed : L.beyond = []) : L.Alike Parse.statements Parse.statements :=
  fun _ _ => .remaining fun less _ =>
    alike_statementsWithin closed (Nat.le_succ _) (less.trans (Nat.le_succ _))

/-- Runs that end alike over vectors that end together have the same results, or errors that go together. -/
theorem outcome_of_ends {α : Type} {x y : Parse α} {p q : Parser} {c : Cursor} {depth limit : ℕ}
    {f : ParseError → ParseError} (closed : L.beyond = [])
    (errors : ∀ {e e' : ParseError}, L.Errors e e' → e' = f e)
    (h : L.Ends (Same α) c depth limit (x p) (y q)) :
    (y.outcome q).1 = (x.outcome p).1.mapError f := by
  unfold Parse.outcome
  generalize x p = r at h
  generalize y q = r' at h
  cases h with
  | result same => rw [same]; rfl
  | refusal _ alike => rw [errors alike]; rfl
  | cut more => exact absurd closed more

/-- Where the first vector ends and the second one goes on with a semicolon, the statements of the first
one come before those from the semicolon on, or from behind it. -/
theorem statementsWithin_beyond {s : Token} {rest : List Token} (more : L.beyond = s :: rest)
    (semicolon : s.kind = .symbol .semicolon) (some : rest ≠ [])
    {n m depth limit : ℕ} {c d : Cursor} {as : List Statement} {q : Parser}
    (beside : L.Beside c d) (hn : c.remaining ≤ n) (hm : d.remaining ≤ m)
    (h : statementsWithin n ⟨c, depth, limit⟩ = .ok as q) :
    ∃ e k, (e.upcoming = s :: rest ∨ e.upcoming = rest) ∧ e.remaining ≤ k ∧
      statementsWithin m ⟨d, depth, limit⟩ =
        ((as ++ ·) <$> statementsWithin k) ⟨e, depth, limit⟩ := by
  generalize hr : c.remaining = r
  induction r using Nat.strong_induction_on generalizing n m c d as q with
  | _ r ih =>
    subst hr
    by_cases ended : c.current.kind = .eof
    · rw [statementsWithin_of_ended ended] at h
      cases h
      have behind : L.beyond = d.upcoming := by
        rcases beside.ended ended with ⟨closed, -⟩ | ⟨behind, -⟩
        · simp [more] at closed
        · exact behind
      exact ⟨d, m, .inl (behind.symm.trans more), hm, by simp⟩
    have kinds := L.kind_eq (beside.like ended)
    obtain ⟨behind, first, first'⟩ := beside.advance ended
    have moved := beside.remaining_advance ended
    have moved' := Cursor.remaining_cons first'
    obtain ⟨n, rfl⟩ : ∃ k, n = k + 1 := ⟨n - 1, by omega⟩
    obtain ⟨m, rfl⟩ : ∃ k, m = k + 1 := ⟨m - 1, by omega⟩
    by_cases leading : c.current.kind = .symbol .semicolon
    · rw [statementsWithin_of_semicolon leading] at h
      rw [statementsWithin_of_semicolon (kinds.trans leading)]
      have near : d.advance.remaining ≤ m + 1 := by omega
      exact ih _ (by omega) behind (by omega) near h rfl
    have inside' := kinds.trans_ne ended
    have other' := kinds.trans_ne leading
    have ends := alike_statement c d beside depth limit
    generalize run : Parse.statement ⟨c, depth, limit⟩ = x at ends
    generalize run' : Parse.statement ⟨d, depth, limit⟩ = y at ends
    cases ends with
    | refusal closed => simp [more] at closed
    | cut =>
      rw [statementsWithin_of_start ended leading, bind_of_error run] at h
      cases h
    | @result a _ c1 d1 same beside1 less1 =>
      subst same
      have longer := beside1.remaining_add
      have longest := beside.remaining_add
      by_cases last : c1.current.kind = .eof
      · have stays : c1.advance = c1 := by rw [Cursor.advance, if_pos last]
        have beyond : L.beyond = d1.upcoming := by
          rcases beside1.ended last with ⟨closed, -⟩ | ⟨behind, -⟩
          · simp [more] at closed
          · exact behind
        rw [statementsWithin_of_statement ended leading run (.inl last), stays] at h
        obtain ⟨others, run1, rfl⟩ := exists_of_map h
        rw [statementsWithin_of_ended last] at run1
        cases run1
        obtain ⟨rfl, rfl⟩ : d1.current = s ∧ d1.ahead = rest :=
          List.cons.inj (beyond.symm.trans more)
        obtain ⟨next, ahead, cons⟩ := List.exists_cons_of_ne_nil some
        have rest : d1.advance.upcoming = d1.ahead := by
          obtain ⟨passed, current, ahead'⟩ := d1
          dsimp only at cons semicolon
          simp [Cursor.advance, Cursor.upcoming, cons, semicolon]
        refine ⟨d1.advance, m, .inr rest, ?_, ?_⟩
        · have whole : d1.upcoming = d1.current :: d1.advance.upcoming := by rw [rest]; rfl
          have moved1' := Cursor.remaining_cons whole
          omega
        · rw [statementsWithin_of_statement inside' other' run' (.inr semicolon)]
          rfl
      by_cases separated : c1.current.kind = .symbol .semicolon
      · have separated' := (L.kind_eq (beside1.like last)).trans separated
        obtain ⟨behind1, next, next'⟩ := beside1.advance last
        have moved1 := beside1.remaining_advance last
        have moved1' := Cursor.remaining_cons next'
        rw [statementsWithin_of_statement ended leading run (.inr separated)] at h
        obtain ⟨others, run1, rfl⟩ := exists_of_map h
        have near1 : d1.advance.remaining ≤ m := by omega
        obtain ⟨e, k, place, near, joined⟩ := ih _ (by omega) behind1 (by omega) near1 run1 rfl
        refine ⟨e, k, place, near, ?_⟩
        rw [statementsWithin_of_statement inside' other' run' (.inr separated'),
          map_congr _ joined, ← comp_map]
        rfl
      · obtain ⟨e, refused⟩ := statementsWithin_of_open (n := n) ended leading run
          (by rintro (h | h) <;> contradiction)
        rw [refused] at h
        cases h

end Likeness

end CanonicalSql
