import CanonicalSql.Proofs.Locality.Expr
import CanonicalSql.Proofs.Progress.Query

/-! The rules for queries over tokens up to a mark of the end and over the same tokens with others behind them.
A query stands between parentheses wherever an expression holds one, so all of its rules are inside. -/

namespace CanonicalSql

open Keyword Word CanonicalSql.Symbol

namespace Cursor

/-- The columns of a whole table that are in front of the cursor, and the number of their tokens behind the first
one. -/
def wildcard? (c : Cursor) : Option (QualifiedName × ℕ) :=
  match c.current.kind.name? with
  | none => none
  | some first =>
    if c.facesAt 1 [dot, star] then some (.bare first, 2)
    else
      match (c.peekAt 2).kind.name? with
      | none => none
      | some second =>
        if Terminal.admits dot (c.peekAt 1).kind && c.facesAt 3 [dot, star] then
          some (⟨some first, second⟩, 4)
        else none

namespace Before

variable {tail c d : Cursor} (h : c.Before tail d)
include h

/-- A terminal that is not behind the tokens stands at the same places on both sides. -/
theorem admits {t : Terminal} (silent : t.admits tail.current.kind = false) {n : ℕ}
    (hn : n ≤ c.remaining) : t.admits (d.peekAt n).kind = t.admits (c.peekAt n).kind := by
  rcases Nat.lt_or_eq_of_le hn with inside | rfl
  · rw [h.peekAt inside]
  · obtain ⟨ended, there⟩ := h.peekAt_remaining
    rw [there, silent, ended, t.admits_eof]

theorem facesAt {ts : List Terminal} (silent : ∀ t ∈ ts, t.admits tail.current.kind = false) {n : ℕ}
    (hn : n ≤ c.remaining) : d.facesAt n ts = c.facesAt n ts := by
  induction ts generalizing n with
  | nil => rfl
  | cons t ts ih =>
    rw [List.forall_mem_cons] at silent
    rw [Cursor.facesAt, Cursor.facesAt, h.admits silent.1 hn]
    cases found : t.admits (c.peekAt n).kind with
    | false => rfl
    | true =>
      have more : n ≠ c.remaining := by
        rintro rfl
        rw [h.peekAt_remaining.1, t.admits_eof] at found
        cases found
      rw [ih silent.2 (by omega)]

/-- Where more than loose tokens are behind the first one, both cursors are in front of the same columns. -/
theorem wildcard? (stops : tail.Stops) (found : ¬ c.Lost) (found' : ¬ c.advance.Lost) :
    d.wildcard? = c.wildcard? := by
  obtain ⟨inside, same⟩ := h.current found
  have some := h.remaining_pos found
  have dots := stops.quiet (t := dot) (by simp)
  have stars : Terminal.admits star tail.current.kind = false := stops.quiet_star
  have both : ∀ t ∈ [Terminal.symbol dot, .symbol star], t.admits tail.current.kind = false := by
    simp [dots, stars]
  rw [Cursor.wildcard?, Cursor.wildcard?, same, h.facesAt both some]
  cases dotted : Terminal.admits dot (c.peekAt 1).kind with
  | false =>
    have undotted := (h.admits dots some).trans dotted
    have faces : c.facesAt 1 [dot, star] = false := by rw [Cursor.facesAt, dotted, Bool.false_and]
    simp only [undotted, faces, Bool.false_and, Bool.false_eq_true, if_false]
    cases (d.peekAt 2).kind.name? <;> cases (c.peekAt 2).kind.name? <;> rfl
  | true =>
    -- Behind the dot there is more, or else only the dot would be left.
    have more : 2 < c.remaining := by
      by_contra few
      have less := h.closed.remaining_advance inside
      refine found' ((h.advance inside).2.lost_of_loose (by omega) ?_)
      rw [h.current_advance inside]
      exact .inr (.inr (Terminal.admits_symbol.1 dotted))
    rw [h.peekAt more, h.facesAt both more, h.peekAt (by omega : 1 < c.remaining), dotted]

end Before

end Cursor

namespace Grammar

open Parse

variable {tail : Cursor} {g : Grammar}

theorem tableWildcard?_eq (p : Parser) : tableWildcard? p =
    match p.cursor.wildcard? with
    | none => .ok none p
    | some (table, count) => (skip (count + 1) >>= fun _ => pure (some table)) p := by
  rw [tableWildcard?, peek_bind, Cursor.wildcard?]
  cases p.cursor.current.kind.name? with
  | none => rfl
  | some first =>
    dsimp only
    rw [seesAllAt_bind]
    cases p.cursor.facesAt 1 [dot, star] with
    | true => rfl
    | false =>
      simp only [Bool.false_eq_true, if_false]
      rw [peekAt_bind]
      cases (p.cursor.peekAt 2).kind.name? with
      | none => rfl
      | some second =>
        dsimp only
        rw [seesAt_bind, seesAllAt_bind]
        cases Terminal.admits dot (p.cursor.peekAt 1).kind && p.cursor.facesAt 3 [dot, star] <;> rfl

/-- What is read of the columns of a whole table, and goes on where there are none. -/
theorem tableWildcard?_bind {β : Type} (f : Option QualifiedName → Parse β) (p : Parser) :
    (tableWildcard? >>= f) p =
      match p.cursor.wildcard? with
      | none => f none p
      | some (table, count) => (skip (count + 1) >>= fun _ => f (some table)) p := by
  change EStateM.bind tableWildcard? f p = _
  rw [EStateM.bind, tableWildcard?_eq]
  cases p.cursor.wildcard? with
  | none => rfl
  | some wildcard =>
    change EStateM.bind (skip (wildcard.2 + 1) >>= fun _ => pure (some wildcard.1)) f p = _
    exact congrFun (bind_assoc (skip (wildcard.2 + 1)) (fun _ => pure (some wildcard.1)) f) p

/-- Where the columns of a whole table are looked for, something is read at any rate. -/
theorem inner_tableWildcard? {β : Type} {f : Option QualifiedName → Parse β} (stops : tail.Stops)
    (hf : ∀ table, Inner tail (f table)) (advances : Parse.Advances (f none) fun _ => True) :
    Inner tail (tableWildcard? >>= f) := by
  refine .of_found (.bind (.of_together together_tableWildcard?) fun table => (hf table).planned)
    fun p d found before => ?_
  have skipped : ∀ count table, Inner tail (skip count >>= fun _ => f (some table)) :=
    fun count table => .bind (.skipped count) fun _ => hf (some table)
  unfold NearAt
  by_cases lost : p.cursor.advance.Lost
  -- With only loose tokens behind the first one, the columns may be told apart differently on both sides; but
  -- whatever is read takes the first one, so that the shorter run is lost.
  · intro a q run
    rw [tableWildcard?_bind] at run
    split at run
    · refine .inl (lost.behind (before.current found).1 ((hf none).planned.onward run) ?_)
      exact advances p a q before.closed run trivial
    · next table count _ =>
      have onward := (skipped count table).planned.onward (p := { p with cursor := p.cursor.advance }) run
      exact .inl (lost.onward onward)
  · rw [tableWildcard?_bind, tableWildcard?_bind, before.wildcard? stops found lost]
    cases p.cursor.wildcard? with
    | none => exact (hf none).near p d before
    | some wildcard => exact (skipped (wildcard.2 + 1) wildcard.1).near p d before

theorem inner_joinSide : Inner tail joinSide :=
  .accept (.discard_accept (.pure _)) (.accept (.discard_accept (.pure _))
    (.accept (.discard_accept (.pure _)) (.pure none)))

theorem inner_joinKind : Inner tail joinKind :=
  .sees fun _ => .ite (.pure _) (.accept (.pure _) (.accept (.pure _) inner_joinSide))

theorem inner_setQuantifier : Inner tail setQuantifier := .accept (.pure _) (.accept (.pure _) (.pure _))

namespace Local

variable (h : g.Local tail)
include h

/-! ### Relations -/

theorem selectItem : Inner tail g.selectItem := by
  refine .accept (.pure _) (inner_tableWildcard? h.stops (fun table => ?_) ?_)
  · cases table with
    | some table => exact .pure _
    | none => exact .bind h.inner fun _ => .bind inner_aliasName fun _ => .pure _
  · exact .first h.advances fun _ => .of_together (.bind together_aliasName fun _ => .pure _)

theorem derivedQuery : Inner tail g.derivedQuery :=
  .peek fun _ => .sees fun _ => .ite (.bind h.query fun _ => .expect (.pure _)) (.fail _)

theorem relation : Inner tail g.relation := by
  refine .accept (.bind h.derivedQuery fun _ => .bind inner_aliasName fun _ => .pure _) ?_
  refine .peek fun k => .ite (.fail _) (.look (fun c => Terminal.admits leftParen (c.peekAt 1).kind)
    (fun c d found before => before.admits (h.stops.quiet (by simp)) (before.remaining_pos found))
    fun _ => .ite ?_ ?_)
  · refine .bind inner_identifier fun _ => .bind (.between (h.inner.commaListUpTo h.stops)) fun _ => ?_
    exact .bind inner_aliasName fun _ => .pure _
  · exact .bind inner_qualifiedName fun _ => .bind inner_aliasName fun _ => .pure _

theorem joinConstraint (kind : JoinKind) : Inner tail (g.joinConstraint kind) := by
  unfold Grammar.joinConstraint
  split
  · exact .pure none
  · refine .accept (.bind h.inner fun _ => .pure _) (.accept ?_ (.fail _))
    exact .bind (inner_nameList h.stops) fun _ => .pure _

theorem join : Inner tail g.join := by
  refine .accept (.bind h.relation fun _ => .pure _) (.bind inner_joinKind fun kind => ?_)
  cases kind with
  | none => exact .pure none
  | some kind =>
    exact .expect (.bind h.relation fun _ => .bind (h.joinConstraint kind) fun _ => .pure _)

theorem joins (count : ℕ) : Inner tail (g.joins count) := by
  induction count with
  | zero => exact .pure []
  | succ count ih =>
    refine .bind h.join fun join => ?_
    cases join with
    | none => exact .pure []
    | some join => exact .bind ih fun _ => .pure _

theorem fromClause : Inner tail g.fromClause := by
  refine .bind h.relation fun relation => ?_
  rw [← bind_assoc]
  exact .bind (.loop h.planned.loops.joins.unbounded h.stops () h.joins) fun _ => .pure _

/-! ### Bodies -/

theorem selectBlock : Inner tail g.selectBlock := by
  have behind : ∀ distinct : Bool, Inner tail
      (do
        let items ← commaList g.selectItem
        let source ← optional FROM g.fromClause
        let selection ← optional WHERE g.anyExpr
        let groupBy ← optionalList GROUP do
          expect BY
          commaList g.anyExpr
        let having ← optional HAVING g.anyExpr
        return SelectBlock.mk distinct items source selection groupBy having) := by
    intro distinct
    refine .bind (h.selectItem.commaList h.stops) fun _ => .bind h.fromClause.optional fun _ => ?_
    refine .bind h.inner.optional fun _ => .bind (.optionalList (.expect h.list)) fun _ => ?_
    exact .bind h.inner.optional fun _ => .pure _
  exact .expect (.bind (.accepted _) fun distinct =>
    .ite (behind distinct) (.discard_accept (behind distinct)))

theorem setOperand : Inner tail g.setOperand :=
  .sees fun _ => .ite (.bind h.selectBlock fun _ => .pure _)
    (.sees fun _ => .ite (.bind (.between h.query) fun _ => .pure _) (.fail _))

theorem setOperations (level count : ℕ) (left : QueryBody) :
    Inner tail (g.setOperations level count left) := by
  induction count generalizing left with
  | zero => exact .pure left
  | succ count ih =>
    refine .peek fun k => ?_
    cases setOp? k with
    | none => exact .pure left
    | some op =>
      dsimp only
      split
      · exact .pure left
      · refine .descend (.discard_advance (.bind inner_setQuantifier fun quantifier => ?_))
        exact .bind (h.body _) fun right => ih _

theorem bodyRule (level : ℕ) : Inner tail (g.bodyRule level) := by
  rw [bodyRule_eq_setOperations]
  exact .bind h.setOperand fun left =>
    .loop (h.planned.unbounded_setOperations level) h.stops left fun count => h.setOperations level count left

/-! ### Whole queries -/

theorem commonTable : Inner tail g.commonTable := by
  refine .bind inner_identifier fun _ => .bind (inner_optionalNameList h.stops) fun _ => .expect ?_
  exact .bind (.between h.query) fun _ => .pure _

theorem withClause : Inner tail g.withClause :=
  .bind (.accepted _) fun _ => .bind (h.commonTable.commaList h.stops) fun _ => .pure _

theorem setting : Inner tail g.setting :=
  .bind inner_identifier fun _ => .expect (.bind h.inner fun _ => .pure _)

theorem limit : Inner tail g.limit :=
  .bind h.inner fun _ => .accept (.bind h.inner fun _ => .pure _)
    (.bind h.inner.optional fun _ => .pure _)

theorem queryRule : Inner tail g.queryRule := by
  refine .descend (.bind h.withClause.optional fun _ => .bind (h.bodyRule 0) fun _ => ?_)
  refine .bind h.orderItems.optionalList fun _ => .bind h.limit.optional fun _ => ?_
  refine .bind (.optionalList (h.setting.commaList h.stops)) fun _ => ?_
  exact .bind (.optional (inner_label _)) fun _ => .pure _

end Local

end Grammar

end CanonicalSql
