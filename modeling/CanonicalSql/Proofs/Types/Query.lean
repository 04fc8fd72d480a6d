import CanonicalSql.Proofs.Types.Expr

/-! The types in queries are those that the rule for types gives. -/

namespace CanonicalSql.Grammar.Keeps

open Keyword Word CanonicalSql.Symbol Parse

variable {g : Grammar} {n : ℕ}

theorem selectItem (hg : g.Keeps) : g.selectItem.Keeps n fun item => Shallow n item.types := by
  refine .accept (.pure shallow_nil) (.past sound_tableWildcard fun table => ?_)
  cases table with
  | some table => exact .pure shallow_nil
  | none => exact .bind hg.anyExpr fun _ h => .past sound_aliasName fun _ => .pure h

theorem derivedQuery (hg : g.Keeps) : g.derivedQuery.Keeps n fun q => Shallow n q.types := by
  have query : (do
      let query ← g.query
      expect rightParen
      return query : Parse Query).Keeps n fun q => Shallow n q.types :=
    .bind hg.query fun _ h => .expect (.pure h)
  exact .peek fun _ => .sees fun _ => .ite query .fail

theorem relation (hg : g.Keeps) : g.relation.Keeps n fun relation => Shallow n relation.types := by
  refine .accept (.bind hg.derivedQuery fun _ h => .past sound_aliasName fun _ => .pure h)
    (.peek fun _ => .ite .fail (.seesAt fun _ => .ite ?_ ?_))
  · refine .past sound_identifier fun _ => .bind hg.anyExpr.commaListUpTo.between fun _ h =>
      .past sound_aliasName fun _ => .pure ?_
    simpa [Relation.types, Expr.allTypes_eq] using h
  · exact .past sound_qualifiedName fun _ => .past sound_aliasName fun _ => .pure shallow_nil

theorem joinConstraint (hg : g.Keeps) (kind : JoinKind) :
    (g.joinConstraint kind).Keeps n fun o => ∀ c ∈ o, Shallow n c.types := by
  unfold Grammar.joinConstraint
  split
  · exact .pure (by simp)
  · refine .accept (.bind hg.anyExpr fun _ h => .pure ?_) (.accept (.past sound_nameList fun _ =>
      .pure ?_) .fail)
    · simpa [JoinConstraint.types] using h
    · simp [JoinConstraint.types]

theorem join (hg : g.Keeps) : g.join.Keeps n fun o => ∀ join ∈ o, Shallow n join.types := by
  refine .accept (.bind hg.relation fun _ h => .pure ?_) (.past yields_joinKind fun kind => ?_)
  · simpa [Join.types] using h
  · cases kind with
    | none => exact .pure (by simp)
    | some kind =>
      refine .expect (.bind hg.relation fun _ h1 => .bind (hg.joinConstraint kind) fun c h2 => .pure ?_)
      cases c <;> simp_all [Join.types]

theorem joins (hg : g.Keeps) (count : ℕ) :
    (g.joins count).Keeps n fun joins => ∀ join ∈ joins, Shallow n join.types := by
  induction count with
  | zero => exact .pure (by simp)
  | succ count ih =>
    refine .bind hg.join fun join h1 => ?_
    cases join with
    | none => exact .pure (by simp)
    | some join => exact .bind ih fun _ h2 => .pure (List.forall_mem_cons.2 ⟨h1 join rfl, h2⟩)

theorem fromClause (hg : g.Keeps) : g.fromClause.Keeps n fun source => Shallow n source.types := by
  refine .bind hg.relation fun _ h1 => .remaining fun count => .bind (hg.joins count) fun _ h2 =>
    .pure ?_
  simpa [FromClause.types, Join.allTypes_eq] using ⟨h1, h2⟩

theorem selectClauses (hg : g.Keeps) (distinct : Bool) :
    (do
      let items ← commaList g.selectItem
      let source ← Parse.optional FROM g.fromClause
      let selection ← Parse.optional WHERE g.anyExpr
      let groupBy ← optionalList GROUP do
        expect BY
        commaList g.anyExpr
      let having ← Parse.optional HAVING g.anyExpr
      return ⟨distinct, items, source, selection, groupBy, having⟩ :
        Parse SelectBlock).Keeps n fun block => Shallow n block.types := by
  refine .bind hg.selectItem.commaList fun items h1 => .bind (.optional hg.fromClause) fun source h2 =>
    .bind (.optional hg.anyExpr) fun selection h3 =>
    .bind (.optionalList (.expect hg.anyExpr.commaList)) fun groupBy h4 =>
    .bind (.optional hg.anyExpr) fun having h5 => .pure ?_
  rw [SelectBlock.types_eq]
  simpa using ⟨h1, h2, h3, h4, h5⟩

theorem selectBlock (hg : g.Keeps) : g.selectBlock.Keeps n fun block => Shallow n block.types :=
  .expect (.accept (hg.selectClauses true) (.discard_accept (hg.selectClauses false)))

theorem setOperand (hg : g.Keeps) : g.setOperand.Keeps n fun b => Shallow n b.types := by
  exact .sees fun _ => .ite (.bind hg.selectBlock fun _ h => .pure h)
    (.sees fun _ => .ite (.bind hg.query.between fun _ h => .pure h) .fail)

theorem setOperations (hg : g.Keeps) (level count : ℕ) {left : QueryBody}
    (hl : Shallow n left.types) : (g.setOperations level count left).Keeps n fun b => Shallow n b.types := by
  induction count generalizing left with
  | zero => exact .pure hl
  | succ count ih =>
    refine .peek fun k => ?_
    split
    · exact .pure hl
    · split
      · exact .pure hl
      · refine .descend (.discard_advance (.past sound_setQuantifier fun _ =>
          .bind (hg.body _) fun _ h => ih ?_))
        simp [QueryBody.types, hl, h]

theorem bodyRule (hg : g.Keeps) (level : ℕ) : (g.bodyRule level).Keeps n fun b => Shallow n b.types := by
  rw [bodyRule_eq_setOperations]
  exact .bind hg.setOperand fun _ h => .remaining fun count => hg.setOperations level count h

theorem commonTable (hg : g.Keeps) : g.commonTable.Keeps n fun table => Shallow n table.types :=
  .past sound_identifier fun _ => .past sound_optionalNameList fun _ =>
    .expect (.bind hg.query.between fun _ h => .pure h)

theorem withClause (hg : g.Keeps) : g.withClause.Keeps n fun tables => Shallow n tables.types := by
  refine .past (sound_accept _) fun _ => .bind hg.commonTable.commaList fun _ h => .pure ?_
  simpa [WithClause.types, CommonTable.allTypes_eq] using h

theorem setting (hg : g.Keeps) : g.setting.Keeps n fun setting => Shallow n setting.types :=
  .past sound_identifier fun _ => .expect (.bind hg.anyExpr fun _ h => .pure h)

theorem limit (hg : g.Keeps) : g.limit.Keeps n fun limit => Shallow n limit.types := by
  refine .bind hg.anyExpr fun _ h1 => .accept (.bind hg.anyExpr fun _ h2 => .pure ?_)
    (.bind (.optional hg.anyExpr) fun offset h2 => .pure ?_)
  · simp [Limit.types, h1, h2]
  · cases offset <;> simp_all [Limit.types]

theorem queryRule (hg : g.Keeps) : g.queryRule.Keeps n fun q => Shallow n q.types := by
  refine .descend (.bind (.optional hg.withClause) fun tables h1 => .bind (hg.bodyRule 0) fun _ h2 =>
    .bind (.optionalList hg.orderItems) fun _ h3 => .bind (.optional hg.limit) fun limit h4 =>
    .bind (.optionalList hg.setting.commaList) fun _ h5 =>
    .past (Parse.Sound.optional _ (sound_label _)) fun _ => .pure ?_)
  rw [Query.types_eq]
  simpa using ⟨h1, h2, h3, h4, h5⟩

end CanonicalSql.Grammar.Keeps
