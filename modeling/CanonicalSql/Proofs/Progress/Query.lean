import CanonicalSql.Proofs.Course.Query
import CanonicalSql.Proofs.Progress.Expr

/-! The rules for queries over two grammars that do the same near the end. -/

namespace CanonicalSql

open Keyword Word CanonicalSql.Symbol

namespace Grammar

open Parse

variable {n : ℕ}

theorem together_tableWildcard? : Parse.Together n tableWildcard? tableWildcard? := by
  apply Parse.Together.peek
  intro k
  cases k.name? with
  | none => exact .pure none
  | some first =>
    refine .seesAllAt fun _ => .ite (.skip (.pure _)) (.peekAt fun k => ?_)
    cases k.name? with
    | none => exact .pure none
    | some second =>
      exact .seesAt fun _ => .seesAllAt fun _ => .ite (.skip (.pure _)) (.pure none)

theorem together_joinSide : Parse.Together n joinSide joinSide :=
  .accept (.discard_accept (.pure _)) (.accept (.discard_accept (.pure _))
    (.accept (.discard_accept (.pure _)) (.pure none)))

theorem together_joinKind : Parse.Together n joinKind joinKind :=
  .sees fun _ => .ite (.pure _) (.accept (.pure _) (.accept (.pure _) together_joinSide))

theorem together_setQuantifier : Parse.Together n setQuantifier setQuantifier :=
  .accept (.pure _) (.accept (.pure _) (.pure _))

namespace Together

variable {g g' : Grammar}

/-! ### Relations -/

theorem selectItem (h : g.Together n g') : Parse.Together n g.selectItem g'.selectItem := by
  refine .accept (.pure _) (.bind together_tableWildcard? fun table => ?_)
  cases table with
  | some table => exact .pure _
  | none => exact .bind h.anyExpr fun _ => .bind together_aliasName fun _ => .pure _

theorem derivedQuery (h : g.Together n g') : Parse.Together n g.derivedQuery g'.derivedQuery :=
  .peek fun _ => .sees fun _ => .ite (.bind h.query fun _ => .expect (.pure _)) (.fail _)

theorem relation (h : g.Together n g') : Parse.Together n g.relation g'.relation := by
  refine .accept (.bind h.derivedQuery fun _ => .bind together_aliasName fun _ => .pure _) ?_
  refine .peek fun k => .ite (.fail _) (.seesAt fun _ => .ite ?_ ?_)
  · refine .bind together_identifier fun _ => .bind h.anyExpr.commaListUpTo.between fun _ => ?_
    exact .bind together_aliasName fun _ => .pure _
  · exact .bind together_qualifiedName fun _ => .bind together_aliasName fun _ => .pure _

theorem joinConstraint (h : g.Together n g') (kind : JoinKind) :
    Parse.Together n (g.joinConstraint kind) (g'.joinConstraint kind) := by
  unfold Grammar.joinConstraint
  split
  · exact .pure none
  · refine .accept (.bind h.anyExpr fun _ => .pure _) (.accept ?_ (.fail _))
    exact .bind together_nameList fun _ => .pure _

theorem join (h : g.Together n g') : Parse.Together n g.join g'.join := by
  refine .accept (.bind h.relation fun _ => .pure _) (.bind together_joinKind fun kind => ?_)
  cases kind with
  | none => exact .pure none
  | some kind =>
    exact .expect (.bind h.relation fun _ => .bind (h.joinConstraint kind) fun _ => .pure _)

theorem joins (h : g.Together n g') (count : ℕ) : Parse.Together n (g.joins count) (g'.joins count) := by
  induction count with
  | zero => exact .pure []
  | succ count ih =>
    refine .bind h.join fun join => ?_
    cases join with
    | none => exact .pure []
    | some join => exact .bind ih fun _ => .pure _

theorem fromClause (h : g.Together n g') : Parse.Together n g.fromClause g'.fromClause :=
  .bind h.relation fun _ => .remaining fun count => .bind (h.joins count) fun _ => .pure _

/-! ### Bodies -/

theorem selectBlock (h : g.Together n g') : Parse.Starts n g.selectBlock g'.selectBlock := by
  have behind : ∀ distinct : Bool, Parse.Together n
      (do
        let items ← commaList g.selectItem
        let source ← optional FROM g.fromClause
        let selection ← optional WHERE g.anyExpr
        let groupBy ← optionalList GROUP do
          expect BY
          commaList g.anyExpr
        let having ← optional HAVING g.anyExpr
        return SelectBlock.mk distinct items source selection groupBy having)
      (do
        let items ← commaList g'.selectItem
        let source ← optional FROM g'.fromClause
        let selection ← optional WHERE g'.anyExpr
        let groupBy ← optionalList GROUP do
          expect BY
          commaList g'.anyExpr
        let having ← optional HAVING g'.anyExpr
        return SelectBlock.mk distinct items source selection groupBy having) := by
    intro distinct
    refine .bind h.selectItem.commaList fun _ => .bind h.fromClause.optional fun _ => ?_
    refine .bind h.anyExpr.optional fun _ => .bind (.optionalList (.expect h.anyExpr.commaList)) fun _ => ?_
    exact .bind h.anyExpr.optional fun _ => .pure _
  exact .expect (.bind (.accepted _) fun distinct =>
    .ite (behind distinct) (.discard_accept (behind distinct)))

theorem setOperand (h : g.Together n g') : Parse.Starts n g.setOperand g'.setOperand := by
  have nested : Parse.Starts n (Parse.between leftParen rightParen g.query)
      (Parse.between leftParen rightParen g'.query) := .between h.query
  refine .sees fun _ => .ite (.bind h.selectBlock fun _ => .pure _) (.sees fun _ => .ite ?_ (.fail _))
  exact .bind nested fun _ => .pure _

theorem setOperationChain (h : g.Together n g') (level count : ℕ) (left : QueryBody) :
    Chain.Together (n + 1) (g.setOperationChain level count left)
      (g'.setOperationChain level count left) := by
  induction count generalizing left with
  | zero => exact .pure left
  | succ count ih =>
    refine .peek fun k => ?_
    cases announced : setOp? k with
    | none => exact .pure left
    | some op =>
      have inside := (silent_of_setOp? announced).2
      dsimp only
      split
      · exact .pure left
      · refine .addLink (.advance (.discarded) (.discarded inside) fun _ => ?_)
        refine .bind (.lift together_setQuantifier) fun quantifier => ?_
        exact .bind (.lift (h.body _)) fun right => (ih _).mono (Nat.le_succ n)

theorem bodyRule (h : g.Together n g') (level : ℕ) :
    Parse.Starts n (g.bodyRule level) (g'.bodyRule level) :=
  .bind h.setOperand fun left =>
    .remaining fun count => (h.setOperationChain level count left).leftChain

/-! ### Whole queries -/

theorem commonTable (h : g.Together n g') : Parse.Together n g.commonTable g'.commonTable := by
  refine .bind together_identifier fun _ => .bind together_optionalNameList fun _ => .expect ?_
  exact .bind h.query.between fun _ => .pure _

theorem withClause (h : g.Together n g') : Parse.Together n g.withClause g'.withClause :=
  .bind (.accepted _) fun _ => .bind h.commonTable.commaList fun _ => .pure _

theorem setting (h : g.Together n g') : Parse.Together n g.setting g'.setting :=
  .bind together_identifier fun _ => .expect (.bind h.anyExpr fun _ => .pure _)

theorem limit (h : g.Together n g') : Parse.Together n g.limit g'.limit :=
  .bind h.anyExpr fun _ => .accept (.bind h.anyExpr fun _ => .pure _)
    (.bind h.anyExpr.optional fun _ => .pure _)

theorem queryRule (h : g.Together n g') : Parse.Starts n g.queryRule g'.queryRule := by
  refine .descend (.second h.withClause.optional_next fun _ => .bind (h.bodyRule 0) fun _ => ?_)
  refine .bind h.orderItems.optionalList_next fun _ => .bind h.limit.optional_next fun _ => ?_
  refine .bind h.setting.commaList.optionalList_next fun _ => ?_
  exact .bind (.optional_next (together_label _)) fun _ => .pure _

end Together

end Grammar

end CanonicalSql
