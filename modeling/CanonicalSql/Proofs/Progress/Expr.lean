import CanonicalSql.Parser.Expr
import CanonicalSql.Proofs.Course.Operator
import CanonicalSql.Proofs.Progress.Starts

/-! The rules for names, types and expressions over two grammars that do the same near the end.  Inside a
rule the grammar is asked for what stands behind the first token, so the rule itself does the same one token
further from the end. -/

namespace CanonicalSql

open Keyword Word CanonicalSql.Symbol

/-- Whether the rules of two grammars do the same where fewer than `n` tokens are behind the current one. -/
structure Grammar.Together (n : ℕ) (g g' : Grammar) : Prop where
  expr : ∀ level, Parse.Together n (g.expr level) (g'.expr level)
  query : Parse.Together n g.query g'.query
  body : ∀ level, Parse.Together n (g.body level) (g'.body level)
  dataType : Parse.Together n g.dataType g'.dataType
  statement : Parse.Together n g.statement g'.statement

namespace Parse

variable {n : ℕ}

/-! ### Names -/

theorem together_identifier : Together n identifier identifier := by
  apply Together.peek
  intro k
  cases k.name? with
  | none => exact .fail _
  | some name => exact .discard_advance (.pure name)

theorem together_qualifiedName : Together n qualifiedName qualifiedName :=
  .bind together_identifier fun _ => .accept (.bind together_identifier fun _ => .pure _) (.pure _)

theorem together_label (expected : Expectation) : Together n (label expected) (label expected) := by
  apply Together.current
  intro token
  cases token.kind with
  | ident name | quotedIdent name => exact .discard_advance (.pure name)
  | keyword k => exact .discard_advance (.pure token.text)
  | _ => exact .fail _

theorem together_stringLiteral (expected : Expectation) :
    Together n (stringLiteral expected) (stringLiteral expected) := by
  apply Together.peek
  intro k
  cases k with
  | string value => exact .discard_advance (.pure value)
  | _ => exact .fail _

theorem together_aliasName : Together n aliasName aliasName :=
  .accept (.map some together_identifier)
    (.peek fun _ => .ite (.map some together_identifier) (.pure none))

theorem together_nameList : Together n nameList nameList := .between together_identifier.commaList

theorem together_optionalNameList : Together n optionalNameList optionalNameList :=
  .sees fun _ => .ite together_nameList (.pure [])

theorem together_ifNotExists : Together n ifNotExists ifNotExists := .acceptAll _

theorem together_ifExists : Together n ifExists ifExists := .acceptAll _

theorem together_onCluster : Together n onCluster onCluster :=
  .bind (.acceptAll _) fun _ => .ite (.map some together_identifier) (.pure none)

end Parse

namespace Grammar

open Parse

variable {n : ℕ}

theorem together_sortDirection : Parse.Together n sortDirection sortDirection :=
  .accept (.pure _) (.accept (.pure _) (.pure _))

theorem together_frameUnit : Parse.Together n frameUnit frameUnit :=
  .accept (.pure _) (.accept (.pure _) (.pure _))

namespace Together

variable {g g' : Grammar}

theorem mono {m : ℕ} (h : g.Together n g') (hm : m ≤ n) : g.Together m g' :=
  ⟨fun level => (h.expr level).mono hm, h.query.mono hm, fun level => (h.body level).mono hm,
    h.dataType.mono hm, h.statement.mono hm⟩

theorem anyExpr (h : g.Together n g') : Parse.Together n g.anyExpr g'.anyExpr := h.expr 0

/-! ### Types -/

theorem typeArgument (h : g.Together n g') : Parse.Together n g.typeArgument g'.typeArgument := by
  apply Parse.Together.peek
  intro k
  cases k with
  | number t => exact .discard_advance (.pure _)
  | string value => exact .discard_advance (.pure _)
  | ident | quotedIdent => exact .map _ h.dataType
  | _ => exact .fail _

theorem dataTypeRule (h : g.Together n g') : Parse.Starts n g.dataTypeRule g'.dataTypeRule := by
  apply Parse.Starts.peek
  intro k
  cases named : k.name? with
  | none => exact .of_starts (.fail _)
  | some name =>
    refine .discard_advance (Token.Kind.of_name? named).2 (.bind (.optionalList ?_) fun _ => .pure _)
    exact .bind h.typeArgument.commaListUpTo fun args => .expect (.pure args)

/-! ### Windows and calls -/

theorem orderItem (h : g.Together n g') : Parse.Together n g.orderItem g'.orderItem :=
  .bind h.anyExpr fun _ => .bind together_sortDirection fun _ =>
    .bind (.optional (.accept (.pure _) (.accept (.pure _) (.fail _)))) fun _ => .pure _

theorem orderItems (h : g.Together n g') : Parse.Together n g.orderItems g'.orderItems :=
  .expect h.orderItem.commaList

theorem frameBound (h : g.Together n g') : Parse.Together n g.frameBound g'.frameBound := by
  refine .accept (.accept (.pure _) (.expect (.pure _))) (.accept (.expect (.pure _)) ?_)
  exact .bind (h.expr _) fun _ => .accept (.pure _) (.accept (.pure _) (.fail _))

theorem frame (h : g.Together n g') (unit : FrameUnit) :
    Parse.Together n (g.frame unit) (g'.frame unit) :=
  .accept (.bind h.frameBound fun _ => .expect (.bind h.frameBound fun _ => .pure _))
    (.bind h.frameBound fun _ => .pure _)

theorem windowParts (h : g.Together n g') : Parse.Together n g.windowParts g'.windowParts := by
  refine .bind (.optionalList (.expect h.anyExpr.commaList)) fun _ =>
    .bind (.optionalList h.orderItems) fun _ => .bind together_frameUnit fun unit => ?_
  cases unit with
  | none => exact .pure _
  | some unit => exact .bind (h.frame unit) fun _ => .pure _

theorem window (h : g.Together n g') : Parse.Together n g.window g'.window := h.windowParts.between

theorem callArgs (h : g.Together n g') : Parse.Together n g.callArgs g'.callArgs := by
  refine .accept (.pure _) (.sees fun _ => .ite (.pure _) ?_)
  exact .bind (.accepted _) fun _ => .bind h.anyExpr.commaList fun _ => .pure _

theorem call (h : g.Together n g') (name : String) : Parse.Together n (g.call name) (g'.call name) :=
  .bind h.callArgs.between fun _ => .bind h.window.optional fun _ => .pure _

theorem named (h : g.Together n g') (first : String) :
    Parse.Together n (g.named first) (g'.named first) := by
  refine .sees fun _ => .ite (h.call first) (.accept ?_ (.pure _))
  refine .bind together_identifier fun _ => .accept ?_ (.pure _)
  exact .bind together_identifier fun _ => .pure _

/-! ### Operands -/

theorem caseArms (h : g.Together n g') (count : ℕ) :
    Parse.Together n (g.caseArms count) (g'.caseArms count) := by
  induction count with
  | zero => exact .pure []
  | succ count ih =>
    refine .accept (.bind h.anyExpr fun _ => .expect ?_) (.pure [])
    exact .bind h.anyExpr fun _ => .bind ih fun _ => .pure _

theorem cases (h : g.Together n g') : Parse.Together n g.cases g'.cases := by
  have behind : ∀ (arms : List CaseArm) (operand : Option Expr), Parse.Together n
      (do
        let otherwise ← Parse.optional ELSE g.anyExpr
        expect END
        return Expr.cases operand arms otherwise)
      (do
        let otherwise ← Parse.optional ELSE g'.anyExpr
        expect END
        return Expr.cases operand arms otherwise) :=
    fun _ _ => .bind h.anyExpr.optional fun _ => .expect (.pure _)
  apply Parse.Together.sees
  intro plain
  refine .ite (.bind (.pure none) fun operand => ?_) (.bind (.map some h.anyExpr) fun operand => ?_)
  all_goals
    refine .remaining fun count => .bind (h.caseArms count) fun arms => ?_
    exact .ite (.bind (.fail _) fun _ => behind arms operand) (behind arms operand)

theorem cast (h : g.Together n g') : Parse.Together n g.cast g'.cast :=
  .between (.bind h.anyExpr fun _ => .expect (.bind h.dataType fun _ => .pure _))

theorem interval (h : g.Together n g') : Parse.Together n g.interval g'.interval := by
  refine .bind (h.expr _) fun value => .peek fun k => ?_
  cases k with
  | ident unit => exact .discard_advance (.pure _)
  | _ => exact .fail _

theorem parenthesized (h : g.Together n g') : Parse.Together n g.parenthesized g'.parenthesized := by
  refine .peek fun _ => .ite (.map _ h.query) (.bind h.anyExpr.commaList fun items => ?_)
  rcases items with _ | ⟨item, _ | ⟨next, items⟩⟩
  · exact .pure _
  · exact .pure item
  · exact .pure _

theorem keywordOperand (h : g.Together n g') (token : Token) (k : Keyword) :
    Parse.Together n (g.keywordOperand token k) (g'.keywordOperand token k) := by
  have other : ∀ functional : Bool, Parse.Together n
      (do if functional && (← sees leftParen) then g.call token.text else failAt token .expression)
      (do if functional && (← sees leftParen) then g'.call token.text else failAt token .expression) := by
    intro functional
    refine .sees fun _ => .ite (h.call _) (.failAt _ _)
  unfold Grammar.keywordOperand
  split
  · exact .pure _
  · exact .pure _
  · exact .pure _
  · exact h.cases
  · exact h.cast
  · exact .map _ h.query.between
  · exact h.interval
  · exact other _

theorem symbolOperand (h : g.Together n g') (token : Token) (s : Symbol) :
    Parse.Together n (g.symbolOperand token s) (g'.symbolOperand token s) := by
  unfold Grammar.symbolOperand
  split
  · exact .bind h.anyExpr.commaListUpTo fun _ => .expect (.pure _)
  · exact .bind h.parenthesized fun _ => .expect (.pure _)
  · exact .failAt _ _

theorem operand (h : g.Together n g') : Parse.Starts n g.operand g'.operand := by
  refine .advance (fun token inside => ?_) fun token ended => ?_
  · cases hk : token.kind with
    | eof => exact absurd hk inside
    | keyword k => exact h.keywordOperand token k
    | symbol s => exact h.symbolOperand token s
    | ident name | quotedIdent name => exact h.named name
    | _ => exact .pure _
  · rw [ended]
    exact .failAt token _

theorem signedOperand (h : g.Together n g') : Parse.Starts n g.signedOperand g'.signedOperand := by
  have signed : ∀ (op : UnaryOp) (level : ℕ), Parse.Together n
      (do return Expr.unary op (← g.expr level)) (do return Expr.unary op (← g'.expr level)) :=
    fun _ level => .bind (h.expr level) fun _ => .pure _
  exact .accept (signed _ _) (.accept (signed _ _) (.accept (signed _ _) h.operand))

/-! ### Operators -/

theorem memberSet (h : g.Together n g') : Parse.Together n g.memberSet g'.memberSet :=
  .peek fun _ => .ite (.map _ h.query) (.map _ h.anyExpr.commaList)

theorem continued (h : g.Together n g') (left : Expr) (c : Continuation) :
    Parse.Together n (g.continued left c) (g'.continued left c) := by
  cases c with
  | subscript => exact .bind h.anyExpr fun _ => .expect (.pure _)
  | binary op => exact .map _ (h.expr _)
  | nullTest => exact .bind (.accepted _) fun _ => .expect (.pure _)
  | between negated => exact .bind (h.expr _) fun _ => .expect (.map _ (h.expr _))
  | member negated => exact .bind h.memberSet.between fun _ => .pure _
  | like op negated => exact .map _ (h.expr _)

theorem operatorChain (h : g.Together n g') (level count : ℕ) (left : Expr) :
    Chain.Together (n + 1) (g.operatorChain level count left) (g'.operatorChain level count left) := by
  induction count generalizing left with
  | zero => exact .pure left
  | succ count ih =>
    refine .peek fun k => .peekAt fun next => ?_
    cases announced : Continuation.ofKinds? k next with
    | none => exact .pure left
    | some c =>
      obtain ⟨-, inside, -, width⟩ := Continuation.silent_of_ofKinds? announced
      have skipped := Parse.Together.skipped (n := 0) c.width
      dsimp only
      split
      · exact .pure left
      · refine .addLink (.advance skipped.planned (.skip inside (by omega)) fun _ => ?_)
        exact .bind (.lift (h.continued left c)) fun left => (ih left).mono (Nat.le_succ n)

theorem exprRule (h : g.Together n g') (level : ℕ) :
    Parse.Starts n (g.exprRule level) (g'.exprRule level) :=
  .descend (.bind h.signedOperand fun left =>
    .remaining fun count => (h.operatorChain level count left).leftChain)

end Together

end Grammar

end CanonicalSql
